import DevRelay.Snapshot.RoundTrip
import DevRelay.Snapshot.SequenceNumbers
import DevRelay.Snapshot.StatePreimage

/-!
# Checkpoints that are skipped

`checkpoint_if_changed` stores nothing when the state hash is that of the latest
snapshot.  The hash covers the commit, the two trees and the lists of paths, and
an apply restores the branch too: a switch of branches that changes nothing else
is never stored.
-/

namespace DevRelay.Snapshot

open DevRelay.Core DevRelay.Git DevRelay.Lib DevRelay.Storage DevRelay.Retention

/-! ## The latest snapshot -/

/-- The metadata of every row is of the project of the row. -/
def RowsNamed (db : MetadataDb) : Prop :=
  ∀ row ∈ db.snapshots, row.metadata.projectId = row.projectId

theorem projectId_of_latestSnapshot {store : SnapshotStore} {latest : StoredSnapshot}
    (h : RowsNamed store.db) (hlatest : store.latestSnapshot = some latest) :
    latest.metadata.projectId = store.projectId := by
  obtain ⟨row, hrow, rfl⟩ := Option.map_eq_some_iff.mp hlatest
  have hmem := (List.mem_insertionSort _).mp (List.mem_of_mem_head? hrow)
  obtain ⟨hstored, hproject⟩ := List.mem_filter.mp hmem
  exact (h row hstored).trans (of_decide_eq_true hproject)

/-- The captured metadata without its project. -/
def unnamed (m : SnapshotMetadata) : CapturedMetadata :=
  { { m with projectId := "" } with operationCapsule := none }

/-- A snapshot as `create_snapshot` records it: its commits have its trees, its hash is that of
its state, the included paths are sorted, and no text has a zero byte. -/
structure Kept (capture : CaptureEnv) (m : SnapshotMetadata) : Prop where
  commits : ∃ head work index, Resolves capture.objects m head work index ∧
    m.indexTreeOid = capture.objects.treeOid index.tree ∧
    m.workTreeOid = capture.objects.treeOid work.tree
  stateHash : calculateStateHash capture.digest m = m.stateHash
  sorted : m.includedUntracked.SortedLE
  nulFree : AllNulFree (unnamed m).texts

/-- The store is opened for the project of the manifest, its latest snapshot is one that was
created, and a checkpoint of the source reports that nothing has changed; no path has a zero
byte, and the hash function has no collision there. -/
structure Skipped (capture : CaptureEnv) (manifest : Manifest) (source : Repository)
    (store : SnapshotStore) (m : SnapshotMetadata) (latest : StoredSnapshot) : Prop where
  opened : store.projectId = manifest.projectId
  rows : RowsNamed store.db
  captured : captureSnapshot capture manifest source = .ok m
  latestStored : store.latestSnapshot = some latest
  kept : Kept capture latest.metadata
  skipped : ∃ checkpointEnv pinned label snapshotId stateHash store',
    (checkpointIfChanged checkpointEnv (captureSnapshot capture manifest source) pinned
      label).exec checkpointEnv.fault 0 store = (.ok (.unchanged snapshotId stateHash), store')
  nulFree : AllNulFree (m.includedUntracked ++ m.excluded.flatMap excludedFields)
  noCollision : capture.digest.hex (stateStream latest.metadata) =
    capture.digest.hex (stateStream m) → stateStream latest.metadata = stateStream m

variable {capture : CaptureEnv} {manifest : Manifest} {source : Repository}
  {store store' : SnapshotStore} {m : SnapshotMetadata} {latest : StoredSnapshot}
  {env : ApplyEnv} {anchor target : Repository} {classified : List ClassifiedPath}

/-- A checkpoint is skipped only when the hashes are the same. -/
theorem stateHash_of_unchanged {checkpointEnv : CheckpointEnv} {pinned : Bool}
    {label : Option String} {snapshotId stateHash : String}
    (hlatest : store.latestSnapshot = some latest)
    (h : (checkpointIfChanged checkpointEnv (.ok m) pinned label).run store =
      (.ok (.unchanged snapshotId stateHash), store')) :
    latest.metadata.stateHash = m.stateHash := by
  unfold checkpointIfChanged at h
  rw [Prog.ofExcept_ok_bind, Prog.run_query_bind, hlatest] at h
  by_contra hne
  have hnone : sameState m (some latest) = none := by
    simp [sameState, hne]
  rw [hnone] at h
  obtain ⟨stored, u, -, hpure⟩ := (Prog.run_bind_ok _ _ _ _ _).mp h
  cases hpure

/-- A checkpoint of the state of the latest snapshot is skipped. -/
theorem run_checkpointIfChanged_same {checkpointEnv : CheckpointEnv} {pinned : Bool}
    {label : Option String} (h : sameState m store.latestSnapshot = some latest) :
    (checkpointIfChanged checkpointEnv (.ok m) pinned label).run store =
      (.ok (.unchanged latest.snapshotId m.stateHash), store) := by
  unfold checkpointIfChanged
  rw [Prog.ofExcept_ok_bind, Prog.run_query_bind, h]
  rfl

/-- An object id is hexadecimal, and has no zero byte. -/
theorem nulFree_of_digits {oid : String} (h : oid.toList.all isLowerHexdigit = true) :
    NulFree oid := by
  intro hmem
  exact absurd (List.all_eq_true.mp h _ hmem) (by decide)

/-- What is captured is kept, where no path has a zero byte. -/
theorem kept_capturedMetadata (h : Accepts capture manifest source classified)
    (hfree : AllNulFree (includedPaths classified ++
      (excludedPaths classified).flatMap excludedFields)) :
    Kept capture (capturedMetadata capture manifest source classified) where
  commits := by
    obtain ⟨head, work, index, hresolves, -, hwork, hindex⟩ := (records_capturedMetadata h).commits
    exact ⟨head, work, index, hresolves, by rw [hindex]; rfl, by rw [hwork]; rfl⟩
  stateHash := rfl
  sorted := (List.pairwise_insertionSort (· ≤ ·) _).sortedLE
  nulFree := by
    obtain ⟨head, hhead⟩ := Option.isSome_iff_exists.mp h.resolves
    intro text htext
    rw [CapturedMetadata.texts] at htext
    simp only [List.mem_append, List.mem_cons, List.not_mem_nil, or_false] at htext
    rcases htext with (((((rfl | rfl | rfl | rfl) | hcapsule) | hpath) | hitem) | hside) | hchild
    · exact List.not_mem_nil
    · exact nulFree_of_digits (capture.objects.commitOf_digits _ _ hhead)
    · exact nulFree_of_digits (capture.objects.treeOid_digits _)
    · exact nulFree_of_digits (capture.objects.treeOid_digits _)
    · cases hcapsule
    · exact hfree text (List.mem_append_left _ hpath)
    · exact hfree text (List.mem_append_right _ hitem)
    · cases hside
    · cases hchild

/-- The latest snapshot records the state that was captured, but for the branch. -/
theorem Skipped.records (h : Skipped capture manifest source store m latest)
    (hbranch : latest.metadata.branch = m.branch) :
    ∃ classified, Accepts capture manifest source classified ∧
      m = capturedMetadata capture manifest source classified ∧
      Records capture source classified latest.metadata := by
  obtain ⟨classified, haccepts, hm⟩ := captureSnapshot_eq_ok.mp h.captured
  refine ⟨classified, haccepts, hm, ?_⟩
  obtain ⟨checkpointEnv, pinned, label, snapshotId, stateHash, store', hskipped⟩ := h.skipped
  rw [h.captured] at hskipped
  have hhash := stateHash_of_unchanged h.latestStored (Prog.run_of_exec_ok hskipped)
  have hfree := h.nulFree
  rw [hm] at hfree
  have hkept := kept_capturedMetadata haccepts hfree
  rw [← hm] at hkept
  have hstream : stateStream latest.metadata = stateStream m := by
    apply h.noCollision
    calc capture.digest.hex (stateStream latest.metadata)
      _ = latest.metadata.stateHash := h.kept.stateHash
      _ = m.stateHash := hhash
      _ = capture.digest.hex (stateStream m) := hkept.stateHash.symm
  have hproject : latest.metadata.projectId = m.projectId := by
    rw [projectId_of_latestSnapshot h.rows h.latestStored, h.opened, hm]
    rfl
  have hsame : SameHashedState (unnamed latest.metadata) (unnamed m) :=
    sameHashedState_of_capturedStream h.kept.nulFree hkept.nulFree
      (stateStream_unnamed hproject hstream)
  have hrecords := records_capturedMetadata haccepts
  rw [← hm] at hrecords
  exact {
    commits := by
      obtain ⟨head, work, index, hresolves, hindex, hwork⟩ := h.kept.commits
      refine ⟨head, work, index, hresolves, ?_, ?_, ?_⟩
      · have hhead := hresolves.head
        rw [show latest.metadata.headOid = m.headOid from hsame.headOid] at hhead
        rw [Repository.headTree, hrecords.headOid, Option.bind_some, hhead]
      · apply capture.objects.treeOid_injective
        rw [← hwork, ← hrecords.workTreeOid]
        exact hsame.workTreeOid
      · apply capture.objects.treeOid_injective
        rw [← hindex, ← hrecords.indexTreeOid]
        exact hsame.indexTreeOid
    headOid := hrecords.headOid.trans (congrArg some hsame.headOid.symm)
    branch := hbranch.trans hrecords.branch
    indexTreeOid := hsame.indexTreeOid.trans hrecords.indexTreeOid
    workTreeOid := hsame.workTreeOid.trans hrecords.workTreeOid
    stateHash := h.kept.stateHash
    included := by
      rw [← hrecords.included]
      exact hsame.includedUntracked.eq_of_sortedLE h.kept.sorted hkept.sorted
    excluded := by
      intro path
      rw [← hrecords.excluded]
      have hpaths := (hsame.excluded.map Prod.fst).mem_iff (a := path)
      simpa [List.map_map, Function.comp_def, unnamed] using hpaths }

def featureSource (objects : GitObjects) : Repository :=
  { notesSource objects with
    head := .branch "feature"
    refs := (notesSource objects).refs.insert "refs/heads/feature" (objects.commitOid rootCommit) }

theorem featureSource_accepted :
    Accepts (plainCapture numberedObjects) plainManifest (featureSource numberedObjects)
      notesClassified :=
  accepted_at_root rfl rfl rfl (by rfl) fun _ => by rfl

/-- The snapshot of `main` is stored. -/
def mainStore (objects : GitObjects) : SnapshotStore where
  projectId := "12345678"
  db := {
    projects := .empty
    sessions := .empty
    snapshots := ⟨[checkpointRow (notesMetadata objects) false none 1], List.nodup_singleton _⟩
    leases := .empty
    handoffs := .empty
    handoffJournal := []
    deviceRevocations := .empty
    auditEvents := [] }
  refs := [(notesMetadata objects).indexRef, (notesMetadata objects).workRef]

def mainStored (objects : GitObjects) : StoredSnapshot :=
  storedSnapshotFromRow (checkpointRow (notesMetadata objects) false none 1)

def quietCheckpoint : CheckpointEnv where
  unixEpoch := 0
  injected := none
  fault := noFault
  txFault := noFault

/-- A checkpoint of a state with the hash of the snapshot of `main` is skipped. -/
theorem skipped_main {source : Repository} {m : SnapshotMetadata}
    (hcaptured : captureSnapshot (plainCapture numberedObjects) plainManifest source = .ok m)
    (hstream : stateStream (notesMetadata numberedObjects) = stateStream m)
    (hhash : m.stateHash = (plainCapture numberedObjects).digest.hex (stateStream m))
    (hfree : AllNulFree (m.includedUntracked ++ m.excluded.flatMap excludedFields)) :
    Skipped (plainCapture numberedObjects) plainManifest source (mainStore numberedObjects) m
      (mainStored numberedObjects) where
  opened := rfl
  rows row hrow := by
    rw [List.mem_singleton.mp hrow]
    rfl
  captured := hcaptured
  latestStored := rfl
  kept := kept_capturedMetadata notesSource_accepted (by decide)
  skipped := by
    have hsame : sameState m (mainStore numberedObjects).latestSnapshot =
        some (mainStored numberedObjects) := by
      have hlatest : (mainStore numberedObjects).latestSnapshot =
          some (mainStored numberedObjects) := rfl
      have hstored : (mainStored numberedObjects).metadata.stateHash = m.stateHash := by
        rw [hhash, ← hstream]
        rfl
      rw [hlatest]
      simp [sameState, hstored]
    rw [hcaptured]
    exact ⟨quietCheckpoint, false, none, _, _, _, run_checkpointIfChanged_same hsame⟩
  nulFree := hfree
  noCollision _ := hstream

end DevRelay.Snapshot
