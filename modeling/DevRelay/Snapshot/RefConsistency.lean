import DevRelay.Lib.Run
import DevRelay.Retention.PlannedPruning
import DevRelay.Snapshot.Store

/-!
# Rows and references

A checkpoint imports the references of a snapshot before it inserts the row, and
a pruning deletes them before it deletes the row.  A row therefore lacks a
reference only after a pruning that was stopped within a removal.
-/

namespace DevRelay.Snapshot

open DevRelay.Lib DevRelay.Core DevRelay.Storage DevRelay.Retention

/-- Every row has both its references in the snapshot repository. -/
def RefsPresent (store : SnapshotStore) : Prop :=
  ∀ row ∈ store.db.snapshots,
    row.metadata.indexRef ∈ store.refs ∧ row.metadata.workRef ∈ store.refs

/-- A row of the project of the store, named as its metadata, with its references. -/
structure Held (store : SnapshotStore) (row : SnapshotRow) : Prop where
  project : row.projectId = store.projectId
  named : row.metadata.snapshotId = row.snapshotId
  index : row.metadata.indexRef ∈ store.refs
  work : row.metadata.workRef ∈ store.refs

def Intact (store : SnapshotStore) : Prop := ∀ row ∈ store.db.snapshots, Held store row

theorem Intact.refsPresent {store : SnapshotStore} (h : Intact store) : RefsPresent store :=
  fun row hrow => ⟨(h row hrow).index, (h row hrow).work⟩

variable {store : SnapshotStore} {row other : SnapshotRow}

/-! ## Checkpoints -/

theorem Intact.withRefs (h : Intact store) (metadata : SnapshotMetadata) :
    Intact (withRefs store metadata) := by
  intro row hrow
  obtain ⟨hproject, hnamed, hindex, hwork⟩ := h row hrow
  exact ⟨hproject, hnamed, List.mem_union_iff.mpr (Or.inl hindex),
    List.mem_union_iff.mpr (Or.inl hwork)⟩

/-- The row is inserted when its references are there. -/
theorem intact_of_insertSnapshot {env : CheckpointEnv} {metadata : SnapshotMetadata}
    {parent label : Option String} {pinned : Bool} {stored : StoredSnapshot}
    {u : SnapshotStore} (h : Intact store) (hproject : metadata.projectId = store.projectId)
    (hinsert : insertSnapshot env { metadata with parentSnapshotId := parent } pinned label
      (DevRelay.Snapshot.withRefs store metadata) = .ok (stored, u)) : Intact u := by
  obtain ⟨hsame, hrefs, htable, -⟩ := insertSnapshot_eq_ok hinsert
  intro row hrow
  rcases (Table.mem_insert? htable).mp hrow with hold | rfl
  · obtain ⟨hown, hnamed, hindex, hwork⟩ := h.withRefs metadata row hold
    exact ⟨hown.trans hsame.symm, hnamed, hrefs ▸ hindex, hrefs ▸ hwork⟩
  · refine ⟨hproject.trans hsame.symm, rfl, ?_, ?_⟩
    · rw [hrefs]
      exact List.mem_union_iff.mpr (Or.inr List.mem_cons_self)
    · rw [hrefs]
      exact List.mem_union_iff.mpr (Or.inr (List.mem_cons_of_mem _ List.mem_cons_self))

/-! ## Removals -/

/-- References that are not those of the snapshot stay. -/
theorem mem_withoutRefs {metadata : SnapshotMetadata} {reference : String}
    (h : reference ∈ store.refs) (hindex : reference ≠ metadata.indexRef)
    (hwork : reference ≠ metadata.workRef) :
    reference ∈ (store.withoutRefs metadata).refs :=
  List.mem_filter.mpr ⟨List.mem_filter.mpr ⟨h, decide_eq_true hindex⟩, decide_eq_true hwork⟩

/-- Two rows have different references. -/
theorem Held.withoutRefs (h : Held store row) (hother : Held store other)
    (hne : row.snapshotId ≠ other.snapshotId) : Held (store.withoutRefs other.metadata) row := by
  have hids : row.metadata.snapshotId ≠ other.metadata.snapshotId := by
    rw [h.named, hother.named]
    exact hne
  refine ⟨h.project, h.named, mem_withoutRefs h.index ?_ (SnapshotMetadata.indexRef_ne_workRef _ _),
    mem_withoutRefs h.work (SnapshotMetadata.indexRef_ne_workRef _ _).symm ?_⟩
  · intro hindex
    exact hids (SnapshotMetadata.indexRef_injective hindex)
  · intro hwork
    exact hids (SnapshotMetadata.workRef_injective hwork)

/-- A removal that goes through leaves the references of the other rows. -/
theorem Intact.without (h : Intact store) (hrow : row ∈ store.db.snapshots) :
    Intact (store.without row.snapshotId row.metadata) := by
  intro left hleft
  obtain ⟨hmem, hne⟩ := Table.mem_deleteWhere.mp hleft
  rw [decide_eq_false_iff_not] at hne
  obtain ⟨hproject, hnamed, hindex, hwork⟩ := (h left hmem).withoutRefs (h row hrow) hne
  exact ⟨hproject, hnamed, hindex, hwork⟩

/-- Without its first reference the row is dangling, whatever happens to the second. -/
theorem not_refsPresent_deleteRef {t : SnapshotStore} (hrow : row ∈ t.db.snapshots)
    (hgone : row.metadata.indexRef ∉ t.refs) : ¬RefsPresent t :=
  fun h => hgone (h row hrow).1

theorem indexRef_not_mem_deleteRef (store : SnapshotStore) (metadata : SnapshotMetadata) :
    metadata.indexRef ∉ (store.deleteRef metadata.indexRef).refs := by
  intro hmem
  have hne := of_decide_eq_true (List.mem_filter.mp hmem).2
  exact hne rfl

theorem indexRef_not_mem_withoutRefs (store : SnapshotStore) (metadata : SnapshotMetadata) :
    metadata.indexRef ∉ (store.withoutRefs metadata).refs :=
  fun hmem => indexRef_not_mem_deleteRef store metadata (List.mem_filter.mp hmem).1

/-! ## Where a pruning stops -/

/-- A pruning queries the latest snapshot, and runs six statements for a deletion: the row,
its children, the two references, the number of rows, and the row again.  In front of these
ones a reference is gone and the row is not. -/
def DuringRemoval (n : Nat) : Prop := ∃ i, n = 6 * i + 4 ∨ n = 6 * i + 5 ∨ n = 6 * i + 6

/-- The store is intact unless the pruning stopped within a removal, and then a row is
dangling. -/
structure Settled (stop : Option Nat) (t : SnapshotStore) : Prop where
  intact : (∀ n, stop = some n → ¬DuringRemoval n) → Intact t
  dangling : RefsPresent t → ∀ n, stop = some n → ¬DuringRemoval n

variable {t : SnapshotStore} {n i : Nat}

theorem settled_none (h : Intact t) : Settled none t :=
  ⟨fun _ => h, fun _ _ hstop => absurd hstop (by simp)⟩

theorem settled_of_intact (h : Intact t) (hn : ¬DuringRemoval n) : Settled (some n) t := by
  refine ⟨fun _ => h, fun _ m hm => ?_⟩
  cases hm
  exact hn

theorem settled_of_dangling (h : ¬RefsPresent t) (hn : DuringRemoval n) : Settled (some n) t :=
  ⟨fun hquiet => absurd hn (hquiet n rfl), fun hpresent => absurd hpresent h⟩

/-- A row whose removal got past the guards is deleted: the rows are all of one project. -/
theorem deleteSnapshotRow?_of_intact (h : Intact store)
    (hrow : row ∈ store.db.snapshots) (hpinned : row.pinned = false)
    (hchildren : store.snapshotHasChildren row.snapshotId = false) :
    (store.withoutRefs row.metadata).deleteSnapshotRow? row.snapshotId =
      some (store.without row.snapshotId row.metadata) := by
  apply SnapshotStore.deleteSnapshotRow?_of_deletable row.metadata hrow (h row hrow).project
    hpinned
  intro child hchild hparent
  rw [Bool.eq_false_iff] at hchildren
  apply hchildren
  rw [SnapshotStore.snapshotHasChildren_iff]
  exact ⟨child, hchild, (h child hchild).project, hparent⟩

theorem pruneSnapshot_settled {α : Type} {fault : Fault DevRelayError} {latest : Option String}
    {id : String} {k : String → Pruning α} (h : Intact store)
    (hk : ∀ id u, Intact u → Settled ((k id).stoppedAt fault (6 * (i + 1) + 1) u)
      ((k id).exec fault (6 * (i + 1) + 1) u).2) :
    Settled ((pruneSnapshot latest id >>= k).stoppedAt fault (6 * i + 1) store)
      ((pruneSnapshot latest id >>= k).exec fault (6 * i + 1) store).2 := by
  have hearly : ∀ n, 6 * i < n → n < 6 * i + 4 → Settled (some n) store := by
    intro n hlow hhigh
    apply settled_of_intact h
    rintro ⟨j, hn⟩
    omega
  unfold pruneSnapshot getSnapshot removeSnapshot deleteSnapshotRefs
  simp only [Prog.bind_assoc]
  apply Prog.stop_query_bind (hearly _ (by omega) (by omega))
  intro _
  apply Prog.stop_orFail_bind (settled_none h)
  intro stored hfind
  obtain ⟨row, hrow, rfl, hproject, rfl⟩ := SnapshotStore.mem_of_findSnapshot hfind
  apply Prog.stop_ensure_bind (settled_none h)
  intro hpinned
  apply Prog.stop_ensure_bind (settled_none h)
  intro _
  apply Prog.stop_query_bind (hearly _ (by omega) (by omega))
  intro _
  apply Prog.stop_ensure_bind (settled_none h)
  intro hchildren
  apply Prog.stop_write_bind (hearly _ (by omega) (by omega))
  intro _
  -- from here to the deletion of the row a stop leaves it dangling
  have hgone := indexRef_not_mem_withoutRefs store row.metadata
  have hdangling : ¬RefsPresent (store.withoutRefs row.metadata) :=
    not_refsPresent_deleteRef hrow hgone
  apply Prog.stop_write_bind
  · apply settled_of_dangling
    · exact not_refsPresent_deleteRef hrow (indexRef_not_mem_deleteRef store row.metadata)
    · exact ⟨i, by omega⟩
  intro _
  apply Prog.stop_query_bind
  · exact settled_of_dangling hdangling ⟨i, by omega⟩
  intro _
  have hdelete := deleteSnapshotRow?_of_intact h hrow hpinned hchildren
  apply Prog.stop_attempt_bind
  · exact settled_of_dangling hdangling ⟨i, by omega⟩
  · intro hnone
    exact absurd (hdelete.symm.trans hnone) (by simp)
  · intro u hu
    have hwithout := h.without hrow
    rw [Option.some_inj.mp (hdelete.symm.trans hu)] at hwithout
    apply Prog.stop_ensure_bind (settled_none hwithout)
    intro _
    exact hk _ u hwithout

theorem pruneDecisions_settled {fault : Fault DevRelayError} {latest : Option String}
    (decisions : List PruningDecision) (result : SnapshotPruneResult) (h : Intact store) :
    Settled ((pruneDecisions latest decisions result).stoppedAt fault (6 * i + 1) store)
      ((pruneDecisions latest decisions result).exec fault (6 * i + 1) store).2 := by
  induction decisions generalizing store result i with
  | nil => exact settled_none h
  | cons decision rest ih =>
    unfold pruneDecisions
    split
    · exact ih result h
    · apply pruneSnapshot_settled h
      intro id u hu
      exact ih _ hu

/-- A pruning that starts from an intact store leaves one, unless it is stopped within a
removal. -/
theorem pruneSnapshots_settled (fault : Fault DevRelayError) (plan : PruningPlan)
    (h : Intact store) :
    Settled ((pruneSnapshots plan).stoppedAt fault 0 store)
      ((pruneSnapshots plan).exec fault 0 store).2 := by
  unfold pruneSnapshots
  apply Prog.stop_query_bind
  · apply settled_of_intact h
    rintro ⟨j, hj⟩
    omega
  · intro _
    exact @pruneDecisions_settled _ 0 fault _ plan.decisions ⟨[], 0⟩ h

/-! ## Runs -/

/-- What is done to a local store.  Every call is stopped where its schedule says, and a retry
is a further call. -/
inductive LocalCall where
  | storeSnapshot (env : CheckpointEnv) (metadata : SnapshotMetadata) (pinned : Bool)
      (label : Option String)
  | checkpointIfChanged (env : CheckpointEnv)
      (created : Except DevRelayError SnapshotMetadata) (pinned : Bool)
      (label : Option String)
  | pruneSnapshots (fault : Fault DevRelayError) (plan : PruningPlan)

def localStep (store : SnapshotStore) : LocalCall → SnapshotStore
  | .storeSnapshot env metadata pinned label =>
    ((storeSnapshot env metadata pinned label).exec env.fault 0 store).2
  | .checkpointIfChanged env created pinned label =>
    ((checkpointIfChanged env created pinned label).exec env.fault 0 store).2
  | .pruneSnapshots fault plan => ((pruneSnapshots plan).exec fault 0 store).2

/-- The call is not a pruning that stops between the first reference and the row. -/
def FinishesRemovals (store : SnapshotStore) : LocalCall → Prop
  | .pruneSnapshots fault plan =>
    ∀ n, (pruneSnapshots plan).stoppedAt fault 0 store = some n → ¬DuringRemoval n
  | _ => True

theorem intact_localStep_iff {call : LocalCall} (h : Intact store) :
    (FinishesRemovals store call → Intact (localStep store call)) ∧
      (RefsPresent (localStep store call) → FinishesRemovals store call) := by
  cases call with
  | storeSnapshot env metadata pinned label =>
    refine ⟨fun _ => ?_, fun _ => trivial⟩
    refine Prog.exec_ensures (Q := fun _ _ => True) env.fault 0 _ store h ?_
    apply storeSnapshot_ensures_of h (h.withRefs metadata)
    intro hproject parent stored u hinsert
    exact intact_of_insertSnapshot h hproject hinsert
  | checkpointIfChanged env created pinned label =>
    refine ⟨fun _ => ?_, fun _ => trivial⟩
    refine Prog.exec_ensures (Q := fun _ _ => True) env.fault 0 _ store h ?_
    apply checkpointIfChanged_ensures_of h h.withRefs
    intro metadata hproject parent stored u hinsert
    exact intact_of_insertSnapshot h hproject hinsert
  | pruneSnapshots fault plan =>
    have hsettled := pruneSnapshots_settled fault plan h
    exact ⟨hsettled.intact, hsettled.dangling⟩

/-- The store of a new project, whatever its repository holds. -/
def NoRows (store : SnapshotStore) : Prop := ∀ row, row ∉ store.db.snapshots

theorem NoRows.intact (h : NoRows store) : Intact store := fun row hrow => absurd hrow (h row)

/-- The call at every point of the run finishes its removals. -/
def EveryCallFinishes (store : SnapshotStore) (calls : List LocalCall) : Prop :=
  ∀ i, ∀ h : i < calls.length, FinishesRemovals (stateAt localStep store calls i) calls[i]

theorem intact_stateAt {calls : List LocalCall} (h : Intact store)
    (hcalls : EveryCallFinishes store calls) (n : Nat) :
    Intact (stateAt localStep store calls n) := by
  refine stateAt_induction (I := Intact) h ?_ n
  intro i hi hintact
  exact (intact_localStep_iff hintact).1 (hcalls i hi)

/-- Every row of a local store has its references, in every state of a run, exactly when no
pruning of the run stops within a removal. -/
theorem refsPresent_run_iff (store : SnapshotStore) (calls : List LocalCall) (h : NoRows store) :
    (∀ n, RefsPresent (stateAt localStep store calls n)) ↔ EveryCallFinishes store calls := by
  constructor
  · intro hpresent
    have hintact : ∀ n, n ≤ calls.length → Intact (stateAt localStep store calls n) := by
      intro n
      induction n with
      | zero => exact fun _ => h.intact
      | succ n ih =>
        intro hn
        have hbefore := ih (by omega)
        have hafter := hpresent (n + 1)
        rw [stateAt_succ (by omega)] at hafter ⊢
        exact (intact_localStep_iff hbefore).1 ((intact_localStep_iff hbefore).2 hafter)
    intro i hi
    have hafter := hpresent (i + 1)
    rw [stateAt_succ hi] at hafter
    exact (intact_localStep_iff (hintact i (by omega))).2 hafter
  · intro hcalls n
    exact (intact_stateAt h.intact hcalls n).refsPresent

/-! ## A pruning that is stopped

Two leaves of one snapshot are stored, and the pruning of the older leaf is stopped behind
the deletion of its index reference.
-/

def rootId : String := "s1_aaaaaaaaaaaaaaaaaaaaaaaa"
def leafId : String := "s1_bbbbbbbbbbbbbbbbbbbbbbbb"
def newestId : String := "s1_cccccccccccccccccccccccc"

def newStore : SnapshotStore :=
  { familyStore with db := { familyStore.db with projects := .empty, snapshots := .empty } }

def plainCheckpoint : CheckpointEnv where
  unixEpoch := 0
  injected := none
  fault := noFault
  txFault := noFault

def leafPlan : PruningPlan where
  scope := .deviceCache
  currentUsageBytes := 40
  freeDiskBytes := 1073741824
  targetReclaimBytes := 0
  plannedReclaimBytes := 10
  decisions := [⟨leafId, 10, .delete .outsideRetention⟩]
  warnings := []

/-- The process dies in front of the deletion of the work reference. -/
def diesBeforeWorkRef : Fault DevRelayError := fun n => if n = 4 then some (.io "killed") else none

def stoppedPruning (fault : Fault DevRelayError) : List LocalCall := [
  .storeSnapshot plainCheckpoint (demoRow rootId none 0).metadata false none,
  .storeSnapshot plainCheckpoint (demoRow leafId (some rootId) 0).metadata false none,
  .storeSnapshot plainCheckpoint (demoRow newestId (some rootId) 0).metadata false none,
  .pruneSnapshots fault leafPlan]

theorem stopped_pruning_leaves_row : ∃ row ∈
    (stateAt localStep newStore (stoppedPruning diesBeforeWorkRef) 4).db.snapshots,
      row.metadata.indexRef ∉
        (stateAt localStep newStore (stoppedPruning diesBeforeWorkRef) 4).refs := by
  decide

theorem refsPresent_fails : ¬∀ (store : SnapshotStore) (calls : List LocalCall),
    NoRows store → ∀ n, RefsPresent (stateAt localStep store calls n) := by
  intro hall
  obtain ⟨row, hrow, hgone⟩ := stopped_pruning_leaves_row
  exact hgone (hall _ _ (fun row => Table.not_mem_empty row) 4 row hrow).1

theorem refsPresent_run_iff_stopped :
    (∀ n, RefsPresent (stateAt localStep newStore (stoppedPruning diesBeforeWorkRef) n)) ↔
      EveryCallFinishes newStore (stoppedPruning diesBeforeWorkRef) :=
  refsPresent_run_iff _ _ fun row => Table.not_mem_empty row

end DevRelay.Snapshot
