import DevRelay.Retention.Plan
import DevRelay.Storage.Schema

/-!
# Pruning the snapshot store

`SnapshotStore::prune_snapshots` of `snapshot_store.rs` with the queries it uses.
The deletions of a plan are carried out one after the other, each in statements
of its own: there is no transaction around them.
-/

namespace DevRelay.Retention

open DevRelay.Lib DevRelay.Core DevRelay.Storage

/-- The database of a store, the project it is opened for, and the references of its
snapshot repository. -/
structure SnapshotStore where
  projectId : String
  db : MetadataDb
  refs : List String
  deriving DecidableEq

structure SnapshotPruneResult where
  deletedSnapshotIds : List String
  reclaimedEstimatedBytes : UInt64
  deriving DecidableEq, Repr

/-- The creation time is cast: a negative column reads as a large number. -/
def storedSnapshotFromRow (row : SnapshotRow) : StoredSnapshot where
  snapshotId := row.snapshotId
  projectId := row.projectId
  sessionId := row.sessionId
  parentSnapshotId := row.parentSnapshotId
  sequenceNumber := row.sequenceNumber
  pinned := row.pinned
  label := row.label
  metadata := row.metadata
  createdAtUnixSeconds := row.createdAtUnixSeconds.toUInt64

def SnapshotRetentionEntry.fromStored (snapshot : StoredSnapshot)
    (estimatedSizeBytes : UInt64) : SnapshotRetentionEntry where
  snapshotId := snapshot.snapshotId
  parentSnapshotId := snapshot.parentSnapshotId
  sequenceNumber := snapshot.sequenceNumber
  pinned := snapshot.pinned
  createdAtUnixSeconds := snapshot.createdAtUnixSeconds
  estimatedSizeBytes := estimatedSizeBytes

namespace SnapshotStore

/-- `FROM snapshots WHERE project_id = ?1` -/
def projectRows (self : SnapshotStore) : List SnapshotRow :=
  self.db.snapshots.rows.filter fun row => row.projectId = self.projectId

/-- `ORDER BY sequence_number ASC` -/
def listSnapshots (self : SnapshotStore) : List StoredSnapshot :=
  (self.projectRows.insertionSort fun a b => a.sequenceNumber ≤ b.sequenceNumber).map
    storedSnapshotFromRow

/-- `ORDER BY sequence_number DESC LIMIT 1` -/
def latestSnapshot (self : SnapshotStore) : Option StoredSnapshot :=
  (self.projectRows.insertionSort fun a b => b.sequenceNumber ≤ a.sequenceNumber).head?.map
    storedSnapshotFromRow

def latestSnapshotId (self : SnapshotStore) : Option String :=
  self.latestSnapshot.map (·.snapshotId)

/-- `WHERE project_id = ?1 AND snapshot_id = ?2` -/
def findSnapshot (self : SnapshotStore) (snapshotId : String) : Option StoredSnapshot :=
  (self.projectRows.find? fun row => row.snapshotId = snapshotId).map storedSnapshotFromRow

def snapshotHasChildren (self : SnapshotStore) (snapshotId : String) : Bool :=
  self.projectRows.any fun row => row.parentSnapshotId = some snapshotId

/-- The rows of `DELETE .. WHERE project_id = ?1 AND snapshot_id = ?2 AND pinned = 0`. -/
def deletes (self : SnapshotStore) (snapshotId : String) (row : SnapshotRow) : Bool :=
  row.projectId = self.projectId && row.snapshotId = snapshotId && !row.pinned

/-- Refused when a remaining row has a deleted row as its parent. -/
def deleteSnapshotRow? (self : SnapshotStore) (snapshotId : String) : Option SnapshotStore :=
  let snapshots := self.db.snapshots.deleteWhere (self.deletes snapshotId)
  if self.db.snapshots.rows.any (self.deletes snapshotId) &&
      snapshots.rows.any fun row => row.parentSnapshotId = some snapshotId then
    none
  else
    some { self with db := { self.db with snapshots } }

/-- `update-ref -d` -/
def deleteRef (self : SnapshotStore) (reference : String) : SnapshotStore :=
  { self with refs := self.refs.filter fun r => r ≠ reference }

end SnapshotStore

abbrev Pruning := Prog SnapshotStore DevRelayError

def getSnapshot (snapshotId : String) : Pruning StoredSnapshot := do
  let stored ← Prog.query fun store => store.findSnapshot snapshotId
  Prog.orFail stored (.config ("unknown snapshot " ++ snapshotId))

def deleteSnapshotRefs (metadata : SnapshotMetadata) : Pruning Unit := do
  Prog.write fun store => store.deleteRef metadata.indexRef
  Prog.write fun store => store.deleteRef metadata.workRef

def pinnedError (snapshotId : String) : DevRelayError :=
  .config ("refusing to prune pinned snapshot " ++ snapshotId)

def latestError (snapshotId : String) : DevRelayError :=
  .config ("refusing to prune latest snapshot " ++ snapshotId)

def childrenError (snapshotId : String) : DevRelayError :=
  .config ("refusing to prune snapshot " ++ snapshotId ++
    " while child snapshots still reference it")

/-- The references first, then the row. -/
def removeSnapshot (stored : StoredSnapshot) : Pruning String := do
  deleteSnapshotRefs stored.metadata
  let deleted ← Prog.query fun store =>
    store.db.snapshots.countWhere (store.deletes stored.snapshotId)
  Prog.attempt (fun store => store.deleteSnapshotRow? stored.snapshotId) constraintError
  Prog.ensure (deleted ≠ 0)
    (.config ("snapshot " ++ stored.snapshotId ++ " metadata was not pruned"))
  pure stored.snapshotId

/-- The body of the loop for a decision to delete; it returns the deleted id. -/
def pruneSnapshot (latestSnapshotId : Option String) (snapshotId : String) : Pruning String := do
  let stored ← getSnapshot snapshotId
  Prog.ensure (stored.pinned = false) (pinnedError stored.snapshotId)
  Prog.ensure (latestSnapshotId ≠ some stored.snapshotId) (latestError stored.snapshotId)
  let hasChildren ← Prog.query fun store => store.snapshotHasChildren stored.snapshotId
  Prog.ensure (hasChildren = false) (childrenError stored.snapshotId)
  removeSnapshot stored

def pruneDecisions (latestSnapshotId : Option String) :
    List PruningDecision → SnapshotPruneResult → Pruning SnapshotPruneResult
  | [], result => pure result
  | decision :: rest, result =>
    match decision.action with
    | .keep _ => pruneDecisions latestSnapshotId rest result
    | .delete _ => do
      let deleted ← pruneSnapshot latestSnapshotId decision.snapshotId
      pruneDecisions latestSnapshotId rest {
        deletedSnapshotIds := result.deletedSnapshotIds ++ [deleted]
        reclaimedEstimatedBytes :=
          saturatingAdd result.reclaimedEstimatedBytes decision.estimatedSizeBytes }

def pruneSnapshots (plan : PruningPlan) : Pruning SnapshotPruneResult := do
  let latestSnapshotId ← Prog.query fun store => store.latestSnapshotId
  pruneDecisions latestSnapshotId plan.decisions ⟨[], 0⟩

/-! ## One deletion -/

namespace SnapshotStore

variable {store : SnapshotStore} {latest : Option String} {id : String}

/-- Stored in the project, not pinned, not the latest, and nobody's parent. -/
structure Deletable (store : SnapshotStore) (latest : Option String) (id : String) :
    Prop where
  stored : ∃ row ∈ store.db.snapshots, row.snapshotId = id ∧
    row.projectId = store.projectId ∧ row.pinned = false
  notLatest : latest ≠ some id
  childless : ∀ row ∈ store.db.snapshots, row.parentSnapshotId ≠ some id

/-- What the guards ask for: they look at the children in the project only. -/
structure PassesGuards (store : SnapshotStore) (latest : Option String) (id : String) :
    Prop where
  stored : ∃ row ∈ store.db.snapshots, row.snapshotId = id ∧
    row.projectId = store.projectId ∧ row.pinned = false
  notLatest : latest ≠ some id
  childless : ∀ row ∈ store.db.snapshots, row.projectId = store.projectId →
    row.parentSnapshotId ≠ some id

/-- The store without one snapshot. -/
def without (store : SnapshotStore) (id : String) (metadata : SnapshotMetadata) : SnapshotStore :=
  { store with
    db := { store.db with
      snapshots := store.db.snapshots.deleteWhere fun row => row.snapshotId = id }
    refs := (store.refs.filter fun r => r ≠ metadata.indexRef).filter
      fun r => r ≠ metadata.workRef }

theorem findSnapshot_of_mem {row : SnapshotRow} (hrow : row ∈ store.db.snapshots)
    (hproject : row.projectId = store.projectId) :
    store.findSnapshot row.snapshotId = some (storedSnapshotFromRow row) := by
  have hmem : row ∈ store.projectRows :=
    List.mem_filter.mpr ⟨hrow, decide_eq_true hproject⟩
  unfold findSnapshot
  cases hfind : store.projectRows.find? fun r => r.snapshotId = row.snapshotId with
  | none => simpa using List.find?_eq_none.mp hfind row hmem
  | some found =>
    have hid := List.find?_some hfind
    rw [decide_eq_true_eq] at hid
    have hfound := (List.mem_filter.mp (List.mem_of_find?_eq_some hfind)).1
    rw [List.inj_on_of_nodup_map store.db.snapshots.nodup hfound hrow hid]
    rfl

theorem mem_of_findSnapshot {stored : StoredSnapshot} (h : store.findSnapshot id = some stored) :
    ∃ row ∈ store.db.snapshots, row.snapshotId = id ∧ row.projectId = store.projectId ∧
      stored = storedSnapshotFromRow row := by
  obtain ⟨row, hfind, rfl⟩ := Option.map_eq_some_iff.mp h
  obtain ⟨hmem, hproject⟩ := List.mem_filter.mp (List.mem_of_find?_eq_some hfind)
  have hid := List.find?_some hfind
  exact ⟨row, hmem, of_decide_eq_true hid, of_decide_eq_true hproject, rfl⟩

theorem snapshotHasChildren_iff :
    store.snapshotHasChildren id = true ↔
      ∃ row ∈ store.db.snapshots, row.projectId = store.projectId ∧
        row.parentSnapshotId = some id := by
  unfold snapshotHasChildren projectRows
  simp only [List.any_eq_true, List.mem_filter, decide_eq_true_eq, Table.mem_def]
  constructor
  · rintro ⟨row, ⟨hrow, hproject⟩, hparent⟩
    exact ⟨row, hrow, hproject, hparent⟩
  · rintro ⟨row, hrow, hproject, hparent⟩
    exact ⟨row, ⟨hrow, hproject⟩, hparent⟩

/-- The store without the references of a snapshot. -/
def withoutRefs (store : SnapshotStore) (metadata : SnapshotMetadata) : SnapshotStore :=
  (store.deleteRef metadata.indexRef).deleteRef metadata.workRef

theorem run_removeSnapshot (stored : StoredSnapshot) :
    (removeSnapshot stored).run store =
      match (store.withoutRefs stored.metadata).deleteSnapshotRow? stored.snapshotId with
      | none => (.error constraintError, store.withoutRefs stored.metadata)
      | some store' =>
        if store.db.snapshots.countWhere (store.deletes stored.snapshotId) ≠ 0 then
          (.ok stored.snapshotId, store')
        else
          (.error (.config ("snapshot " ++ stored.snapshotId ++
            " metadata was not pruned")), store') := by
  unfold removeSnapshot deleteSnapshotRefs
  rw [Prog.run_bind, Prog.run_write_bind]
  change (Prog.query _ >>= _).run (store.withoutRefs stored.metadata) = _
  rw [Prog.run_query_bind, Prog.run_bind, Prog.attempt, Prog.run_stmt]
  cases (store.withoutRefs stored.metadata).deleteSnapshotRow? stored.snapshotId with
  | none => rfl
  | some store' => exact Prog.run_ensure_bind _ _ _ _

/-- The guards in front of the removal. -/
theorem run_pruneSnapshot {stored : StoredSnapshot} (hfind : store.findSnapshot id = some stored) :
    (pruneSnapshot latest id).run store =
      if stored.pinned = false then
        if latest ≠ some stored.snapshotId then
          if store.snapshotHasChildren stored.snapshotId = false then
            (removeSnapshot stored).run store
          else (.error (childrenError stored.snapshotId), store)
        else (.error (latestError stored.snapshotId), store)
      else (.error (pinnedError stored.snapshotId), store) := by
  unfold pruneSnapshot getSnapshot
  rw [Prog.run_bind, Prog.run_query_bind, hfind]
  change (Prog.ensure _ _ >>= _).run store = _
  rw [Prog.run_ensure_bind, Prog.run_ensure_bind, Prog.run_query_bind, Prog.run_ensure_bind]

/-- Within the project the key selects one unpinned row. -/
theorem deletes_eq {row : SnapshotRow} (hrow : row ∈ store.db.snapshots)
    (hproject : row.projectId = store.projectId) (hpinned : row.pinned = false) :
    ∀ r ∈ store.db.snapshots,
      store.deletes row.snapshotId r = decide (r.snapshotId = row.snapshotId) := by
  intro r hr
  by_cases hid : r.snapshotId = row.snapshotId
  · have hsame := List.inj_on_of_nodup_map store.db.snapshots.nodup hr hrow hid
    rw [hsame]
    simp [deletes, hproject, hpinned]
  · simp [deletes, hid]

theorem deleteSnapshotRow?_of_deletable {row : SnapshotRow} (metadata : SnapshotMetadata)
    (hrow : row ∈ store.db.snapshots) (hproject : row.projectId = store.projectId)
    (hpinned : row.pinned = false)
    (hchildless : ∀ r ∈ store.db.snapshots, r.parentSnapshotId ≠ some row.snapshotId) :
    (store.withoutRefs metadata).deleteSnapshotRow? row.snapshotId =
      some (store.without row.snapshotId metadata) := by
  have hrows : store.db.snapshots.deleteWhere (store.deletes row.snapshotId) =
      store.db.snapshots.deleteWhere fun r => r.snapshotId = row.snapshotId := by
    apply Table.ext
    apply List.filter_congr
    intro r hr
    rw [deletes_eq hrow hproject hpinned r hr]
  have hfree : ((store.db.snapshots.deleteWhere (store.deletes row.snapshotId)).rows.any
      fun r => r.parentSnapshotId = some row.snapshotId) = false := by
    rw [List.any_eq_false]
    intro child hchild
    rw [decide_eq_true_eq]
    exact hchildless child (Table.mem_deleteWhere.mp hchild).1
  change (if _ && (store.db.snapshots.deleteWhere (store.deletes row.snapshotId)).rows.any _
    then none else some { store.withoutRefs metadata with db := { store.db with
      snapshots := store.db.snapshots.deleteWhere (store.deletes row.snapshotId) } }) = _
  rw [hfree, Bool.and_false, hrows]
  rfl

/-- The foreign key refuses while another project has a child. -/
theorem deleteSnapshotRow?_of_foreign_child {row : SnapshotRow}
    (metadata : SnapshotMetadata) (hrow : row ∈ store.db.snapshots)
    (hproject : row.projectId = store.projectId) (hpinned : row.pinned = false)
    (hchild : ∃ child ∈ store.db.snapshots, child.projectId ≠ store.projectId ∧
      child.parentSnapshotId = some row.snapshotId) :
    (store.withoutRefs metadata).deleteSnapshotRow? row.snapshotId = none := by
  obtain ⟨child, hchild, hforeign, hparent⟩ := hchild
  have hdeleted : store.db.snapshots.rows.any (store.deletes row.snapshotId) = true := by
    rw [List.any_eq_true]
    refine ⟨row, hrow, ?_⟩
    rw [deletes_eq hrow hproject hpinned row hrow]
    exact decide_eq_true rfl
  have hleft : ((store.db.snapshots.deleteWhere (store.deletes row.snapshotId)).rows.any
      fun r => r.parentSnapshotId = some row.snapshotId) = true := by
    rw [List.any_eq_true]
    refine ⟨child, Table.mem_deleteWhere.mpr ⟨hchild, ?_⟩, decide_eq_true hparent⟩
    simp [deletes, hforeign]
  change (if store.db.snapshots.rows.any (store.deletes row.snapshotId) &&
    (store.db.snapshots.deleteWhere (store.deletes row.snapshotId)).rows.any _
    then none else some _) = _
  rw [hdeleted, hleft]
  rfl

/-- A deletable snapshot is deleted, with its references. -/
theorem run_pruneSnapshot_of_deletable (h : store.Deletable latest id) :
    ∃ metadata, (pruneSnapshot latest id).run store = (.ok id, store.without id metadata) := by
  obtain ⟨⟨row, hrow, rfl, hproject, hpinned⟩, hlatest, hchildless⟩ := h
  refine ⟨row.metadata, ?_⟩
  have hchildren : store.snapshotHasChildren row.snapshotId = false := by
    rw [← Bool.not_eq_true, snapshotHasChildren_iff]
    rintro ⟨child, hchild, -, hparent⟩
    exact hchildless child hchild hparent
  have hcount : store.db.snapshots.countWhere (store.deletes row.snapshotId) ≠ 0 := by
    unfold Table.countWhere
    rw [Nat.ne_zero_iff_zero_lt, List.countP_pos_iff]
    refine ⟨row, hrow, ?_⟩
    rw [deletes_eq hrow hproject hpinned row hrow]
    exact decide_eq_true rfl
  have hpinned' : (storedSnapshotFromRow row).pinned = false := hpinned
  have hlatest' : latest ≠ some (storedSnapshotFromRow row).snapshotId := hlatest
  have hchildren' : store.snapshotHasChildren (storedSnapshotFromRow row).snapshotId =
      false := hchildren
  have hdelete : (store.withoutRefs (storedSnapshotFromRow row).metadata).deleteSnapshotRow?
      (storedSnapshotFromRow row).snapshotId = some (store.without row.snapshotId row.metadata) :=
    deleteSnapshotRow?_of_deletable row.metadata hrow hproject hpinned hchildless
  rw [run_pruneSnapshot (findSnapshot_of_mem hrow hproject), if_pos hpinned',
    if_pos hlatest', if_pos hchildren', run_removeSnapshot, hdelete]
  exact if_pos hcount

/-- A deletion that a guard refuses leaves the store alone, and one that the foreign key refuses
has removed the references. -/
theorem run_pruneSnapshot_of_not_deletable (h : ¬store.Deletable latest id) :
    ∃ e store', (pruneSnapshot latest id).run store = (.error e, store') ∧
      (¬store.PassesGuards latest id ∧ store' = store ∨
        ∃ row ∈ store.db.snapshots, row.snapshotId = id ∧ store.PassesGuards latest id ∧
          store' = store.withoutRefs row.metadata) := by
  cases hfind : store.findSnapshot id with
  | none =>
    refine ⟨.config ("unknown snapshot " ++ id), store, ?_, Or.inl ⟨?_, rfl⟩⟩
    · unfold pruneSnapshot getSnapshot
      rw [Prog.run_bind, Prog.run_query_bind, hfind]
      rfl
    · rintro ⟨⟨row, hrow, rfl, hproject, -⟩, -, -⟩
      rw [findSnapshot_of_mem hrow hproject] at hfind
      cases hfind
  | some stored =>
    obtain ⟨row, hrow, rfl, hproject, rfl⟩ := mem_of_findSnapshot hfind
    rw [run_pruneSnapshot hfind]
    split
    · rename_i hpinned
      split
      · rename_i hlatest
        split
        · rename_i hchildren
          have hguards : store.PassesGuards latest row.snapshotId := by
            refine ⟨⟨row, hrow, rfl, hproject, hpinned⟩, hlatest, ?_⟩
            intro child hchild hsame hparent
            rw [Bool.eq_false_iff] at hchildren
            exact hchildren (snapshotHasChildren_iff.mpr ⟨child, hchild, hsame, hparent⟩)
          refine ⟨constraintError, store.withoutRefs row.metadata, ?_,
            Or.inr ⟨row, hrow, rfl, hguards, rfl⟩⟩
          -- only a child in another project is left
          have hforeign : ∃ child ∈ store.db.snapshots,
              child.projectId ≠ store.projectId ∧ child.parentSnapshotId = some row.snapshotId := by
            by_contra hnone
            refine h ⟨⟨row, hrow, rfl, hproject, hpinned⟩, hlatest, ?_⟩
            intro child hchild hparent
            exact hnone ⟨child, hchild, fun hsame =>
              hguards.childless child hchild hsame hparent, hparent⟩
          have hdelete : (store.withoutRefs
              (storedSnapshotFromRow row).metadata).deleteSnapshotRow?
                (storedSnapshotFromRow row).snapshotId = none :=
            deleteSnapshotRow?_of_foreign_child row.metadata hrow hproject hpinned hforeign
          rw [run_removeSnapshot, hdelete]
          rfl
        · rename_i hchildren
          refine ⟨_, store, rfl, Or.inl ⟨fun hguards => hchildren ?_, rfl⟩⟩
          rw [Bool.eq_false_iff, ne_eq, snapshotHasChildren_iff]
          rintro ⟨child, hchild, hsame, hparent⟩
          exact hguards.childless child hchild hsame hparent
      · rename_i hlatest
        exact ⟨_, store, rfl, Or.inl ⟨fun hguards => hlatest hguards.notLatest, rfl⟩⟩
    · rename_i hpinned
      refine ⟨_, store, rfl, Or.inl ⟨fun hguards => hpinned ?_, rfl⟩⟩
      obtain ⟨other, hother, hid, -, hunpinned⟩ := hguards.stored
      rw [List.inj_on_of_nodup_map store.db.snapshots.nodup hother hrow hid] at hunpinned
      exact hunpinned

end SnapshotStore

end DevRelay.Retention
