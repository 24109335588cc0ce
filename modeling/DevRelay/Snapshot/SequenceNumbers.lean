import DevRelay.Snapshot.Store
import DevRelay.Storage.Effects

/-!
# Sequence numbers over the history of a store

The next number is one more than the largest one in the table, so it is fresh
over the whole history only if it never falls: an insertion raises it, and a
pruning leaves the latest snapshot, which carries the largest number.  What one
operation does to the snapshots is `SnapshotEffect`.
-/

namespace DevRelay.Snapshot

open DevRelay.Lib DevRelay.Core DevRelay.Storage DevRelay.Retention

/-! ## The next number -/

variable {db db' : MetadataDb} {p : String}

theorem lt_nextSequenceNumber {row : SnapshotRow} (h : row ∈ db.snapshots)
    (hproject : row.projectId = p) : row.sequenceNumber < db.nextSequenceNumber p := by
  have hmem : row.sequenceNumber ∈ (db.snapshots.rows.filter fun r =>
      r.projectId = p).map SnapshotRow.sequenceNumber :=
    List.mem_map_of_mem (List.mem_filter.mpr ⟨h, decide_eq_true hproject⟩)
  unfold MetadataDb.nextSequenceNumber
  dsimp only
  obtain ⟨m, hmax⟩ := Option.isSome_iff_exists.mp
    (List.isSome_max?_of_mem hmem)
  have hle := (List.max?_eq_some_iff.mp hmax).2 _ hmem
  rw [hmax, Option.getD_some]
  omega

theorem nextSequenceNumber_le {k : Int} (hempty : (∀ row ∈ db.snapshots, row.projectId ≠ p) → 1 ≤ k)
    (h : ∀ row ∈ db.snapshots, row.projectId = p → row.sequenceNumber < k) :
    db.nextSequenceNumber p ≤ k := by
  unfold MetadataDb.nextSequenceNumber
  dsimp only
  cases hmax : ((db.snapshots.rows.filter fun r => r.projectId = p).map
      SnapshotRow.sequenceNumber).max? with
  | none =>
    rw [List.max?_eq_none_iff, List.map_eq_nil_iff, List.filter_eq_nil_iff] at hmax
    rw [Option.getD_none]
    apply hempty
    intro row hrow hproject
    exact hmax row hrow (decide_eq_true hproject)
  | some m =>
    obtain ⟨row, hrow, rfl⟩ := List.mem_map.mp (List.max?_eq_some_iff.mp hmax).1
    obtain ⟨hmem, hproject⟩ := List.mem_filter.mp hrow
    have hlt := h row hmem (of_decide_eq_true hproject)
    rw [Option.getD_some]
    omega

theorem nextSequenceNumber_of_empty (h : ∀ row ∈ db.snapshots, row.projectId ≠ p) :
    db.nextSequenceNumber p = 1 := by
  have hnil : (db.snapshots.rows.filter fun r => r.projectId = p) = [] := by
    rw [List.filter_eq_nil_iff]
    intro row hrow
    rw [decide_eq_true_eq]
    exact h row hrow
  unfold MetadataDb.nextSequenceNumber
  rw [hnil]
  rfl

/-- The next number does not fall when every row of the project has one at least
as large left. -/
theorem nextSequenceNumber_mono
    (hsubset : ∀ row ∈ db'.snapshots, row.projectId = p →
      ∃ old ∈ db.snapshots, old.projectId = p)
    (hkept : ∀ row ∈ db.snapshots, row.projectId = p →
      ∃ left ∈ db'.snapshots, left.projectId = p ∧
        row.sequenceNumber ≤ left.sequenceNumber) :
    db.nextSequenceNumber p ≤ db'.nextSequenceNumber p := by
  apply nextSequenceNumber_le
  · intro hempty
    have hempty' : ∀ row ∈ db'.snapshots, row.projectId ≠ p := by
      intro row hrow hproject
      obtain ⟨old, hold, hproject'⟩ := hsubset row hrow hproject
      exact hempty old hold hproject'
    rw [nextSequenceNumber_of_empty hempty']
  · intro row hrow hproject
    obtain ⟨left, hleft, hproject', hle⟩ := hkept row hrow hproject
    have hlt := lt_nextSequenceNumber hleft hproject'
    omega

/-! ## What an operation does to the snapshots -/

/-- Nothing, one insertion under the next number, or a pruning that leaves a row
with the largest number of each project. -/
inductive SnapshotEffect (db db' : MetadataDb) : Prop where
  | same (h : db'.snapshots = db.snapshots)
  | inserted (row : SnapshotRow) (h : db.snapshots.insert? row = some db'.snapshots)
      (hnumber : row.sequenceNumber = db.nextSequenceNumber row.projectId)
  | pruned (hsubset : ∀ row ∈ db'.snapshots, row ∈ db.snapshots)
      (hkept : ∀ row ∈ db.snapshots, ∃ left ∈ db'.snapshots,
        left.projectId = row.projectId ∧ row.sequenceNumber ≤ left.sequenceNumber)

namespace SnapshotEffect

theorem next_le (h : SnapshotEffect db db') (p : String) :
    db.nextSequenceNumber p ≤ db'.nextSequenceNumber p := by
  cases h with
  | same h =>
    unfold MetadataDb.nextSequenceNumber
    rw [h]
  | inserted row h hnumber =>
    have hmem := fun x => Table.mem_insert? (x := x) h
    by_cases hproject : row.projectId = p
    · have hlt := lt_nextSequenceNumber ((hmem row).mpr (Or.inr rfl)) hproject
      rw [hnumber, hproject] at hlt
      omega
    · apply nextSequenceNumber_mono
      · intro new hnew hnewProject
        rcases (hmem new).mp hnew with hold | rfl
        · exact ⟨new, hold, hnewProject⟩
        · exact absurd hnewProject hproject
      · intro old hold holdProject
        exact ⟨old, (hmem old).mpr (Or.inl hold), holdProject, le_refl _⟩
  | pruned hsubset hkept =>
    apply nextSequenceNumber_mono
    · intro row hrow hproject
      exact ⟨row, hsubset row hrow, hproject⟩
    · intro row hrow hproject
      obtain ⟨left, hleft, hproject', hle⟩ := hkept row hrow
      exact ⟨left, hleft, hproject'.trans hproject, hle⟩

theorem number_of_new (h : SnapshotEffect db db') {row : SnapshotRow}
    (hnew : row ∈ db'.snapshots) (hold : row ∉ db.snapshots) :
    row.sequenceNumber = db.nextSequenceNumber row.projectId := by
  cases h with
  | same h =>
    rw [h] at hnew
    exact absurd hnew hold
  | inserted inserted h hnumber =>
    rcases (Table.mem_insert? h).mp hnew with hmem | rfl
    · exact absurd hmem hold
    · exact hnumber
  | pruned hsubset hkept => exact absurd (hsubset row hnew) hold

end SnapshotEffect

/-! ## Pruning -/

/-- `t` is `store` after some deletions that spare the latest snapshot. -/
structure PrunedFrom (store : SnapshotStore) (latest : Option String) (t : SnapshotStore) :
    Prop where
  project : t.projectId = store.projectId
  subset : ∀ row ∈ t.db.snapshots, row ∈ store.db.snapshots
  spared : ∀ row ∈ store.db.snapshots,
    row.projectId ≠ store.projectId ∨ latest = some row.snapshotId → row ∈ t.db.snapshots

variable {store t : SnapshotStore} {latest : Option String}

theorem prunedFrom_refl (store : SnapshotStore) (latest : Option String) :
    PrunedFrom store latest store :=
  ⟨rfl, fun _ h => h, fun _ h _ => h⟩

theorem PrunedFrom.delete {u : SnapshotStore} {id : String} (h : PrunedFrom store latest t)
    (hlatest : latest ≠ some id) (hdelete : t.deleteSnapshotRow? id = some u) :
    PrunedFrom store latest u := by
  unfold SnapshotStore.deleteSnapshotRow? at hdelete
  dsimp only at hdelete
  split at hdelete
  · cases hdelete
  · cases hdelete
    refine ⟨h.project, fun row hrow => ?_, fun row hrow hspared => ?_⟩
    · exact h.subset row (Table.mem_deleteWhere.mp hrow).1
    · refine Table.mem_deleteWhere.mpr ⟨h.spared row hrow hspared, ?_⟩
      unfold SnapshotStore.deletes
      rw [h.project]
      rcases hspared with hproject | hid
      · simp [hproject]
      · have hne : row.snapshotId ≠ id := by
          rintro rfl
          exact hlatest hid
        simp [hne]

theorem pruneSnapshot_ensures {id : String} (h : PrunedFrom store latest t) :
    (pruneSnapshot latest id).Ensures (PrunedFrom store latest) (fun _ _ => True) t := by
  unfold pruneSnapshot getSnapshot
  apply Prog.ensures_bind (R := fun _ u => u = t) h
  · apply Prog.ensures_query_bind h
    unfold Prog.orFail
    split
    · rfl
    · trivial
  · rintro stored u - rfl
    apply Prog.ensures_ensure_bind
    intro _
    apply Prog.ensures_ensure_bind
    intro hlatest
    apply Prog.ensures_query_bind h
    apply Prog.ensures_ensure_bind
    intro _
    have hrefs : PrunedFrom store latest (u.withoutRefs stored.metadata) :=
      ⟨h.project, h.subset, h.spared⟩
    unfold removeSnapshot deleteSnapshotRefs
    apply Prog.ensures_bind (R := fun _ v => v = u.withoutRefs stored.metadata) h
    · exact ⟨⟨h.project, h.subset, h.spared⟩, hrefs, rfl⟩
    · rintro _ v - rfl
      apply Prog.ensures_query_bind hrefs
      apply Prog.ensures_attempt_bind hrefs
      intro v hdelete
      refine ⟨hrefs.delete hlatest hdelete, ?_⟩
      apply Prog.ensures_ensure_bind
      intro _
      exact Prog.ensures_pure trivial

theorem pruneDecisions_ensures (decisions : List PruningDecision)
    (result : SnapshotPruneResult) (h : PrunedFrom store latest t) :
    (pruneDecisions latest decisions result).Ensures (PrunedFrom store latest)
      (fun _ _ => True) t := by
  induction decisions generalizing t result with
  | nil => exact Prog.ensures_pure trivial
  | cons decision rest ih =>
    unfold pruneDecisions
    split
    · exact ih result h
    · apply Prog.ensures_bind h (pruneSnapshot_ensures h)
      intro _ u hu _
      exact ih _ hu

/-- The latest snapshot carries the largest number of its project. -/
theorem exists_latest {row : SnapshotRow} (h : row ∈ store.db.snapshots)
    (hproject : row.projectId = store.projectId) :
    ∃ left ∈ store.db.snapshots, left.projectId = store.projectId ∧
      store.latestSnapshotId = some left.snapshotId ∧ row.sequenceNumber ≤ left.sequenceNumber := by
  have hmem : row ∈ store.projectRows :=
    List.mem_filter.mpr ⟨h, decide_eq_true hproject⟩
  have hpairwise := List.pairwise_insertionSort
    (fun a b : SnapshotRow => b.sequenceNumber ≤ a.sequenceNumber) store.projectRows
  rw [← List.mem_insertionSort
    (fun a b : SnapshotRow => b.sequenceNumber ≤ a.sequenceNumber)] at hmem
  have hid : ∀ left ∈ (store.projectRows.insertionSort fun a b =>
      b.sequenceNumber ≤ a.sequenceNumber), left ∈ store.projectRows :=
    fun left => (List.mem_insertionSort _).mp
  unfold SnapshotStore.latestSnapshotId SnapshotStore.latestSnapshot
  cases hsorted : store.projectRows.insertionSort fun a b =>
      b.sequenceNumber ≤ a.sequenceNumber with
  | nil =>
    rw [hsorted] at hmem
    cases hmem
  | cons left rest =>
    rw [hsorted] at hmem hpairwise hid
    obtain ⟨hleft, hleftProject⟩ := List.mem_filter.mp (hid left List.mem_cons_self)
    refine ⟨left, hleft, of_decide_eq_true hleftProject, rfl, ?_⟩
    rcases List.mem_cons.mp hmem with rfl | hrest
    · exact le_refl _
    · exact (List.pairwise_cons.mp hpairwise).1 row hrest

theorem prunedFrom_pruneSnapshots (fault : Fault DevRelayError) (plan : PruningPlan)
    (store : SnapshotStore) :
    PrunedFrom store store.latestSnapshotId ((pruneSnapshots plan).exec fault 0 store).2 := by
  have hself := prunedFrom_refl store store.latestSnapshotId
  refine Prog.exec_ensures (Q := fun _ _ => True) fault 0 _ store hself ?_
  unfold pruneSnapshots
  apply Prog.ensures_query_bind hself
  exact pruneDecisions_ensures plan.decisions ⟨[], 0⟩ hself

theorem prune_effect (fault : Fault DevRelayError) (plan : PruningPlan) (store : SnapshotStore) :
    ((pruneSnapshots plan).exec fault 0 store).2.projectId = store.projectId ∧
      SnapshotEffect store.db ((pruneSnapshots plan).exec fault 0 store).2.db := by
  have hpruned := prunedFrom_pruneSnapshots fault plan store
  refine ⟨hpruned.project, .pruned hpruned.subset fun row hrow => ?_⟩
  by_cases hproject : row.projectId = store.projectId
  · obtain ⟨left, hleft, hleftProject, hlatest, hle⟩ := exists_latest hrow hproject
    exact ⟨left, hpruned.spared left hleft (Or.inr hlatest), hleftProject.trans hproject.symm, hle⟩
  · exact ⟨row, hpruned.spared row hrow (Or.inl hproject), rfl, le_refl _⟩

/-! ## Publishing -/

theorem snapshotEffect_of_effect {call : Call} {reply : Except DevRelayError Unit}
    (h : Effect db call reply db') : SnapshotEffect db db' := by
  cases h with
  | quiet _ _ hsnapshots => exact .same hsnapshots
  | begun _ _ _ _ _ _ _ _ _ _ _ hsnapshots => exact .same hsnapshots
  | marked _ _ _ _ _ hsnapshots => exact .same hsnapshots
  | aborted _ _ _ _ _ hsnapshots => exact .same hsnapshots
  | committed _ _ _ _ _ _ _ _ _ _ _ hsnapshots => exact .same hsnapshots
  | stored request _ _ _ _ _ _ hinsert => exact .inserted _ hinsert rfl
  | advanced request _ _ _ _ _ hinsert => exact .inserted _ hinsert rfl
  | forked request _ _ _ _ _ hinsert => exact .inserted _ hinsert rfl

theorem upsertLease_snapshots (env : Env) (lease : LeaseRecord) (db : MetadataDb) :
    (upsertLease env lease db).2.snapshots = db.snapshots := by
  have hrow : ∀ t, upsertLeaseRow? (leaseRowOf lease) db = some t → t.snapshots = db.snapshots := by
    intro t ht
    unfold upsertLeaseRow? at ht
    split at ht
    · split at ht
      · cases ht
        rfl
      · cases ht
        rfl
    · cases ht
  unfold upsertLease
  refine Prog.exec_ensures (I := fun t => t.snapshots = db.snapshots)
    (Q := fun _ _ => True) env.fault 0 _ db rfl ?_
  cases hupsert : upsertLeaseRow? (leaseRowOf lease) db with
  | none => simp [Prog.attempt, Prog.Ensures, hupsert]
  | some t => simp [Prog.attempt, Prog.Ensures, hupsert, hrow t hupsert]

theorem leaseStep_effect (db : MetadataDb) (call : LeaseCall) :
    SnapshotEffect db (leaseStep db call) := by
  cases call with
  | upsertLease env lease => exact .same (upsertLease_snapshots env lease db)
  | call call => exact snapshotEffect_of_effect (perform_effect db call)

/-! ## Checkpoints -/

/-- The database is the one the checkpoint began with, or the row was inserted. -/
structure Checkpointed (store t : SnapshotStore) : Prop where
  project : t.projectId = store.projectId
  effect : SnapshotEffect store.db t.db

theorem checkpointed_of_db (hproject : t.projectId = store.projectId)
    (hdb : t.db = store.db) : Checkpointed store t :=
  ⟨hproject, .same (by rw [hdb])⟩

theorem checkpointed_of_insert {env : CheckpointEnv} {metadata : SnapshotMetadata}
    {pinned : Bool} {label : Option String} {stored : StoredSnapshot} {refs : List String}
    (h : insertSnapshot env metadata pinned label { store with refs } = .ok (stored, t)) :
    Checkpointed store t := by
  obtain ⟨hproject, -, hinsert, -⟩ := insertSnapshot_eq_ok h
  exact ⟨hproject, .inserted _ hinsert rfl⟩

theorem checkpoint_ensures (env : CheckpointEnv)
    (created : Except DevRelayError SnapshotMetadata) (pinned : Bool)
    (label : Option String) (store : SnapshotStore) :
    (checkpoint env created pinned label).Ensures (Checkpointed store)
      (fun _ _ => True) store := by
  have hself : Checkpointed store store := checkpointed_of_db rfl rfl
  apply checkpoint_ensures_of hself
  · intro metadata
    exact checkpointed_of_db rfl rfl
  · intro metadata _ parent stored u h
    exact checkpointed_of_insert h

theorem checkpointIfChanged_ensures (env : CheckpointEnv)
    (created : Except DevRelayError SnapshotMetadata) (pinned : Bool)
    (label : Option String) (store : SnapshotStore) :
    (checkpointIfChanged env created pinned label).Ensures (Checkpointed store)
      (fun _ _ => True) store := by
  have hself : Checkpointed store store := checkpointed_of_db rfl rfl
  apply checkpointIfChanged_ensures_of hself
  · intro metadata
    exact checkpointed_of_db rfl rfl
  · intro metadata _ parent stored u h
    exact checkpointed_of_insert h

/-! ## Runs -/

/-- What is done to the store of a project. -/
inductive StoreOp where
  | checkpoint (env : CheckpointEnv) (created : Except DevRelayError SnapshotMetadata)
      (pinned : Bool) (label : Option String)
  | checkpointIfChanged (env : CheckpointEnv)
      (created : Except DevRelayError SnapshotMetadata) (pinned : Bool)
      (label : Option String)
  | prune (fault : Fault DevRelayError) (plan : PruningPlan)
  /-- publishes, forks, handoffs and leases -/
  | call (call : LeaseCall)

def storeStep (store : SnapshotStore) : StoreOp → SnapshotStore
  | .checkpoint env created pinned label =>
    ((checkpoint env created pinned label).exec env.fault 0 store).2
  | .checkpointIfChanged env created pinned label =>
    ((checkpointIfChanged env created pinned label).exec env.fault 0 store).2
  | .prune fault plan => ((pruneSnapshots plan).exec fault 0 store).2
  | .call call => { store with db := leaseStep store.db call }

theorem storeStep_effect (store : SnapshotStore) (op : StoreOp) :
    SnapshotEffect store.db (storeStep store op).db := by
  have hself : Checkpointed store store := checkpointed_of_db rfl rfl
  cases op with
  | checkpoint env created pinned label =>
    exact (Prog.exec_ensures env.fault 0 _ store hself
      (checkpoint_ensures env created pinned label store)).effect
  | checkpointIfChanged env created pinned label =>
    exact (Prog.exec_ensures env.fault 0 _ store hself
      (checkpointIfChanged_ensures env created pinned label store)).effect
  | prune fault plan => exact (prune_effect fault plan store).2
  | call call => exact leaseStep_effect store.db call

/-- The snapshots of the store after the first `n` operations. -/
abbrev snapshotsAt (store : SnapshotStore) (ops : List StoreOp) (n : Nat) :
    Table SnapshotRow.snapshotId := (stateAt storeStep store ops n).db.snapshots

/-- The next number does not fall along a run. -/
theorem nextSequenceNumber_run (store : SnapshotStore) (ops : List StoreOp) (p : String)
    {m n : Nat} (hmn : m ≤ n) :
    (stateAt storeStep store ops m).db.nextSequenceNumber p ≤
      (stateAt storeStep store ops n).db.nextSequenceNumber p := by
  apply stateAt_stable (P := fun t : SnapshotStore =>
    (stateAt storeStep store ops m).db.nextSequenceNumber p ≤ t.db.nextSequenceNumber p)
    _ hmn (le_refl _)
  intro t op h
  have hstep := (storeStep_effect t op).next_le p
  omega

/-- A snapshot that an operation stores gets a number above those of all snapshots of
its project that were in the store at any time before, pruned or not. -/
def NumbersIncrease (store : SnapshotStore) (ops : List StoreOp) : Prop :=
  ∀ n, ∀ row ∈ snapshotsAt store ops (n + 1), row ∉ snapshotsAt store ops n →
    ∀ m ≤ n, ∀ old ∈ snapshotsAt store ops m, old.projectId = row.projectId →
      old.sequenceNumber < row.sequenceNumber

theorem sequence_numbers_increase (store : SnapshotStore) (ops : List StoreOp) :
    NumbersIncrease store ops := by
  intro n row hnew hold m hmn old hmem hproject
  by_cases hn : n < ops.length
  · rw [snapshotsAt, stateAt_succ hn] at hnew
    have hnumber := (storeStep_effect _ _).number_of_new hnew hold
    have hlt := lt_nextSequenceNumber hmem hproject
    have hle := nextSequenceNumber_run store ops row.projectId hmn
    omega
  · rw [snapshotsAt, stateAt_of_length_le (by omega)] at hold hnew
    exact absurd hnew hold

end DevRelay.Snapshot
