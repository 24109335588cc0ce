import DevRelay.Retention.PlanSpec
import DevRelay.Retention.Prune

/-!
# When a plan can be carried out

The executor deletes in the order of the list and refuses a snapshot that still
has a child, while the planner lists parents in front of their children.  A plan
goes through when every deletion finds its children gone; a refused deletion
stops the run where it is, and what was deleted before it stays deleted.
-/

namespace DevRelay.Retention

open DevRelay.Lib DevRelay.Core DevRelay.Storage

namespace SnapshotStore

variable {store store' : SnapshotStore} {latest : Option String} {id : String}
  {pre ids : List String}

/-- `id` can be deleted once the snapshots `pre` are gone. -/
structure DeletableAfter (store : SnapshotStore) (latest : Option String)
    (pre : List String) (id : String) : Prop where
  stored : ∃ row ∈ store.db.snapshots, row.snapshotId = id ∧
    row.projectId = store.projectId ∧ row.pinned = false
  fresh : id ∉ pre
  notLatest : latest ≠ some id
  childless : ∀ row ∈ store.db.snapshots, row.parentSnapshotId = some id →
    row.snapshotId ∈ pre

/-- `ids` can be deleted one after the other once `pre` is gone. -/
def Prunable (store : SnapshotStore) (latest : Option String) :
    List String → List String → Prop
  | _, [] => True
  | pre, id :: ids =>
    store.DeletableAfter latest pre id ∧ Prunable store latest (pre ++ [id]) ids

/-- Every id of the list can be deleted after the ones in front of it. -/
def Executable (store : SnapshotStore) (ids : List String) : Prop :=
  ∀ pre id post, ids = pre ++ id :: post →
    store.DeletableAfter store.latestSnapshotId pre id

/-- `store'` is what is left of `store` without `pre`. -/
structure LeftOf (store : SnapshotStore) (pre : List String) (store' : SnapshotStore) :
    Prop where
  project : store'.projectId = store.projectId
  rows : store'.db.snapshots.rows =
    store.db.snapshots.rows.filter fun row => row.snapshotId ∉ pre

theorem leftOf_refl (store : SnapshotStore) : store.LeftOf [] store :=
  ⟨rfl, by simp⟩

theorem LeftOf.mem (h : store.LeftOf pre store') {row : SnapshotRow} :
    row ∈ store'.db.snapshots ↔ row ∈ store.db.snapshots ∧ row.snapshotId ∉ pre := by
  rw [Table.mem_def, h.rows, List.mem_filter, decide_eq_true_eq, Table.mem_def]

theorem LeftOf.without (h : store.LeftOf pre store') (metadata : SnapshotMetadata) :
    store.LeftOf (pre ++ [id]) (store'.without id metadata) := by
  refine ⟨h.project, ?_⟩
  change store'.db.snapshots.rows.filter (fun row => !decide (row.snapshotId = id)) = _
  rw [h.rows, List.filter_filter]
  apply List.filter_congr
  intro row _
  simp only [List.mem_append, List.mem_singleton, not_or]
  rw [Bool.and_comm, Bool.decide_and, decide_not, decide_not]

theorem deletable_iff_deletableAfter (h : store.LeftOf pre store') :
    store'.Deletable latest id ↔ store.DeletableAfter latest pre id := by
  constructor
  · rintro ⟨⟨row, hrow, rfl, hproject, hpinned⟩, hlatest, hchildless⟩
    obtain ⟨hmem, hfresh⟩ := h.mem.mp hrow
    refine ⟨⟨row, hmem, rfl, hproject.trans h.project, hpinned⟩, hfresh, hlatest, ?_⟩
    intro child hchild hparent
    by_contra hopen
    exact hchildless child (h.mem.mpr ⟨hchild, hopen⟩) hparent
  · rintro ⟨⟨row, hrow, rfl, hproject, hpinned⟩, hfresh, hlatest, hchildless⟩
    refine ⟨⟨row, h.mem.mpr ⟨hrow, hfresh⟩, rfl, hproject.trans h.project.symm, hpinned⟩,
      hlatest, ?_⟩
    intro child hchild hparent
    obtain ⟨hmem, hopen⟩ := h.mem.mp hchild
    exact hopen (hchildless child hmem hparent)

theorem prunable_iff :
    store.Prunable latest pre ids ↔ ∀ mid id post, ids = mid ++ id :: post →
      store.DeletableAfter latest (pre ++ mid) id := by
  induction ids generalizing pre with
  | nil => simp [Prunable]
  | cons head ids ih =>
    rw [Prunable, ih]
    constructor
    · rintro ⟨hhead, hrest⟩ mid id post heq
      cases mid with
      | nil =>
        obtain ⟨rfl, -⟩ := List.cons.inj heq
        rwa [List.append_nil]
      | cons x mid =>
        obtain ⟨rfl, htail⟩ := List.cons.inj heq
        have hafter := hrest mid id post htail
        rwa [List.append_assoc, List.singleton_append] at hafter
    · intro h
      refine ⟨?_, fun mid id post heq => ?_⟩
      · have hhead := h [] head ids rfl
        rwa [List.append_nil] at hhead
      · have hafter := h (head :: mid) id post (congrArg (head :: ·) heq)
        rwa [List.append_assoc, List.singleton_append]

theorem executable_iff_prunable :
    store.Executable ids ↔ store.Prunable store.latestSnapshotId [] ids := by
  rw [prunable_iff]
  rfl

end SnapshotStore

open SnapshotStore

/-- The ids of the decisions to delete. -/
def deleteIds (decisions : List PruningDecision) : List String :=
  decisions.filterMap fun decision =>
    match decision.action with
    | .delete _ => some decision.snapshotId
    | .keep _ => none

theorem deleteIds_keep {decision : PruningDecision} {reasons : List RetentionKeepReason}
    (haction : decision.action = .keep reasons) (rest : List PruningDecision) :
    deleteIds (decision :: rest) = deleteIds rest := by
  simp [deleteIds, haction]

theorem deleteIds_delete {decision : PruningDecision} {reason : PruningReason}
    (haction : decision.action = .delete reason) (rest : List PruningDecision) :
    deleteIds (decision :: rest) = decision.snapshotId :: deleteIds rest := by
  simp [deleteIds, haction]

variable {store store' : SnapshotStore} {latest : Option String} {id : String}
  {pre ids : List String}

theorem run_pruneDecisions_ok {decisions : List PruningDecision}
    {result : SnapshotPruneResult} (hleft : store.LeftOf pre store')
    (h : store.Prunable latest pre (deleteIds decisions)) :
    ∃ result' left, (pruneDecisions latest decisions result).run store' =
        (.ok result', left) ∧
      store.LeftOf (pre ++ deleteIds decisions) left ∧
      result'.deletedSnapshotIds = result.deletedSnapshotIds ++ deleteIds decisions := by
  induction decisions generalizing pre store' result with
  | nil =>
    refine ⟨result, store', rfl, ?_, ?_⟩
    · rwa [deleteIds, List.filterMap_nil, List.append_nil]
    · rw [deleteIds, List.filterMap_nil, List.append_nil]
  | cons decision rest ih =>
    cases haction : decision.action with
    | keep reasons =>
      rw [deleteIds_keep haction] at h ⊢
      simp only [pruneDecisions, haction]
      exact ih hleft h
    | delete reason =>
      rw [deleteIds_delete haction] at h ⊢
      obtain ⟨hhead, hrest⟩ := h
      obtain ⟨metadata, hrun⟩ := run_pruneSnapshot_of_deletable
        ((deletable_iff_deletableAfter hleft).mpr hhead)
      simp only [pruneDecisions, haction]
      rw [Prog.run_bind, hrun]
      obtain ⟨result', left, hrun', hleft', hdeleted⟩ := ih (hleft.without metadata) hrest
      refine ⟨result', left, hrun', ?_, ?_⟩
      · rwa [List.append_assoc, List.singleton_append] at hleft'
      · rw [hdeleted, List.append_assoc, List.singleton_append]

/-- A run that fails has deleted some of the list: at least the first, or it ends where the
first deletion was refused. -/
theorem run_pruneDecisions_error {decisions : List PruningDecision}
    {result : SnapshotPruneResult} (hleft : store.LeftOf pre store')
    (h : ¬store.Prunable latest pre (deleteIds decisions)) :
    ∃ e left done, (pruneDecisions latest decisions result).run store' =
        (.error e, left) ∧
      store.LeftOf (pre ++ done) left ∧
      ∃ first ∈ (deleteIds decisions).head?,
        (¬store.DeletableAfter latest pre first ∧
            ((pruneSnapshot latest first).run store').2 = left) ∨
          (store.DeletableAfter latest pre first ∧ first ∈ done) := by
  induction decisions generalizing pre store' result with
  | nil => exact absurd trivial h
  | cons decision rest ih =>
    cases haction : decision.action with
    | keep reasons =>
      rw [deleteIds_keep haction] at h ⊢
      simp only [pruneDecisions, haction]
      exact ih hleft h
    | delete reason =>
      rw [deleteIds_delete haction] at h ⊢
      simp only [pruneDecisions, haction]
      by_cases hhead : store.DeletableAfter latest pre decision.snapshotId
      · obtain ⟨metadata, hrun⟩ := run_pruneSnapshot_of_deletable
          ((deletable_iff_deletableAfter hleft).mpr hhead)
        have hrest : ¬store.Prunable latest (pre ++ [decision.snapshotId])
            (deleteIds rest) := fun hrest => h ⟨hhead, hrest⟩
        obtain ⟨e, left, done, hrun', hleft', -⟩ := ih (hleft.without metadata) hrest
        rw [Prog.run_bind, hrun]
        refine ⟨e, left, decision.snapshotId :: done, hrun', ?_, decision.snapshotId,
          rfl, Or.inr ⟨hhead, List.mem_cons_self⟩⟩
        rwa [List.append_assoc, List.singleton_append] at hleft'
      · obtain ⟨e, left, hrun, hends⟩ := run_pruneSnapshot_of_not_deletable
          (fun hdeletable => hhead ((deletable_iff_deletableAfter hleft).mp hdeletable))
        rw [Prog.run_bind, hrun]
        refine ⟨e, left, [], rfl, ?_, decision.snapshotId, rfl, Or.inl ⟨hhead, by rw [hrun]⟩⟩
        rw [List.append_nil]
        rcases hends with ⟨-, rfl⟩ | ⟨row, -, -, -, rfl⟩
        · exact hleft
        · exact ⟨hleft.project, hleft.rows⟩

/-! ## Whole plans -/

/-- `run` of the executor: it starts from the latest snapshot at the time of the call. -/
theorem run_pruneSnapshots (store : SnapshotStore) (plan : PruningPlan) :
    (pruneSnapshots plan).run store =
      (pruneDecisions store.latestSnapshotId plan.decisions ⟨[], 0⟩).run store :=
  Prog.run_query_bind _ _ _

/-- The plan goes through: it deletes exactly the planned ids and leaves no snapshot
without its parent. -/
def ExecutesPlan (store : SnapshotStore) (plan : PruningPlan) : Prop :=
  ∃ result store', (pruneSnapshots plan).run store = (.ok result, store') ∧
    result.deletedSnapshotIds = plan.deleteSnapshotIds ∧
    store'.db.snapshots.rows =
      store.db.snapshots.rows.filter (fun row => row.snapshotId ∉ plan.deleteSnapshotIds) ∧
    ∀ row ∈ store'.db.snapshots, ∀ parent ∈ row.parentSnapshotId,
      parent ∉ plan.deleteSnapshotIds

/-- A run of the executor that fails has deleted no snapshot and no reference. -/
def FailsClean (store : SnapshotStore) (plan : PruningPlan) : Prop :=
  ∀ e store', (pruneSnapshots plan).run store = (.error e, store') →
    store'.db.snapshots = store.db.snapshots ∧ store'.refs = store.refs

/-- A guard refuses the snapshot, or the foreign key does and it has no references. -/
def RefusedClean (store : SnapshotStore) (id : String) : Prop :=
  store.PassesGuards store.latestSnapshotId id →
    ¬store.Deletable store.latestSnapshotId id ∧
      ∀ row ∈ store.db.snapshots, row.snapshotId = id →
        row.metadata.indexRef ∉ store.refs ∧ row.metadata.workRef ∉ store.refs

/-- Nothing that is left over refers to a deleted snapshot. -/
theorem not_orphaned_of_executable {plan : PruningPlan}
    (h : store.Executable plan.deleteSnapshotIds) {row : SnapshotRow}
    (hrow : row ∈ store.db.snapshots) (hleft : row.snapshotId ∉ plan.deleteSnapshotIds) :
    ∀ parent ∈ row.parentSnapshotId, parent ∉ plan.deleteSnapshotIds := by
  intro parent hparent hdeleted
  obtain ⟨pre, post, hsplit⟩ := List.append_of_mem hdeleted
  have hchild := (h pre parent post hsplit).childless row hrow hparent
  rw [hsplit] at hleft
  exact hleft (List.mem_append_left _ hchild)

theorem executesPlan_iff {plan : PruningPlan} :
    ExecutesPlan store plan ↔ store.Executable plan.deleteSnapshotIds := by
  constructor
  · rintro ⟨result, store', hrun, -⟩
    by_contra hnot
    obtain ⟨e, left, done, hfail, -⟩ := run_pruneDecisions_error
      (leftOf_refl store) (fun h => hnot (executable_iff_prunable.mpr h))
    rw [run_pruneSnapshots, hfail] at hrun
    cases hrun
  · intro h
    obtain ⟨result, left, hrun, hleft, hdeleted⟩ :=
      @run_pruneDecisions_ok store store _ _ plan.decisions ⟨[], 0⟩
        (leftOf_refl store) (executable_iff_prunable.mp h)
    refine ⟨result, left, ?_, hdeleted, hleft.rows, ?_⟩
    · rw [run_pruneSnapshots]
      exact hrun
    · intro row hrow
      obtain ⟨hmem, hopen⟩ := hleft.mem.mp hrow
      exact not_orphaned_of_executable h hmem hopen

theorem filter_ne_eq_self {refs : List String} {a b : String} :
    (refs.filter fun r => r ≠ a).filter (fun r => r ≠ b) = refs ↔ a ∉ refs ∧ b ∉ refs := by
  rw [List.filter_filter, List.filter_eq_self]
  constructor
  · intro h
    exact ⟨fun ha => by simpa using h a ha, fun hb => by simpa using h b hb⟩
  · rintro ⟨ha, hb⟩ r hr
    simp [ne_of_mem_of_not_mem hr ha, ne_of_mem_of_not_mem hr hb]

/-- What a refused deletion does to the references. -/
theorem refusedClean_iff (h : ¬store.Deletable store.latestSnapshotId id) :
    ((pruneSnapshot store.latestSnapshotId id).run store).2.refs = store.refs ↔
      RefusedClean store id := by
  obtain ⟨e, left, hrun, ⟨hguards, rfl⟩ | ⟨row, hrow, rfl, hguards, rfl⟩⟩ :=
    run_pruneSnapshot_of_not_deletable h
  · rw [hrun]
    exact iff_of_true rfl fun hpasses => absurd hpasses hguards
  · rw [hrun]
    refine filter_ne_eq_self.trans ⟨fun habsent _ => ⟨h, ?_⟩, fun hclean =>
      (hclean hguards).2 row hrow rfl⟩
    intro other hother hid
    rw [List.inj_on_of_nodup_map store.db.snapshots.nodup hother hrow hid]
    exact habsent

theorem failsClean_iff {plan : PruningPlan} :
    FailsClean store plan ↔ store.Executable plan.deleteSnapshotIds ∨
      ∀ id ∈ plan.deleteSnapshotIds.head?, RefusedClean store id := by
  have hafter : ∀ id, store.Deletable store.latestSnapshotId id ↔
      store.DeletableAfter store.latestSnapshotId [] id :=
    fun id => deletable_iff_deletableAfter (leftOf_refl store)
  by_cases h : store.Executable plan.deleteSnapshotIds
  · refine iff_of_true ?_ (Or.inl h)
    intro e store' hrun
    obtain ⟨result, left, hok, -⟩ := run_pruneDecisions_ok
      (leftOf_refl store) (executable_iff_prunable.mp h)
    rw [run_pruneSnapshots, hok] at hrun
    cases hrun
  · obtain ⟨e, left, done, hrun, hleft, first, hfirst, hcases⟩ := run_pruneDecisions_error
      (leftOf_refl store) (fun hprunable => h (executable_iff_prunable.mpr hprunable))
    rw [← run_pruneSnapshots] at hrun
    constructor
    · intro hclean
      refine Or.inr fun id hid => ?_
      obtain rfl : first = id := Option.some.inj (hfirst.symm.trans hid)
      obtain ⟨hsame, hrefs⟩ := hclean e left hrun
      rcases hcases with ⟨hrefused, hends⟩ | ⟨hdeletable, hdone⟩
      · rw [← hafter] at hrefused
        exact (refusedClean_iff hrefused).mp (by rw [hends]; exact hrefs)
      · -- the first snapshot is gone
        obtain ⟨row, hrow, hid', -⟩ := hdeletable.stored
        rw [← hsame] at hrow
        refine absurd ?_ (hleft.mem.mp hrow).2
        rwa [hid']
    · rintro (hexecutable | hrefused)
      · exact absurd hexecutable h
      · intro e' store' hrun'
        rw [hrun] at hrun'
        obtain ⟨-, rfl⟩ := Prod.mk.inj hrun'
        rcases hcases with ⟨hnot, hends⟩ | ⟨hdeletable, -⟩
        · rw [← hafter] at hnot
          have hrefs := (refusedClean_iff hnot).mpr (hrefused first hfirst)
          rw [hends] at hrefs
          refine ⟨?_, hrefs⟩
          obtain ⟨e', store', hfail, hstore⟩ := run_pruneSnapshot_of_not_deletable hnot
          rw [hfail] at hends
          rcases hstore with ⟨-, rfl⟩ | ⟨row, -, -, -, rfl⟩
          · rw [← hends]
          · rw [← hends]
            rfl
        · have hdeletable := (hafter first).mpr hdeletable
          refine absurd hdeletable (hrefused first hfirst ⟨hdeletable.stored,
            hdeletable.notLatest, fun row hrow _ => hdeletable.childless row hrow⟩).1

/-! ## Plans for the store's own snapshots -/

namespace SnapshotStore

def listedIds (store : SnapshotStore) : List String :=
  store.listSnapshots.map (·.snapshotId)

/-- `list_snapshots` has `a` in front of `b`. -/
def ListedBefore (store : SnapshotStore) (a b : String) : Prop :=
  ∃ pre post, store.listedIds = pre ++ b :: post ∧ a ∈ pre

/-- The entries of the listed snapshots, with a size for each. -/
def retentionEntries (store : SnapshotStore) (size : String → UInt64) :
    List SnapshotRetentionEntry :=
  store.listSnapshots.map fun snapshot => .fromStored snapshot (size snapshot.snapshotId)

theorem retentionEntries_ids (store : SnapshotStore) (size : String → UInt64) :
    (store.retentionEntries size).map (·.snapshotId) = store.listedIds := by
  rw [retentionEntries, List.map_map]
  rfl

theorem mem_listSnapshots {stored : StoredSnapshot} :
    stored ∈ store.listSnapshots ↔ ∃ row ∈ store.db.snapshots,
      row.projectId = store.projectId ∧ storedSnapshotFromRow row = stored := by
  unfold listSnapshots projectRows
  simp only [List.mem_map, List.mem_insertionSort, List.mem_filter, decide_eq_true_eq,
    Table.mem_def, and_assoc]

theorem mem_listedIds {store : SnapshotStore} {id : String} :
    id ∈ store.listedIds ↔ ∃ row ∈ store.db.snapshots,
      row.projectId = store.projectId ∧ row.snapshotId = id := by
  unfold listedIds
  simp only [List.mem_map, mem_listSnapshots]
  constructor
  · rintro ⟨-, ⟨row, hrow, hproject, rfl⟩, hid⟩
    exact ⟨row, hrow, hproject, hid⟩
  · rintro ⟨row, hrow, hproject, hid⟩
    exact ⟨_, ⟨row, hrow, hproject, rfl⟩, hid⟩

theorem nodup_listedIds (store : SnapshotStore) : store.listedIds.Nodup := by
  have hrows : (store.projectRows.map (·.snapshotId)).Nodup :=
    store.db.snapshots.nodup.sublist (List.filter_sublist.map _)
  have hperm := List.perm_insertionSort
    (fun a b : SnapshotRow => a.sequenceNumber ≤ b.sequenceNumber) store.projectRows
  unfold listedIds listSnapshots
  rw [List.map_map]
  exact (hperm.map _).nodup_iff.mpr hrows

end SnapshotStore

/-- What a filtered list without duplicates has in front of an element is what the list
has in front of it. -/
theorem mem_prefix_of_filter {α : Type} {l before after pre post : List α} {a b : α}
    {p : α → Bool} (hnodup : l.Nodup) (hfilter : l.filter p = pre ++ b :: post)
    (hl : l = before ++ b :: after) (ha : a ∈ before) (hpa : p a = true) : a ∈ pre := by
  have hpb : p b = true := by
    have hb : b ∈ l.filter p := by
      rw [hfilter]
      exact List.mem_append_right _ List.mem_cons_self
    exact (List.mem_filter.mp hb).2
  have hsplit : pre ++ b :: post = before.filter p ++ b :: after.filter p := by
    rw [← hfilter, hl, List.filter_append, List.filter_cons_of_pos hpb]
  have hpre : (pre ++ b :: post).Nodup := hfilter ▸ hnodup.filter p
  have hb₁ : b ∉ pre := fun h =>
    (List.disjoint_of_nodup_append hpre) h List.mem_cons_self
  have hb₂ : b ∉ post := (List.nodup_cons.mp (List.nodup_append.mp hpre).2.1).1
  obtain ⟨heq, -, -⟩ := (List.append_cons_inj_of_notMem hb₁ hb₂).mp hsplit
  rw [heq]
  exact List.mem_filter.mpr ⟨ha, hpa⟩

section

variable {input : PruningPlanInput} {size : String → UInt64}

/-- The parent link of a listed snapshot is the one of its row. -/
theorem parentOf_retentionEntries {row : SnapshotRow} {parent : String}
    (hrow : row ∈ store.db.snapshots) (hproject : row.projectId = store.projectId)
    (hparent : row.parentSnapshotId = some parent) :
    parentOf (store.retentionEntries size) row.snapshotId = some parent := by
  let entry := SnapshotRetentionEntry.fromStored (storedSnapshotFromRow row)
    (size row.snapshotId)
  have hentry : entry ∈ (store.retentionEntries size).reverse :=
    List.mem_reverse.mpr (List.mem_map.mpr
      ⟨_, mem_listSnapshots.mpr ⟨row, hrow, hproject, rfl⟩, rfl⟩)
  have hnodup : ((store.retentionEntries size).reverse.map (·.snapshotId)).Nodup := by
    rw [List.map_reverse, List.nodup_reverse, retentionEntries_ids]
    exact store.nodup_listedIds
  unfold parentOf
  cases hfind : (store.retentionEntries size).reverse.find?
      fun snapshot => snapshot.snapshotId = row.snapshotId with
  | none => simpa [entry, SnapshotRetentionEntry.fromStored, storedSnapshotFromRow] using
      List.find?_eq_none.mp hfind entry hentry
  | some found =>
    have hid := List.find?_some hfind
    rw [decide_eq_true_eq] at hid
    rw [List.inj_on_of_nodup_map hnodup (List.mem_of_find?_eq_some hfind) hentry hid]
    exact hparent

/-- The children of an evicted snapshot are evicted. -/
theorem evicted_of_parent (hinput : input.snapshots = store.retentionEntries size)
    {row : SnapshotRow} {parent : String} (hrow : row ∈ store.db.snapshots)
    (hproject : row.projectId = store.projectId)
    (hparent : row.parentSnapshotId = some parent) (h : input.Evicted parent) :
    input.Evicted row.snapshotId := by
  refine Or.inl fun hretained => ?_
  have hprotected : input.Protected parent := by
    refine Or.inr ⟨row.snapshotId, hretained, ?_⟩
    rw [hinput]
    exact parentOf_retentionEntries hrow hproject hparent
  rcases h with hnot | ⟨hsoft, -⟩
  · exact hnot (retained_of_protected hprotected)
  · exact hsoft hprotected

theorem not_pinned_of_evicted (hinput : input.snapshots = store.retentionEntries size)
    {row : SnapshotRow} (hrow : row ∈ store.db.snapshots)
    (hproject : row.projectId = store.projectId) (h : input.Evicted row.snapshotId) :
    row.pinned = false := by
  rw [← Bool.not_eq_true]
  intro hpinned
  have hprotected : input.Protected row.snapshotId := by
    refine Or.inl (Or.inr (Or.inl ⟨.fromStored (storedSnapshotFromRow row)
      (size row.snapshotId), ?_, hpinned, rfl⟩))
    rw [hinput]
    exact List.mem_map.mpr ⟨storedSnapshotFromRow row,
      mem_listSnapshots.mpr ⟨row, hrow, hproject, rfl⟩, rfl⟩
  rcases h with hnot | ⟨hsoft, -⟩
  · exact hnot (retained_of_protected hprotected)
  · exact hsoft hprotected

/-- A plan for the store's own list can be carried out when every evicted snapshot is not
the latest and comes after its children. -/
theorem executable_plan_iff (hinput : input.snapshots = store.retentionEntries size) :
    store.Executable (planSnapshotPruning input).deleteSnapshotIds ↔
      ∀ id ∈ store.listedIds, input.Evicted id →
        store.latestSnapshotId ≠ some id ∧
          ∀ row ∈ store.db.snapshots, row.parentSnapshotId = some id →
            store.ListedBefore row.snapshotId id := by
  have hids : input.snapshots.map (·.snapshotId) = store.listedIds := by
    rw [hinput, retentionEntries_ids]
  have hplanned : ∀ id, id ∈ (planSnapshotPruning input).deleteSnapshotIds ↔
      id ∈ store.listedIds ∧ input.Evicted id := by
    intro id
    rw [mem_deleteSnapshotIds (hids ▸ store.nodup_listedIds), hids]
  have hfilter := deleteSnapshotIds_eq input
  rw [hids] at hfilter
  constructor
  · intro h id hlisted hevicted
    obtain ⟨pre, post, hsplit⟩ := List.append_of_mem ((hplanned id).mpr ⟨hlisted, hevicted⟩)
    obtain ⟨-, -, hlatest, hchildless⟩ := h pre id post hsplit
    refine ⟨hlatest, fun row hrow hparent => ?_⟩
    -- the deletions in front of `id` are listed in front of it
    rw [hsplit] at hfilter
    obtain ⟨l₁, l₂, hlist, hpre, hpost⟩ := List.filter_eq_append_iff.mp hfilter.symm
    obtain ⟨m₁, m₂, hm, -, -, -⟩ := List.filter_eq_cons_iff.mp hpost
    refine ⟨l₁ ++ m₁, m₂, ?_, ?_⟩
    · rw [hlist, hm, List.append_assoc]
    · have hmem := hchildless row hrow hparent
      rw [← hpre] at hmem
      exact List.mem_append_left _ (List.mem_filter.mp hmem).1
  · intro h pre id post hsplit
    have hnodup := store.nodup_listedIds
    have hdeleted : (planSnapshotPruning input).deleteSnapshotIds.Nodup := by
      rw [hfilter]
      exact hnodup.filter _
    have hmem : id ∈ (planSnapshotPruning input).deleteSnapshotIds := by
      rw [hsplit]
      exact List.mem_append_right _ List.mem_cons_self
    obtain ⟨hlisted, hevicted⟩ := (hplanned id).mp hmem
    obtain ⟨row, hrow, hproject, rfl⟩ := mem_listedIds.mp hlisted
    obtain ⟨hlatest, hchildren⟩ := h row.snapshotId hlisted hevicted
    refine ⟨⟨row, hrow, rfl, hproject, not_pinned_of_evicted hinput hrow hproject hevicted⟩,
      ?_, hlatest, ?_⟩
    · rw [hsplit] at hdeleted
      intro hpre
      exact (List.disjoint_of_nodup_append hdeleted) hpre List.mem_cons_self
    · intro child hchild hparent
      obtain ⟨before, after, hlist, hbefore⟩ := hchildren child hchild hparent
      have hlistedChild : child.snapshotId ∈ store.listedIds := by
        rw [hlist]
        exact List.mem_append_left _ hbefore
      obtain ⟨row', hrow', hproject', hid'⟩ := mem_listedIds.mp hlistedChild
      have hsame := List.inj_on_of_nodup_map store.db.snapshots.nodup hrow' hchild hid'
      rw [hsame] at hproject'
      have hevicted' := evicted_of_parent hinput hchild hproject' hparent hevicted
      rw [hfilter] at hsplit
      refine mem_prefix_of_filter hnodup hsplit hlist hbefore ?_
      have hplannedChild := (hplanned child.snapshotId).mpr ⟨hlistedChild, hevicted'⟩
      rw [hfilter] at hplannedChild
      exact (List.mem_filter.mp hplannedChild).2

end

/-- Planned pruning of the store's own snapshots goes through exactly when every evicted
snapshot is not the latest and is listed after its children, which then all belong to the
project; and a run that fails has deleted nothing exactly when it cannot fail, or its first
deletion is refused by a guard, or by the foreign key when there are no references. -/
theorem planned_pruning (store : SnapshotStore) :
    (∀ (size : String → UInt64) (input : PruningPlanInput), ExecutesPlan store (planSnapshotPruning
          { input with snapshots := store.retentionEntries size }) ↔
        ∀ id ∈ store.listedIds,
          PruningPlanInput.Evicted
              { input with snapshots := store.retentionEntries size } id →
            store.latestSnapshotId ≠ some id ∧
              ∀ row ∈ store.db.snapshots, row.parentSnapshotId = some id →
                store.ListedBefore row.snapshotId id) ∧
      ∀ plan : PruningPlan,
        FailsClean store plan ↔
          store.Executable plan.deleteSnapshotIds ∨
            ∀ id ∈ plan.deleteSnapshotIds.head?, RefusedClean store id := by
  refine ⟨fun size input => ?_, fun plan => failsClean_iff⟩
  rw [executesPlan_iff]
  exact executable_plan_iff rfl

/-- A row of the project, without a session. -/
def demoRow (snapshotId : String) (parent : Option String) (sequenceNumber : Int) :
    SnapshotRow where
  snapshotId := snapshotId
  projectId := "project-1"
  sessionId := none
  parentSnapshotId := parent
  sequenceNumber := sequenceNumber
  pinned := false
  label := none
  metadata := {
    schemaVersion := 1
    snapshotId := snapshotId
    projectId := "project-1"
    projectName := "demo"
    sessionId := none
    parentSnapshotId := parent
    childSnapshots := []
    branch := some "main"
    headOid := "h"
    indexTreeOid := "i"
    indexCommitOid := "ic"
    workTreeOid := "w"
    workCommitOid := "wc"
    includedUntracked := []
    excluded := []
    sidecars := []
    stateHash := "s"
    createdAtUnixSeconds := 100 }
  createdAtUnixSeconds := 100

/-- A leaf, a parent with its child, and the latest snapshot. -/
def familyStore : SnapshotStore where
  projectId := "project-1"
  db := {
    projects := ⟨["project-1"], by decide⟩
    sessions := .empty
    snapshots := ⟨[demoRow "s1_a" none 1, demoRow "s1_b" none 2,
      demoRow "s1_c" (some "s1_b") 3, demoRow "s1_d" none 4], by decide⟩
    leases := .empty
    handoffs := .empty
    handoffJournal := []
    deviceRevocations := .empty
    auditEvents := [] }
  refs := []

/-- Keep the newest snapshot only. -/
def newestOnly : PruningPlanInput where
  snapshots := familyStore.retentionEntries fun _ => 10
  policy := { RetentionPolicy.default with
    hotSnapshotCount := 1
    hourlyThinningHours := 0
    dailyThinningDays := 0 }
  scope := .deviceCache
  canonicalLatestSnapshotId := some "s1_d"
  handoffProtections := []
  currentUsageBytes := 40
  freeDiskBytes := 1073741824
  nowUnixSeconds := 1000000

/-- The parent is planned in front of its child: the leaf is deleted, then the run
fails. -/
theorem family_half_pruned :
    (planSnapshotPruning newestOnly).deleteSnapshotIds = ["s1_a", "s1_b", "s1_c"] ∧
      ¬ExecutesPlan familyStore (planSnapshotPruning newestOnly) ∧
      ¬FailsClean familyStore (planSnapshotPruning newestOnly) := by
  have hplan : (planSnapshotPruning newestOnly).deleteSnapshotIds =
      ["s1_a", "s1_b", "s1_c"] := by decide
  have hrun : ((pruneSnapshots (planSnapshotPruning newestOnly)).run familyStore).1 =
      .error (childrenError "s1_b") := by decide
  have hrows : ((pruneSnapshots (planSnapshotPruning newestOnly)).run
      familyStore).2.db.snapshots ≠ familyStore.db.snapshots := by decide
  refine ⟨hplan, ?_, ?_⟩
  · rintro ⟨result, store', hok, -⟩
    rw [hok] at hrun
    cases hrun
  · intro hclean
    exact hrows (hclean _ _ (Prod.ext hrun rfl)).1

end DevRelay.Retention
