import DevRelay.Editor.ContextLog
import DevRelay.Lib.StableSort

/-!
# The latest context

The newest context that is found is the last one that was accepted exactly if not too much was
recorded behind it, and no other database shows one that sorts in front of it.
-/

namespace DevRelay.Editor

open DevRelay.Lib DevRelay.Core

variable {δ κ : Type} [DecidableEq δ]

/-! ## Histories -/

/-- Something that writes an audit event. -/
inductive AuditOperation (δ κ : Type) where
  | contextUpdate (params : EditorContextUpdateParams κ)
  | otherEvent (database : δ) (eventType : AuditEventType)
      (other : eventType ≠ .editorContextUpdated) (projectId : Option String)

/-- The databases, and the contexts that were accepted so far. -/
structure ContextWorld (δ κ : Type) where
  home : AuditHome δ κ
  accepted : List (EditorContextSnapshot κ)

/-- What the caller of an update that was accepted knows of it. -/
def acceptedContext (params : EditorContextUpdateParams κ) (result : EditorContextUpdateResult) :
    EditorContextSnapshot κ where
  project := params.project.map trimProject
  auditId := result.auditId
  capsule := params.capsule
  capturedAtUnixSeconds := result.recordedAtUnixSeconds

def performAt (env : ContextEnv δ κ) (w : ContextWorld δ κ) (step : Nat × AuditOperation δ κ) :
    ContextWorld δ κ :=
  match step.2 with
  | .contextUpdate params =>
    let (outcome, home) := handleEditorContextUpdate env params step.1 w.home
    match outcome with
    | .error _ => ⟨home, w.accepted⟩
    | .ok result => ⟨home, w.accepted ++ [acceptedContext params result]⟩
  | .otherEvent database eventType _ projectId =>
    ⟨(recordAuditEvent w.home database eventType projectId none step.1).2, w.accepted⟩

/-- A history of operations, each at a second of the clock. -/
def runHistory (env : ContextEnv δ κ) (history : List (Nat × AuditOperation δ κ)) :
    ContextWorld δ κ :=
  history.foldl (performAt env) ⟨fun _ => [], []⟩

/-- The query is about contexts of this project. -/
def concerns (registered : List String) (query project : Option String) : Bool :=
  match query with
  | some name => project = some name
  | none => project.all fun name => name ∈ registered

/-- The last update that was accepted of those that the query is about. -/
def lastAccepted (registered : List String) (query : Option String)
    (accepted : List (EditorContextSnapshot κ)) : Option (EditorContextSnapshot κ) :=
  (accepted.filter fun context => concerns registered query context.project).getLast?

/-! ## What a query sees -/

/-- The rows with this context are followed by no other context and by less than a hundred rows. -/
def Shows (rows : List (AuditRow κ)) (context : EditorContextSnapshot κ) : Prop :=
  ∃ before row after, rows = before ++ row :: after ∧ editorContextFromAudit row = some context ∧
    after.length < 100 ∧ ∀ later ∈ after, editorContextFromAudit later = none

/-- The rows that a query without a project goes over: those of the agent, and those of each
registered project. -/
def queriedRows (env : ContextEnv δ κ) (registered : List String) (home : AuditHome δ κ) :
    List (List (AuditRow κ)) :=
  home (env.databaseOf none) :: registered.map fun project =>
    selectedRows (some project) (home (env.databaseOf (some project)))

/-- Some rows show this context, and no others show one that sorts in front of it. -/
def ShownFirst (parts : List (List (AuditRow κ))) (context : EditorContextSnapshot κ) : Prop :=
  ∃ before part after, parts = before ++ part :: after ∧ Shows part context ∧
    (∀ rows ∈ before, ∀ other, Shows rows other → other.key < context.key) ∧
    ∀ rows ∈ after, ∀ other, Shows rows other → other.key ≤ context.key

/-- The last context can be found among the newest rows. -/
def Findable (env : ContextEnv δ κ) (registered : List String) (query : Option String)
    (home : AuditHome δ κ) : Option (EditorContextSnapshot κ) → Prop
  | some last =>
    match query with
    | some project => Shows (selectedRows (some project)
        (home (env.databaseOf (some project)))) last
    | none => ShownFirst (queriedRows env registered home) last
  | none =>
    match query with
    | some _ => True
    | none => ∀ rows ∈ queriedRows env registered home, ∀ context, ¬Shows rows context

/-! ## Rows in the order of their keys -/

/-- The rows were written one after the other. -/
def Ascending (rows : List (AuditRow κ)) : Prop := rows.Pairwise fun a b => a.key < b.key

/-- Entries with larger keys come first. -/
instance : IsTrans (AuditRow κ) fun left right => right.key ≤ left.key :=
  ⟨fun _ _ _ hfirst hsecond => hsecond.trans hfirst⟩

instance : Std.Total (α := AuditRow κ) fun left right => right.key ≤ left.key :=
  ⟨fun left right => le_total right.key left.key⟩

instance : IsTrans (EditorContextSnapshot κ) fun left right => right.key ≤ left.key :=
  ⟨fun _ _ _ hfirst hsecond => hsecond.trans hfirst⟩

instance : Std.Total (α := EditorContextSnapshot κ) fun left right => right.key ≤ left.key :=
  ⟨fun left right => le_total right.key left.key⟩

omit [DecidableEq δ]

theorem Ascending.selectedRows {rows : List (AuditRow κ)} (h : Ascending rows)
    (projectId : Option String) : Ascending (selectedRows projectId rows) := by
  cases projectId with
  | none => exact h
  | some project => exact h.sublist List.filter_sublist

theorem sortNewestFirst_eq {rows : List (AuditRow κ)} (h : Ascending rows) :
    sortNewestFirst rows = rows.reverse := by
  have hreverse : rows.reverse.Pairwise fun left right => right.key ≤ left.key :=
    List.pairwise_reverse.mpr (h.imp fun hlt => hlt.le)
  have hsorted : (sortNewestFirst rows).Pairwise fun left right => right.key ≤ left.key :=
    List.pairwise_insertionSort _ rows
  have hperm : (sortNewestFirst rows).Perm rows := List.perm_insertionSort _ rows
  have hkeys : (rows.map AuditRow.key).Nodup :=
    List.Pairwise.map _ (fun _ _ hlt => ne_of_lt hlt) h
  apply List.Perm.eq_of_pairwise _ hsorted hreverse (hperm.trans (List.reverse_perm rows).symm)
  intro a b ha hb hle hge
  exact List.inj_on_of_nodup_map hkeys (hperm.mem_iff.mp ha) (List.mem_reverse.mp hb)
    (le_antisymm hge hle)

theorem listAuditEvents_eq {rows : List (AuditRow κ)} (h : Ascending rows)
    (projectId : Option String) :
    listAuditEvents rows projectId 100 = (selectedRows projectId rows).reverse.take 100 := by
  have hselected := h.selectedRows projectId
  have hreverse : (DevRelay.Editor.selectedRows projectId rows).reverse.Pairwise
      fun left right => right.key ≤ left.key :=
    List.pairwise_reverse.mpr (hselected.imp fun hlt => hlt.le)
  unfold listAuditEvents
  rw [sortNewestFirst_eq hselected]
  exact (hreverse.sublist (List.take_sublist _ _)).insertionSort_eq

/-! ## What the newest rows show -/

/-- The contexts among the newest rows, the newest first. -/
def newestContexts (rows : List (AuditRow κ)) : List (EditorContextSnapshot κ) :=
  (rows.reverse.take 100).filterMap editorContextFromAudit

theorem key_of_context {row : AuditRow κ} {context : EditorContextSnapshot κ}
    (h : editorContextFromAudit row = some context) : context.key = row.key := by
  unfold editorContextFromAudit at h
  split_ifs at h with htype
  obtain ⟨capsule, -, rfl⟩ := Option.map_eq_some_iff.mp h
  rfl

theorem newestContexts_sorted {rows : List (AuditRow κ)} (h : Ascending rows) :
    (newestContexts rows).Pairwise fun left right => right.key ≤ left.key := by
  have hreverse : rows.reverse.Pairwise fun left right => right.key ≤ left.key :=
    List.pairwise_reverse.mpr (h.imp fun hlt => hlt.le)
  rw [newestContexts, List.pairwise_filterMap]
  apply (hreverse.sublist (List.take_sublist 100 _)).imp
  intro left right hle first hfirst second hsecond
  rw [key_of_context hfirst, key_of_context hsecond]
  exact hle

theorem head?_filterMap_take {α β : Type} {f : α → Option β} {xs : List α} {n : Nat} {b : β} :
    ((xs.take n).filterMap f).head? = some b ↔
      ∃ before x after, xs = before ++ x :: after ∧ f x = some b ∧ before.length < n ∧
        ∀ earlier ∈ before, f earlier = none := by
  induction xs generalizing n with
  | nil => simp
  | cons first xs ih =>
    cases n with
    | zero => simp
    | succ n =>
      rw [List.take_succ_cons, List.filterMap_cons]
      cases hfirst : f first with
      | none =>
        rw [ih]
        constructor
        · rintro ⟨before, x, after, rfl, hx, hlength, hnone⟩
          refine ⟨first :: before, x, after, rfl, hx, by rw [List.length_cons]; omega, ?_⟩
          exact List.forall_mem_cons.mpr ⟨hfirst, hnone⟩
        · rintro ⟨before, x, after, heq, hx, hlength, hnone⟩
          cases before with
          | nil =>
            cases heq
            rw [hfirst] at hx
            cases hx
          | cons skipped before =>
            cases heq
            rw [List.length_cons] at hlength
            exact ⟨before, x, after, rfl, hx, by omega,
              (List.forall_mem_cons.mp hnone).2⟩
      | some value =>
        constructor
        · intro h
          cases h
          exact ⟨[], first, xs, rfl, hfirst, Nat.succ_pos n, fun _ hmem => (nomatch hmem)⟩
        · rintro ⟨before, x, after, heq, hx, -, hnone⟩
          cases before with
          | nil =>
            cases heq
            rw [hfirst] at hx
            exact hx
          | cons skipped before =>
            cases heq
            rw [hnone first List.mem_cons_self] at hfirst
            cases hfirst

theorem head?_newestContexts {rows : List (AuditRow κ)} {context : EditorContextSnapshot κ} :
    (newestContexts rows).head? = some context ↔ Shows rows context := by
  rw [newestContexts, head?_filterMap_take]
  constructor
  · rintro ⟨before, row, after, hrows, hrow, hlength, hnone⟩
    refine ⟨after.reverse, row, before.reverse, ?_, hrow, ?_, ?_⟩
    · rw [← List.reverse_reverse rows, hrows]
      simp
    · rw [List.length_reverse]
      exact hlength
    · intro later hlater
      exact hnone later (List.mem_reverse.mp hlater)
  · rintro ⟨before, row, after, rfl, hrow, hlength, hnone⟩
    refine ⟨after.reverse, row, before.reverse, by simp, hrow, ?_, ?_⟩
    · rw [List.length_reverse]
      exact hlength
    · intro earlier hearlier
      exact hnone earlier (List.mem_reverse.mp hearlier)

theorem newestContexts_eq_nil_iff {rows : List (AuditRow κ)} :
    newestContexts rows = [] ↔ ∀ context, ¬Shows rows context := by
  constructor
  · intro h context hshows
    have hhead := head?_newestContexts.mpr hshows
    rw [h] at hhead
    cases hhead
  · intro h
    cases hcontexts : newestContexts rows with
    | nil => rfl
    | cons context rest =>
      exact absurd (head?_newestContexts.mp (by rw [hcontexts]; rfl)) (h context)

/-! ## The answers -/

section Answers

variable {env : ContextEnv δ κ} {registered : List String} {home : AuditHome δ κ}

theorem latest_of_project (h : ∀ database, Ascending (home database)) {project : String}
    (hproject : project ∈ registered) :
    handleEditorContextLatest env registered (some project) home = .ok (newestContexts
      (selectedRows (some project) (home (env.databaseOf (some project))))).head? := by
  have hlisted : listedContexts (home (env.databaseOf (some project))) (some project) =
      newestContexts (selectedRows (some project) (home (env.databaseOf (some project)))) := by
    rw [listedContexts, listAuditEvents_eq (h _)]
    rfl
  have hsorted := newestContexts_sorted ((h (env.databaseOf (some project))).selectedRows
    (some project))
  unfold handleEditorContextLatest registeredProjectIdsForQuery
  dsimp only
  rw [if_pos hproject]
  dsimp only
  rw [if_neg (Option.some_ne_none project), List.flatMap_singleton, hlisted, List.nil_append,
    hsorted.insertionSort_eq]

theorem latest_of_none (h : ∀ database, Ascending (home database)) :
    handleEditorContextLatest env registered none home =
      .ok (((queriedRows env registered home).flatMap newestContexts).insertionSort
        fun left right => right.key ≤ left.key).head? := by
  have hshared : listedContexts (home (env.databaseOf none)) none =
      newestContexts (home (env.databaseOf none)) := by
    rw [listedContexts, listAuditEvents_eq (h _)]
    rfl
  have hprojects : (registered.flatMap fun project =>
      listedContexts (home (env.databaseOf (some project))) (some project)) =
      (registered.map fun project =>
        selectedRows (some project) (home (env.databaseOf (some project)))).flatMap
          newestContexts := by
    rw [List.flatMap_map]
    congr 1
    funext project
    rw [listedContexts, listAuditEvents_eq (h _)]
    rfl
  unfold handleEditorContextLatest registeredProjectIdsForQuery
  dsimp only
  rw [if_pos rfl, hshared, hprojects, queriedRows, List.flatMap_cons]

theorem queriedRows_ascending (h : ∀ database, Ascending (home database)) :
    ∀ rows ∈ queriedRows env registered home, Ascending rows := by
  intro rows hrows
  rcases List.mem_cons.mp hrows with rfl | hrows
  · exact h _
  · obtain ⟨project, -, rfl⟩ := List.mem_map.mp hrows
    exact (h _).selectedRows (some project)

theorem latest_none_eq_some_iff (h : ∀ database, Ascending (home database))
    {context : EditorContextSnapshot κ} :
    handleEditorContextLatest env registered none home = .ok (some context) ↔
      ShownFirst (queriedRows env registered home) context := by
  have hsorted : ∀ rows ∈ queriedRows env registered home, (newestContexts rows).Pairwise
      fun left right : EditorContextSnapshot κ => right.key ≤ left.key :=
    fun rows hrows => newestContexts_sorted (queriedRows_ascending h rows hrows)
  rw [latest_of_none h, Except.ok.injEq, head?_insertionSort_flatMap hsorted]
  simp only [head?_newestContexts, not_le]
  rfl

theorem latest_none_eq_none_iff (h : ∀ database, Ascending (home database)) :
    handleEditorContextLatest env registered none home = .ok none ↔
      ∀ rows ∈ queriedRows env registered home, ∀ context, ¬Shows rows context := by
  rw [latest_of_none h, Except.ok.injEq, List.head?_eq_none_iff]
  constructor
  · intro hnil rows hrows
    have hflat : (queriedRows env registered home).flatMap newestContexts = [] :=
      List.perm_nil.mp (hnil ▸ (List.perm_insertionSort _ _).symm)
    exact newestContexts_eq_nil_iff.mp (List.flatMap_eq_nil_iff.mp hflat rows hrows)
  · intro hnone
    have hflat : (queriedRows env registered home).flatMap newestContexts = [] :=
      List.flatMap_eq_nil_iff.mpr fun rows hrows =>
        newestContexts_eq_nil_iff.mpr (hnone rows hrows)
    rw [hflat]
    rfl

end Answers

/-! ## What a history leaves -/

section Histories

variable [DecidableEq δ] {env : ContextEnv δ κ} {w : ContextWorld δ κ} {now : Nat}

/-- The rows of each database ascend up to now, and their contexts are the ones that were accepted
for it. -/
structure Logged (env : ContextEnv δ κ) (w : ContextWorld δ κ) (now : Nat) : Prop where
  ascending : ∀ database, Ascending (w.home database)
  bound : ∀ database, ∀ row ∈ w.home database,
    row.createdAt ≤ now ∧ row.auditId ≤ (w.home database).length
  contexts : ∀ database, (w.home database).filterMap editorContextFromAudit =
    w.accepted.filter fun context => env.databaseOf context.project = database

omit [DecidableEq δ] in
theorem ascending_append {rows : List (AuditRow κ)} {row : AuditRow κ} (h : Ascending rows)
    (hrow : ∀ other ∈ rows, other.createdAt ≤ row.createdAt ∧ other.auditId < row.auditId) :
    Ascending (rows ++ [row]) := by
  apply List.pairwise_append.mpr
  refine ⟨h, List.pairwise_singleton _ _, ?_⟩
  intro other hother last hlast
  rw [List.mem_singleton.mp hlast]
  obtain ⟨hcreated, hid⟩ := hrow other hother
  exact Prod.Lex.toLex_lt_toLex.mpr (hcreated.lt_or_eq.imp id fun heq => ⟨heq, hid⟩)

/-- A row more, with the context that was accepted with it, if it has one. -/
theorem Logged.record (h : Logged env w now) {later : Nat} (hlater : now ≤ later)
    (database : δ) (eventType : AuditEventType) (projectId : Option String) (capsule : Option κ)
    (accepted : List (EditorContextSnapshot κ))
    (haccepted : ∀ row home, recordAuditEvent w.home database eventType projectId capsule later =
      (row, home) → (editorContextFromAudit row).toList = accepted ∧
        ∀ context ∈ accepted, env.databaseOf context.project = database) :
    Logged env ⟨(recordAuditEvent w.home database eventType projectId capsule later).2,
      w.accepted ++ accepted⟩ later := by
  obtain ⟨hcontext, howner⟩ := haccepted _ _ rfl
  generalize hrow : (⟨(w.home database).length + 1, eventType, projectId, capsule, later⟩ :
    AuditRow κ) = row
  have hhome : (recordAuditEvent w.home database eventType projectId capsule later).2 =
      fun other => if other = database then w.home database ++ [row] else w.home other := by
    rw [← hrow]
    rfl
  have hcontextRow : (editorContextFromAudit row).toList = accepted := by
    rw [← hrow]
    exact hcontext
  rw [hhome]
  refine ⟨?_, ?_, ?_⟩
  · intro other
    by_cases hother : other = database
    · dsimp only
      rw [if_pos hother]
      apply ascending_append (h.ascending database)
      intro earlier hearlier
      obtain ⟨hcreated, hid⟩ := h.bound database earlier hearlier
      rw [← hrow]
      exact ⟨hcreated.trans hlater, Nat.lt_succ_of_le hid⟩
    · dsimp only
      rw [if_neg hother]
      exact h.ascending other
  · intro other
    by_cases hother : other = database
    · dsimp only
      rw [if_pos hother, List.length_append, List.length_singleton]
      intro earlier hearlier
      rcases List.mem_append.mp hearlier with hearlier | hlast
      · obtain ⟨hcreated, hid⟩ := h.bound database earlier hearlier
        exact ⟨hcreated.trans hlater, by omega⟩
      · rw [List.mem_singleton.mp hlast, ← hrow]
        exact ⟨le_refl later, le_refl _⟩
    · dsimp only
      rw [if_neg hother]
      intro earlier hearlier
      obtain ⟨hcreated, hid⟩ := h.bound other earlier hearlier
      exact ⟨hcreated.trans hlater, hid⟩
  · intro other
    dsimp only
    rw [List.filter_append]
    by_cases hother : other = database
    · have hself : (accepted.filter fun context => env.databaseOf context.project = other) =
          accepted := by
        apply List.filter_eq_self.mpr
        intro context hmem
        rw [howner context hmem, hother]
        exact decide_eq_true rfl
      have hlast : [row].filterMap editorContextFromAudit = accepted := by
        rw [← hcontextRow]
        cases hone : editorContextFromAudit row <;> simp [hone]
      rw [if_pos hother, List.filterMap_append, hself, hlast, h.contexts database, hother]
    · have hnone : (accepted.filter fun context => env.databaseOf context.project = other) =
          [] := by
        apply List.filter_eq_nil_iff.mpr
        intro context hmem
        rw [howner context hmem, decide_eq_true_eq]
        exact fun heq => hother heq.symm
      rw [if_neg hother, hnone, List.append_nil]
      exact h.contexts other

/-- An update that is accepted is recorded in the database of its project. -/
theorem Logged.performAt (h : Logged env w now) (step : Nat × AuditOperation δ κ)
    (hlater : now ≤ step.1) : Logged env (performAt env w step) step.1 := by
  obtain ⟨later, operation⟩ := step
  cases operation with
  | contextUpdate params =>
    unfold DevRelay.Editor.performAt handleEditorContextUpdate
    dsimp only
    cases hcheck : checkContextUpdate env params with
    | error e =>
      refine ⟨h.ascending, ?_, h.contexts⟩
      intro database row hrow
      obtain ⟨hcreated, hid⟩ := h.bound database row hrow
      exact ⟨hcreated.trans hlater, hid⟩
    | ok project =>
      have hproject : params.project.map trimProject = project := by
        unfold checkContextUpdate at hcheck
        split_ifs at hcheck
        cases hgiven : params.project with
        | none =>
          rw [hgiven] at hcheck
          cases hcheck
          rfl
        | some name =>
          rw [hgiven] at hcheck
          dsimp only at hcheck
          split_ifs at hcheck
          cases hcheck
          rfl
      apply h.record hlater (env.databaseOf project) .editorContextUpdated project
        (some params.capsule)
      rintro row home heq
      cases heq
      constructor
      · rw [← hproject]
        rfl
      · intro context hmem
        rw [List.mem_singleton.mp hmem, ← hproject]
        rfl
  | otherEvent database eventType hother projectId =>
    have hrecord := h.record hlater database eventType projectId none [] (by
      rintro row home heq
      cases heq
      refine ⟨?_, fun _ hmem => nomatch hmem⟩
      rw [editorContextFromAudit, if_pos hother]
      rfl)
    rw [List.append_nil] at hrecord
    exact hrecord

theorem Logged.run {history : List (Nat × AuditOperation δ κ)} (h : Logged env w now)
    (hclock : (history.map Prod.fst).Pairwise (· ≤ ·)) (hlater : ∀ step ∈ history, now ≤ step.1) :
    ∃ last, Logged env (history.foldl (DevRelay.Editor.performAt env) w) last := by
  induction history generalizing w now with
  | nil => exact ⟨now, h⟩
  | cons step history ih =>
    obtain ⟨hfirst, hrest⟩ := List.pairwise_cons.mp hclock
    apply ih (h.performAt step (hlater step List.mem_cons_self)) hrest
    intro next hnext
    exact hfirst next.1 (List.mem_map_of_mem hnext)

/-- At a clock that does not go back every database is a log of what was accepted for it. -/
theorem exists_logged (env : ContextEnv δ κ) {history : List (Nat × AuditOperation δ κ)}
    (hclock : (history.map Prod.fst).Pairwise (· ≤ ·)) :
    ∃ last, Logged env (runHistory env history) last := by
  have hbegin : Logged env ⟨fun _ => [], []⟩ 0 :=
    ⟨fun _ => List.Pairwise.nil, fun _ _ hmem => (nomatch hmem), fun _ => rfl⟩
  exact hbegin.run hclock fun step _ => Nat.zero_le step.1

/-- The contexts of a project are those that were accepted for it. -/
theorem contexts_of_project (h : Logged env w now) (project : String) :
    (selectedRows (some project) (w.home (env.databaseOf (some project)))).filterMap
        editorContextFromAudit =
      w.accepted.filter fun context => context.project = some project := by
  have hcontexts := congrArg (List.filter fun context : EditorContextSnapshot κ =>
    context.project = some project) (h.contexts (env.databaseOf (some project)))
  rw [List.filter_filter] at hcontexts
  have hrows : ∀ rows : List (AuditRow κ), (selectedRows (some project) rows).filterMap
      editorContextFromAudit = (rows.filterMap editorContextFromAudit).filter
        fun context => context.project = some project := by
    intro rows
    rw [selectedRows, List.filterMap_filter, List.filter_filterMap]
    congr 1
    funext row
    unfold editorContextFromAudit
    by_cases htype : row.eventType = .editorContextUpdated
    · cases row.capsule <;> by_cases hproject : row.projectId = some project <;>
        simp [htype, hproject, Option.filter]
    · simp [htype]
  rw [hrows, hcontexts]
  congr 1
  funext context
  by_cases hproject : context.project = some project
  · simp [hproject]
  · simp [hproject]

theorem newestContexts_eq_nil {rows : List (AuditRow κ)}
    (h : rows.filterMap editorContextFromAudit = []) : newestContexts rows = [] := by
  rw [newestContexts, List.filterMap_eq_nil_iff]
  intro row hrow
  have hmem : row ∈ rows := List.mem_reverse.mp (List.mem_of_mem_take hrow)
  exact List.filterMap_eq_nil_iff.mp h row hmem

theorem latest_project_iff (h : Logged env w now) {registered : List String} {project : String}
    (hproject : project ∈ registered) :
    handleEditorContextLatest env registered (some project) w.home =
        .ok (lastAccepted registered (some project) w.accepted) ↔
      Findable env registered (some project) w.home
        (lastAccepted registered (some project) w.accepted) := by
  have hlast : lastAccepted registered (some project) w.accepted =
      ((selectedRows (some project) (w.home (env.databaseOf (some project)))).filterMap
        editorContextFromAudit).getLast? := by
    rw [contexts_of_project h]
    rfl
  rw [latest_of_project h.ascending hproject, Except.ok.injEq]
  cases hcontext : lastAccepted registered (some project) w.accepted with
  | none =>
    rw [hcontext] at hlast
    have hnil := newestContexts_eq_nil (List.getLast?_eq_none_iff.mp hlast.symm)
    rw [hnil]
    exact iff_of_true rfl trivial
  | some context => exact head?_newestContexts

end Histories

/-- The latest context is the last one that was accepted exactly if that one can be found. -/
theorem latest_iff [DecidableEq δ] (env : ContextEnv δ κ)
    {history : List (Nat × AuditOperation δ κ)}
    (hclock : (history.map Prod.fst).Pairwise (· ≤ ·)) (registered : List String)
    {query : Option String} (hquery : ∀ project, query = some project → project ∈ registered) :
    handleEditorContextLatest env registered query (runHistory env history).home =
        .ok (lastAccepted registered query (runHistory env history).accepted) ↔
      Findable env registered query (runHistory env history).home
        (lastAccepted registered query (runHistory env history).accepted) := by
  obtain ⟨now, hlogged⟩ := exists_logged env hclock
  cases query with
  | some project => exact latest_project_iff hlogged (hquery project rfl)
  | none =>
    cases lastAccepted registered none (runHistory env history).accepted with
    | none => exact latest_none_eq_none_iff hlogged.ascending
    | some context => exact latest_none_eq_some_iff hlogged.ascending

/-! ## A hundred other events

One context for a project, and then a hundred published snapshots.
-/

def demoContextEnv : ContextEnv (Option String) Nat where
  isObject _ := true
  encodedLength capsule := capsule
  databaseOf := id

def demoUpdate : Nat × AuditOperation (Option String) Nat :=
  (1, .contextUpdate ⟨some "p", none, 2⟩)

def demoPublish : Nat × AuditOperation (Option String) Nat :=
  (1, .otherEvent (some "p") .snapshotPublished (by decide) (some "p"))

/-- Right behind the update it is the answer. -/
theorem latest_after_update :
    handleEditorContextLatest demoContextEnv ["p"] (some "p")
        (runHistory demoContextEnv [demoUpdate, demoPublish]).home =
      .ok (lastAccepted ["p"] (some "p")
        (runHistory demoContextEnv [demoUpdate, demoPublish]).accepted) := by
  apply (latest_iff demoContextEnv (by decide) ["p"] (by
    rintro project ⟨⟩
    exact List.mem_singleton_self _)).mpr
  exact ⟨[], ⟨1, .editorContextUpdated, some "p", some 2, 1⟩,
    [⟨2, .snapshotPublished, some "p", none, 1⟩], by decide, by decide,
    by decide, by decide⟩

theorem context_is_buried :
    ¬∀ (env : ContextEnv (Option String) Nat)
      (history : List (Nat × AuditOperation (Option String) Nat)),
      (history.map Prod.fst).Pairwise (· ≤ ·) →
      ∀ (registered : List String) (query : Option String),
        (∀ project, query = some project → project ∈ registered) →
        handleEditorContextLatest env registered query (runHistory env history).home =
          .ok (lastAccepted registered query (runHistory env history).accepted) := by
  intro hall
  have hclaim := hall demoContextEnv (demoUpdate :: List.replicate 100 demoPublish)
    (by decide) ["p"] (some "p") (by
      rintro project ⟨⟩
      exact List.mem_singleton_self _)
  revert hclaim
  decide +kernel

end DevRelay.Editor
