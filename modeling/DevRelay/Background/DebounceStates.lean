import DevRelay.Background.Debounce

/-!
# One workspace of the debouncer

The workspaces of the debouncer do not touch each other.  Seen from one of
them, a drain takes the checkpoint and the publication that its own state says,
and every other call changes its own state or nothing.
-/

namespace DevRelay.Background

open Lib

/-- `entry(workspace_id).or_default()` -/
def AdaptiveDebouncer.stateOf (d : AdaptiveDebouncer) (workspaceId : String) :
    WorkspaceDebounceState :=
  (d.workspaces.find? workspaceId).getD .new

namespace WorkspaceDebounceState

def observed (state : WorkspaceDebounceState) (change : CoalescedWorkspaceChange)
    (now : Duration) : WorkspaceDebounceState :=
  { state with
    firstDirtyAt := state.firstDirtyAt.or (some now)
    lastDirtyEventAt := some now
    sourceGeneration := max state.sourceGeneration change.sourceGeneration
    pendingPaths := state.pendingPaths ∪ change.paths }

def checkpointCompleted (state : WorkspaceDebounceState) (sourceGeneration : UInt64)
    (now : Duration) : WorkspaceDebounceState :=
  { state with
    firstUnpublishedAt := state.firstUnpublishedAt.or (some now)
    lastUnpublishedAt := some now
    publishGeneration := some (max (state.publishGeneration.getD 0) sourceGeneration) }

/-- The checkpoint that is taken for a reason, if there is one. -/
def takeCheckpoint (workspaceId : String) (now : Duration)
    (reason : Option DebounceFlushReason) (state : WorkspaceDebounceState) :
    WorkspaceDebounceState × Option DebouncedCheckpoint :=
  match reason with
  | none => (state, none)
  | some reason =>
    if state.pendingPaths = ∅ then (state, none)
    else
      ({ state with
          pendingPaths := ∅
          firstDirtyAt := none
          lastDirtyEventAt := none
          lastCheckpointAt := some now },
        some { workspaceId := workspaceId, sourceGeneration := state.sourceGeneration,
               reason := reason, paths := state.pendingPaths })

/-- The publication that is taken for a reason, if there is one. -/
def takePublish (workspaceId : String) (now : Duration)
    (reason : Option DebounceFlushReason) (state : WorkspaceDebounceState) :
    WorkspaceDebounceState × Option DebouncedPublish :=
  match reason, state.publishGeneration with
  | some reason, some sourceGeneration =>
    ({ state with
        publishGeneration := none
        firstUnpublishedAt := none
        lastUnpublishedAt := none
        lastPublishAt := some now },
      some { workspaceId := workspaceId, sourceGeneration := sourceGeneration,
             reason := reason })
  | _, _ => (state, none)

end WorkspaceDebounceState

namespace AdaptiveDebouncer

variable {d : AdaptiveDebouncer} {workspaceId other : String}

theorem stateOf_insert (map : SortedMap String WorkspaceDebounceState)
    (state : WorkspaceDebounceState) (policy : BackgroundDebouncePolicy) :
    stateOf ⟨policy, map.insert other state⟩ workspaceId =
      if workspaceId = other then state else stateOf ⟨policy, map⟩ workspaceId := by
  unfold stateOf
  by_cases hid : workspaceId = other
  · subst hid
    rw [if_pos rfl, SortedMap.find?_insert_self]
    rfl
  · rw [if_neg hid, SortedMap.find?_insert_of_ne hid]

theorem stateOf_observeChange (change : CoalescedWorkspaceChange) (now : Duration) :
    (d.observeChange change now).stateOf workspaceId =
      if workspaceId = change.workspaceId ∧ change.paths ≠ ∅ then
        (d.stateOf workspaceId).observed change now
      else d.stateOf workspaceId := by
  unfold observeChange
  by_cases hpaths : change.paths = ∅
  · rw [if_pos hpaths, if_neg (fun h => h.2 hpaths)]
  · rw [if_neg hpaths]
    unfold SortedMap.modify
    rw [stateOf_insert]
    by_cases hid : workspaceId = change.workspaceId
    · subst hid
      rw [if_pos rfl, if_pos ⟨rfl, hpaths⟩]
      rfl
    · rw [if_neg hid, if_neg (fun h => hid h.1)]

theorem stateOf_recordCheckpointCompleted (sourceGeneration : UInt64) (now : Duration) :
    (d.recordCheckpointCompleted other sourceGeneration now).stateOf workspaceId =
      if workspaceId = other then
        (d.stateOf workspaceId).checkpointCompleted sourceGeneration now
      else d.stateOf workspaceId := by
  unfold recordCheckpointCompleted SortedMap.modify
  rw [stateOf_insert]
  by_cases hid : workspaceId = other
  · subst hid
    rw [if_pos rfl, if_pos rfl]
    rfl
  · rw [if_neg hid, if_neg hid]

/-! ## Taking from one workspace -/

/-- The take works on the state of its workspace alone. -/
structure Local {α : Type} (policy : BackgroundDebouncePolicy)
    (take : AdaptiveDebouncer → String → AdaptiveDebouncer × Option α)
    (own : String → WorkspaceDebounceState → WorkspaceDebounceState × Option α) : Prop where
  keeps : ∀ d other, d.policy = policy → (take d other).1.policy = policy
  output : ∀ d other, d.policy = policy → (take d other).2 = (own other (d.stateOf other)).2
  state : ∀ d other workspaceId, d.policy = policy → (take d other).1.stateOf workspaceId =
    if workspaceId = other then (own other (d.stateOf other)).1 else d.stateOf workspaceId

theorem stateOf_of_find? {state : WorkspaceDebounceState}
    (h : d.workspaces.find? workspaceId = some state) : d.stateOf workspaceId = state := by
  rw [stateOf, h]
  rfl

theorem stateOf_of_absent (h : d.workspaces.find? workspaceId = none) :
    d.stateOf workspaceId = .new := by
  rw [stateOf, h]
  rfl

/-- A take that leaves the debouncer alone. -/
private theorem stateOf_same (workspaceId other : String) : d.stateOf workspaceId =
    if workspaceId = other then d.stateOf other else d.stateOf workspaceId := by
  by_cases hid : workspaceId = other
  · rw [if_pos hid, hid]
  · rw [if_neg hid]

theorem local_takeCheckpoint (policy : BackgroundDebouncePolicy) (now : Duration)
    (reason : DebounceFlushReason) :
    Local policy (takeCheckpoint · · now reason)
      (fun id => WorkspaceDebounceState.takeCheckpoint id now (some reason)) := by
  refine ⟨?_, ?_, ?_⟩
  · intro d other hpolicy
    dsimp only [takeCheckpoint]
    split
    · exact hpolicy
    · split
      · exact hpolicy
      · exact hpolicy
  · intro d other _
    dsimp only [takeCheckpoint, WorkspaceDebounceState.takeCheckpoint]
    cases hfind : d.workspaces.find? other with
    | none =>
      rw [stateOf_of_absent hfind]
      rfl
    | some state =>
      rw [stateOf_of_find? hfind]
      by_cases hempty : state.pendingPaths = ∅
      · simp only [if_pos hempty]
      · simp only [if_neg hempty]
  · intro d other workspaceId _
    dsimp only [takeCheckpoint, WorkspaceDebounceState.takeCheckpoint]
    cases hfind : d.workspaces.find? other with
    | none =>
      have hnew := stateOf_of_absent hfind
      rw [if_pos (show (d.stateOf other).pendingPaths = ∅ by rw [hnew]; rfl)]
      exact stateOf_same workspaceId other
    | some state =>
      have hstate := stateOf_of_find? hfind
      by_cases hempty : state.pendingPaths = ∅
      · rw [if_pos (show (d.stateOf other).pendingPaths = ∅ by rw [hstate]; exact hempty)]
        simp only [if_pos hempty]
        exact stateOf_same workspaceId other
      · rw [hstate]
        simp only [if_neg hempty]
        exact stateOf_insert _ _ _

theorem local_takePublish (policy : BackgroundDebouncePolicy) (now : Duration)
    (reason : DebounceFlushReason) :
    Local policy (takePublish · · now reason)
      (fun id => WorkspaceDebounceState.takePublish id now (some reason)) := by
  refine ⟨?_, ?_, ?_⟩
  · intro d other hpolicy
    dsimp only [takePublish]
    split
    · exact hpolicy
    · split
      · exact hpolicy
      · exact hpolicy
  · intro d other _
    dsimp only [takePublish, WorkspaceDebounceState.takePublish]
    cases hfind : d.workspaces.find? other with
    | none =>
      rw [stateOf_of_absent hfind]
      rfl
    | some state =>
      rw [stateOf_of_find? hfind]
      cases hgeneration : state.publishGeneration with
      | none => simp only [hgeneration]
      | some sourceGeneration => simp only [hgeneration]
  · intro d other workspaceId _
    dsimp only [takePublish, WorkspaceDebounceState.takePublish]
    cases hfind : d.workspaces.find? other with
    | none =>
      have hnew : (d.stateOf other).publishGeneration = none := by
        rw [stateOf_of_absent hfind]
        rfl
      simp only [hnew]
      exact stateOf_same workspaceId other
    | some state =>
      have hstate := stateOf_of_find? hfind
      cases hgeneration : state.publishGeneration with
      | none =>
        simp only [hgeneration, hstate]
        rw [← hstate]
        exact stateOf_same workspaceId other
      | some sourceGeneration =>
        rw [hstate]
        simp only [hgeneration]
        exact stateOf_insert _ _ _

/-- A take that first asks the state of its workspace for a reason. -/
theorem Local.due {α : Type} {policy : BackgroundDebouncePolicy}
    (take : DebounceFlushReason → AdaptiveDebouncer → String → AdaptiveDebouncer × Option α)
    (own : Option DebounceFlushReason → String → WorkspaceDebounceState →
      WorkspaceDebounceState × Option α)
    {due : WorkspaceDebounceState → Option DebounceFlushReason}
    {takeDue : AdaptiveDebouncer → String → AdaptiveDebouncer × Option α}
    (htake : ∀ reason, Local policy (take reason) (own (some reason)))
    (hown : ∀ id state, own none id state = (state, none))
    (hnone : ∀ d other, d.policy = policy → due (d.stateOf other) = none →
      takeDue d other = (d, none))
    (hsome : ∀ d other reason, d.policy = policy → due (d.stateOf other) = some reason →
      takeDue d other = take reason d other) :
    Local policy takeDue (fun id state => own (due state) id state) := by
  refine ⟨?_, ?_, ?_⟩
  · intro d other hpolicy
    cases hdue : due (d.stateOf other) with
    | none =>
      rw [hnone d other hpolicy hdue]
      exact hpolicy
    | some reason =>
      rw [hsome d other reason hpolicy hdue]
      exact (htake reason).keeps d other hpolicy
  · intro d other hpolicy
    cases hdue : due (d.stateOf other) with
    | none => rw [hnone d other hpolicy hdue, hown]
    | some reason =>
      rw [hsome d other reason hpolicy hdue]
      exact (htake reason).output d other hpolicy
  · intro d other workspaceId hpolicy
    cases hdue : due (d.stateOf other) with
    | none =>
      rw [hnone d other hpolicy hdue, hown]
      exact stateOf_same workspaceId other
    | some reason =>
      rw [hsome d other reason hpolicy hdue]
      exact (htake reason).state d other workspaceId hpolicy

theorem bind_due (due : WorkspaceDebounceState → Option DebounceFlushReason)
    (hnew : due .new = none) (d : AdaptiveDebouncer) (other : String) :
    (d.workspaces.find? other).bind due = due (d.stateOf other) := by
  cases hfind : d.workspaces.find? other with
  | none =>
    rw [stateOf_of_absent hfind, hnew]
    rfl
  | some state =>
    rw [stateOf_of_find? hfind]
    rfl

theorem local_takeDueCheckpoint (policy : BackgroundDebouncePolicy) (now : Duration) :
    Local policy (takeDueCheckpoint · · now) (fun id state =>
      state.takeCheckpoint id now (dueCheckpointReason policy state now)) := by
  have hdue : ∀ (d : AdaptiveDebouncer) (other : String), d.policy = policy →
      (d.workspaces.find? other).bind (dueCheckpointReason d.policy · now) =
        dueCheckpointReason policy (d.stateOf other) now := by
    intro d other hpolicy
    rw [hpolicy]
    exact bind_due (dueCheckpointReason policy · now) rfl d other
  apply Local.due (fun reason d id => d.takeCheckpoint id now reason)
    (fun reason id state => state.takeCheckpoint id now reason)
    (fun reason => local_takeCheckpoint policy now reason) (fun _ _ => rfl)
  · intro d other hpolicy hnone
    dsimp only [takeDueCheckpoint]
    rw [hdue d other hpolicy, hnone]
  · intro d other reason hpolicy hsome
    dsimp only [takeDueCheckpoint]
    rw [hdue d other hpolicy, hsome]

theorem local_takeDuePublish (policy : BackgroundDebouncePolicy) (now : Duration) :
    Local policy (takeDuePublish · · now) (fun id state =>
      state.takePublish id now (duePublishReason policy state now)) := by
  have hdue : ∀ (d : AdaptiveDebouncer) (other : String), d.policy = policy →
      (d.workspaces.find? other).bind (duePublishReason d.policy · now) =
        duePublishReason policy (d.stateOf other) now := by
    intro d other hpolicy
    rw [hpolicy]
    exact bind_due (duePublishReason policy · now) rfl d other
  apply Local.due (fun reason d id => d.takePublish id now reason)
    (fun reason id state => state.takePublish id now reason)
    (fun reason => local_takePublish policy now reason) (fun _ _ => rfl)
  · intro d other hpolicy hnone
    dsimp only [takeDuePublish]
    rw [hdue d other hpolicy, hnone]
  · intro d other reason hpolicy hsome
    dsimp only [takeDuePublish]
    rw [hdue d other hpolicy, hsome]

end AdaptiveDebouncer

/-! ## Drains -/

/-- What a drain does to one workspace. -/
structure WorkspaceDrain where
  state : WorkspaceDebounceState
  checkpoint : Option DebouncedCheckpoint
  publish : Option DebouncedPublish

/-- First the checkpoint, then the publication, each for the reason that the state
gives then. -/
def WorkspaceDebounceState.drain (workspaceId : String) (now : Duration)
    (checkpointReason publishReason : WorkspaceDebounceState → Option DebounceFlushReason)
    (state : WorkspaceDebounceState) : WorkspaceDrain :=
  let afterCheckpoint := state.takeCheckpoint workspaceId now (checkpointReason state)
  let afterPublish := afterCheckpoint.1.takePublish workspaceId now
    (publishReason afterCheckpoint.1)
  { state := afterPublish.1, checkpoint := afterCheckpoint.2, publish := afterPublish.2 }

theorem WorkspaceDebounceState.takeCheckpoint_workspaceId {workspaceId : String}
    {now : Duration} {reason : Option DebounceFlushReason} {state : WorkspaceDebounceState}
    {checkpoint : DebouncedCheckpoint}
    (h : (state.takeCheckpoint workspaceId now reason).2 = some checkpoint) :
    checkpoint.workspaceId = workspaceId := by
  cases reason with
  | none => cases h
  | some reason =>
    dsimp only [takeCheckpoint] at h
    split at h
    · cases h
    · rw [← Option.some.inj h]

theorem WorkspaceDebounceState.takePublish_workspaceId {workspaceId : String}
    {now : Duration} {reason : Option DebounceFlushReason} {state : WorkspaceDebounceState}
    {publish : DebouncedPublish} (h : (state.takePublish workspaceId now reason).2 = some publish) :
    publish.workspaceId = workspaceId := by
  unfold takePublish at h
  split at h
  · rw [← Option.some.inj h]
  · cases h

namespace AdaptiveDebouncer

/-- The share of one workspace in a part of a drain. -/
structure Shares (before after : AdaptiveDebouncer × DebounceDrain) (workspaceId : String)
    (state : WorkspaceDebounceState) (checkpoints : List DebouncedCheckpoint)
    (publishes : List DebouncedPublish) : Prop where
  state : after.1.stateOf workspaceId = state
  checkpoints : after.2.checkpoints.filter (fun c => c.workspaceId = workspaceId) =
    before.2.checkpoints.filter (fun c => c.workspaceId = workspaceId) ++ checkpoints
  publishes : after.2.publishes.filter (fun p => p.workspaceId = workspaceId) =
    before.2.publishes.filter (fun p => p.workspaceId = workspaceId) ++ publishes

theorem Shares.trans {a b c : AdaptiveDebouncer × DebounceDrain} {workspaceId : String}
    {state state' : WorkspaceDebounceState} {checkpoints checkpoints' : List DebouncedCheckpoint}
    {publishes publishes' : List DebouncedPublish}
    (h : Shares a b workspaceId state checkpoints publishes)
    (h' : Shares b c workspaceId state' checkpoints' publishes') :
    Shares a c workspaceId state' (checkpoints ++ checkpoints') (publishes ++ publishes') where
  state := h'.state
  checkpoints := by rw [h'.checkpoints, h.checkpoints, List.append_assoc]
  publishes := by rw [h'.publishes, h.publishes, List.append_assoc]

/-- The share of a drain of the workspace itself. -/
abbrev SharesDrain (before after : AdaptiveDebouncer × DebounceDrain) (workspaceId : String)
    (drain : WorkspaceDrain) : Prop :=
  Shares before after workspaceId drain.state drain.checkpoint.toList drain.publish.toList

section

variable {policy : BackgroundDebouncePolicy} {now : Duration}
  {checkpointReason publishReason : WorkspaceDebounceState → Option DebounceFlushReason}
  {checkpoint : AdaptiveDebouncer → String → AdaptiveDebouncer × Option DebouncedCheckpoint}
  {publish : AdaptiveDebouncer → String → AdaptiveDebouncer × Option DebouncedPublish}

private theorem filter_toList_of_eq {α : Type} {p : α → Prop} [DecidablePred p] {o : Option α}
    (h : ∀ a, o = some a → p a) : o.toList.filter (fun a => p a) = o.toList := by
  cases o with
  | none => rfl
  | some a => simp [h a rfl]

private theorem filter_toList_of_ne {α : Type} {p : α → Prop} [DecidablePred p] {o : Option α}
    (h : ∀ a, o = some a → ¬p a) : o.toList.filter (fun a => p a) = [] := by
  cases o with
  | none => rfl
  | some a => simp [h a rfl]

variable (hcheckpoint : Local policy checkpoint fun id state =>
    state.takeCheckpoint id now (checkpointReason state))
  (hpublish : Local policy publish fun id state =>
    state.takePublish id now (publishReason state))
include hcheckpoint hpublish

/-- One workspace of a drain, seen from itself. -/
theorem takeWorkspace_own (acc : AdaptiveDebouncer × DebounceDrain)
    (hpolicy : acc.1.policy = policy) (workspaceId : String) :
    SharesDrain acc (takeWorkspace checkpoint publish acc workspaceId) workspaceId
      ((acc.1.stateOf workspaceId).drain workspaceId now checkpointReason publishReason) := by
  have hkept := hcheckpoint.keeps acc.1 workspaceId hpolicy
  have hown := hcheckpoint.state acc.1 workspaceId workspaceId hpolicy
  rw [if_pos rfl] at hown
  refine ⟨?_, ?_, ?_⟩
  · have hfinal := hpublish.state _ workspaceId workspaceId hkept
    rw [if_pos rfl, hown] at hfinal
    exact hfinal
  · show (acc.2.checkpoints ++ _).filter _ = _
    rw [List.filter_append, hcheckpoint.output acc.1 workspaceId hpolicy]
    exact congrArg _ (filter_toList_of_eq
      (fun c hc => WorkspaceDebounceState.takeCheckpoint_workspaceId hc))
  · show (acc.2.publishes ++ _).filter _ = _
    rw [List.filter_append, hpublish.output _ workspaceId hkept, hown]
    exact congrArg _ (filter_toList_of_eq
      (fun p hp => WorkspaceDebounceState.takePublish_workspaceId hp))

/-- One workspace of a drain, seen from another. -/
theorem takeWorkspace_other (acc : AdaptiveDebouncer × DebounceDrain)
    (hpolicy : acc.1.policy = policy) {workspaceId other : String} (hne : workspaceId ≠ other) :
    Shares acc (takeWorkspace checkpoint publish acc other) workspaceId
      (acc.1.stateOf workspaceId) [] [] := by
  have hkept := hcheckpoint.keeps acc.1 other hpolicy
  refine ⟨?_, ?_, ?_⟩
  · have hfinal := hpublish.state _ other workspaceId hkept
    rw [if_neg hne, hcheckpoint.state acc.1 other workspaceId hpolicy, if_neg hne] at hfinal
    exact hfinal
  · show (acc.2.checkpoints ++ _).filter _ = _
    rw [List.filter_append, hcheckpoint.output acc.1 other hpolicy, filter_toList_of_ne]
    intro c hc heq
    exact hne (heq.symm.trans (WorkspaceDebounceState.takeCheckpoint_workspaceId hc))
  · show (acc.2.publishes ++ _).filter _ = _
    rw [List.filter_append, hpublish.output _ other hkept, filter_toList_of_ne]
    intro p hp heq
    exact hne (heq.symm.trans (WorkspaceDebounceState.takePublish_workspaceId hp))

theorem takeWorkspaces_policy (ids : List String) (acc : AdaptiveDebouncer × DebounceDrain)
    (hpolicy : acc.1.policy = policy) :
    (ids.foldl (takeWorkspace checkpoint publish) acc).1.policy = policy := by
  apply List.foldlRecOn (motive := fun acc : AdaptiveDebouncer × DebounceDrain =>
    acc.1.policy = policy)
  · exact hpolicy
  · intro acc hacc other _
    exact hpublish.keeps _ other (hcheckpoint.keeps acc.1 other hacc)

/-- A drain over workspaces without repetition takes from each of them once. -/
theorem takeWorkspaces_shares {ids : List String} (hnodup : ids.Nodup)
    (acc : AdaptiveDebouncer × DebounceDrain) (hpolicy : acc.1.policy = policy)
    (workspaceId : String) :
    (workspaceId ∈ ids →
      SharesDrain acc (ids.foldl (takeWorkspace checkpoint publish) acc) workspaceId
        ((acc.1.stateOf workspaceId).drain workspaceId now checkpointReason publishReason)) ∧
    (workspaceId ∉ ids →
      Shares acc (ids.foldl (takeWorkspace checkpoint publish) acc) workspaceId
        (acc.1.stateOf workspaceId) [] []) := by
  induction ids generalizing acc with
  | nil =>
    refine ⟨fun h => absurd h List.not_mem_nil, fun _ => ⟨rfl, ?_, ?_⟩⟩
    · exact (List.append_nil _).symm
    · exact (List.append_nil _).symm
  | cons other rest ih =>
    obtain ⟨hother, hrest⟩ := List.nodup_cons.mp hnodup
    have hpolicy' := takeWorkspaces_policy hcheckpoint hpublish [other] acc hpolicy
    obtain ⟨hmem, hnotMem⟩ := ih hrest _ hpolicy'
    constructor
    · intro hin
      by_cases hid : workspaceId = other
      · -- its turn is now, and it does not come again
        subst hid
        have hnow := takeWorkspace_own hcheckpoint hpublish acc hpolicy workspaceId
        have hall := hnow.trans (hnotMem hother)
        rw [List.append_nil, List.append_nil] at hall
        refine ⟨?_, hall.checkpoints, hall.publishes⟩
        exact hall.state.trans hnow.state
      · have hnow := takeWorkspace_other hcheckpoint hpublish acc hpolicy hid
        have hlater := hmem ((List.mem_cons.mp hin).resolve_left hid)
        have hall := hnow.trans hlater
        have hsame := hnow.state
        rw [show (List.foldl (takeWorkspace checkpoint publish) acc [other]) =
          takeWorkspace checkpoint publish acc other from rfl, hsame] at hall
        exact hall
    · intro hnot
      have hid : workspaceId ≠ other := fun heq => hnot (List.mem_cons.mpr (Or.inl heq))
      have hnow := takeWorkspace_other hcheckpoint hpublish acc hpolicy hid
      have hall := hnow.trans (hnotMem (fun h => hnot (List.mem_cons_of_mem _ h)))
      refine ⟨?_, hall.checkpoints, hall.publishes⟩
      exact hall.state.trans hnow.state

/-- A whole drain, seen from any workspace: one that the debouncer has never seen
has nothing to take. -/
theorem drain_shares (hnewCheckpoint : ∀ id, WorkspaceDebounceState.new.takeCheckpoint id now
      (checkpointReason .new) = (.new, none))
    (hnewPublish : ∀ id, WorkspaceDebounceState.new.takePublish id now (publishReason .new) =
      (.new, none))
    (d : AdaptiveDebouncer) (hpolicy : d.policy = policy) (workspaceId : String) :
    SharesDrain (d, ⟨[], []⟩)
      (d.workspaces.keys.foldl (takeWorkspace checkpoint publish) (d, ⟨[], []⟩)) workspaceId
      ((d.stateOf workspaceId).drain workspaceId now checkpointReason publishReason) := by
  obtain ⟨hmem, hnotMem⟩ := takeWorkspaces_shares hcheckpoint hpublish
    (SortedMap.nodup_keys d.workspaces) (d, ⟨[], []⟩) hpolicy workspaceId
  by_cases hin : workspaceId ∈ d.workspaces.keys
  · exact hmem hin
  · have hnew : d.stateOf workspaceId = .new :=
      stateOf_of_absent (SortedMap.find?_eq_none_of_not_mem_keys hin)
    have hall := hnotMem hin
    rw [show (d, (⟨[], []⟩ : DebounceDrain)).1.stateOf workspaceId = .new from hnew] at hall
    rw [hnew]
    unfold WorkspaceDebounceState.drain
    rw [hnewCheckpoint workspaceId]
    dsimp only
    rw [hnewPublish workspaceId]
    exact hall

end

end AdaptiveDebouncer

end DevRelay.Background
