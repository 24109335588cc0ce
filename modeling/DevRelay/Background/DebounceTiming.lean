import DevRelay.Background.DebounceStates
import DevRelay.Lib.Accumulation

/-!
# When the debouncer fires

A run of the debouncer is a list of calls with the caller's clock.  The times
it keeps for a workspace are those of the first change, and of the first
completed checkpoint, that nothing has taken since; so no change waits for
longer than the bound of the policy.
-/

namespace DevRelay.Background

open Lib

inductive DebounceEvent where
  | observeChange (change : CoalescedWorkspaceChange)
  | recordCheckpointCompleted (workspaceId : String) (sourceGeneration : UInt64)
  | drainDue
  | flushAll (reason : DebounceFlushReason)

structure DebounceCall where
  now : Duration
  event : DebounceEvent

namespace AdaptiveDebouncer

def call (d : AdaptiveDebouncer) (c : DebounceCall) : AdaptiveDebouncer × DebounceDrain :=
  match c.event with
  | .observeChange change => (d.observeChange change c.now, ⟨[], []⟩)
  | .recordCheckpointCompleted workspaceId sourceGeneration =>
    (d.recordCheckpointCompleted workspaceId sourceGeneration c.now, ⟨[], []⟩)
  | .drainDue => d.drainDue c.now
  | .flushAll reason => d.flushAll c.now reason

end AdaptiveDebouncer

/-- The debouncer after the first `n` calls. -/
abbrev debouncerAt (policy : BackgroundDebouncePolicy) (calls : List DebounceCall) (n : Nat) :
    AdaptiveDebouncer :=
  stateAt (fun d c => (AdaptiveDebouncer.call d c).1) (.new policy) calls n

/-- What call `n` returns. -/
def drainAt (policy : BackgroundDebouncePolicy) (calls : List DebounceCall) (n : Nat) :
    DebounceDrain :=
  match calls[n]? with
  | none => ⟨[], []⟩
  | some c => ((debouncerAt policy calls n).call c).2

/-! ## The history -/

/-- Call `n` is an observation of the workspace that names some path. -/
def ChangedAt (calls : List DebounceCall) (workspaceId : String) (n : Nat) (t : Duration) : Prop :=
  ∃ change, calls[n]? = some ⟨t, .observeChange change⟩ ∧
    change.workspaceId = workspaceId ∧ change.paths ≠ ∅

def CompletedAt (calls : List DebounceCall) (workspaceId : String) (n : Nat)
    (sourceGeneration : UInt64) (t : Duration) : Prop :=
  calls[n]? = some ⟨t, .recordCheckpointCompleted workspaceId sourceGeneration⟩

def DrainsDueAt (calls : List DebounceCall) (n : Nat) (now : Duration) : Prop :=
  calls[n]? = some ⟨now, .drainDue⟩

section

variable (policy : BackgroundDebouncePolicy) (calls : List DebounceCall) (workspaceId : String)

def RequestsAt (n : Nat) : Prop :=
  ∃ checkpoint ∈ (drainAt policy calls n).checkpoints, checkpoint.workspaceId = workspaceId

def PublishesAt (n : Nat) : Prop :=
  ∃ publish ∈ (drainAt policy calls n).publishes, publish.workspaceId = workspaceId

/-- No checkpoint request has taken the change of call `i` when call `n` comes. -/
def Undrained (i n : Nat) : Prop :=
  i < n ∧ ∀ k, i < k → k < n → ¬RequestsAt policy calls workspaceId k

/-- No publish request has followed the completion of call `i` when call `n` comes. -/
def Unpublished (i n : Nat) : Prop :=
  i < n ∧ ∀ k, i < k → k < n → ¬PublishesAt policy calls workspaceId k

end

/-! ## One workspace of a run -/

section

variable {policy : BackgroundDebouncePolicy} {calls : List DebounceCall} {workspaceId : String}

/-- What a call does to one workspace. -/
def WorkspaceDebounceState.call (policy : BackgroundDebouncePolicy) (workspaceId : String)
    (state : WorkspaceDebounceState) (c : DebounceCall) : WorkspaceDrain :=
  match c.event with
  | .observeChange change =>
    { state := if workspaceId = change.workspaceId ∧ change.paths ≠ ∅ then
        state.observed change c.now else state
      checkpoint := none
      publish := none }
  | .recordCheckpointCompleted other sourceGeneration =>
    { state := if workspaceId = other then
        state.checkpointCompleted sourceGeneration c.now else state
      checkpoint := none
      publish := none }
  | .drainDue =>
    state.drain workspaceId c.now
      (AdaptiveDebouncer.dueCheckpointReason policy · c.now)
      (AdaptiveDebouncer.duePublishReason policy · c.now)
  | .flushAll reason =>
    state.drain workspaceId c.now (fun _ => some reason) (fun _ => some reason)

theorem AdaptiveDebouncer.call_shares (d : AdaptiveDebouncer) (hpolicy : d.policy = policy)
    (c : DebounceCall) (workspaceId : String) :
    (d.call c).1.policy = policy ∧
      AdaptiveDebouncer.SharesDrain (d, ⟨[], []⟩) (d.call c) workspaceId
        ((d.stateOf workspaceId).call policy workspaceId c) := by
  obtain ⟨now, event⟩ := c
  cases event with
  | observeChange change =>
    refine ⟨?_, AdaptiveDebouncer.stateOf_observeChange change now, rfl, rfl⟩
    show (d.observeChange change now).policy = policy
    unfold observeChange
    split
    · exact hpolicy
    · exact hpolicy
  | recordCheckpointCompleted other sourceGeneration =>
    exact ⟨hpolicy, AdaptiveDebouncer.stateOf_recordCheckpointCompleted sourceGeneration now,
      rfl, rfl⟩
  | drainDue =>
    have hcheckpoint := local_takeDueCheckpoint policy now
    have hpublish := local_takeDuePublish policy now
    exact ⟨takeWorkspaces_policy hcheckpoint hpublish _ _ hpolicy,
      drain_shares hcheckpoint hpublish (fun _ => rfl) (fun _ => rfl) d hpolicy workspaceId⟩
  | flushAll reason =>
    have hcheckpoint := local_takeCheckpoint policy now reason
    have hpublish := local_takePublish policy now reason
    exact ⟨takeWorkspaces_policy hcheckpoint hpublish _ _ hpolicy,
      drain_shares hcheckpoint hpublish (fun _ => rfl) (fun _ => rfl) d hpolicy workspaceId⟩

end

/-! ## What a call does to the times -/

namespace WorkspaceDebounceState

/-- The time of a change of the workspace. -/
def changeTime (workspaceId : String) (c : DebounceCall) : Option Duration :=
  match c.event with
  | .observeChange change =>
    if workspaceId = change.workspaceId ∧ change.paths ≠ ∅ then some c.now else none
  | _ => none

/-- The generation of a completed checkpoint of the workspace. -/
def completedGeneration (workspaceId : String) (c : DebounceCall) : Option UInt64 :=
  match c.event with
  | .recordCheckpointCompleted other sourceGeneration =>
    if workspaceId = other then some sourceGeneration else none
  | _ => none

/-- The time of a completed checkpoint of the workspace. -/
def completionTime (workspaceId : String) (c : DebounceCall) : Option Duration :=
  (completedGeneration workspaceId c).map fun _ => c.now

section

variable {workspaceId : String} {now : Duration} {state : WorkspaceDebounceState}
  {c : DebounceCall}

/-- The fields that a taken checkpoint clears, and the time it sets. -/
structure CheckpointCleared (now : Duration) (state : WorkspaceDebounceState)
    (r : WorkspaceDebounceState × Option DebouncedCheckpoint) : Prop where
  firstDirtyAt : r.1.firstDirtyAt = if r.2.isSome then none else state.firstDirtyAt
  pendingPaths : r.1.pendingPaths = if r.2.isSome then ∅ else state.pendingPaths
  lastCheckpointAt : r.1.lastCheckpointAt =
    if r.2.isSome then some now else state.lastCheckpointAt
  firstUnpublishedAt : r.1.firstUnpublishedAt = state.firstUnpublishedAt
  publishGeneration : r.1.publishGeneration = state.publishGeneration

theorem takeCheckpoint_cleared (workspaceId : String) (now : Duration)
    (reason : Option DebounceFlushReason) (state : WorkspaceDebounceState) :
    CheckpointCleared now state (state.takeCheckpoint workspaceId now reason) := by
  cases reason with
  | none => exact ⟨rfl, rfl, rfl, rfl, rfl⟩
  | some r =>
    unfold takeCheckpoint
    by_cases hempty : state.pendingPaths = ∅
    · simp only [if_pos hempty]
      exact ⟨rfl, rfl, rfl, rfl, rfl⟩
    · simp only [if_neg hempty]
      exact ⟨rfl, rfl, rfl, rfl, rfl⟩

/-- The fields that a taken publication clears. -/
structure PublishCleared (state : WorkspaceDebounceState)
    (r : WorkspaceDebounceState × Option DebouncedPublish) : Prop where
  firstDirtyAt : r.1.firstDirtyAt = state.firstDirtyAt
  pendingPaths : r.1.pendingPaths = state.pendingPaths
  lastCheckpointAt : r.1.lastCheckpointAt = state.lastCheckpointAt
  firstUnpublishedAt : r.1.firstUnpublishedAt =
    if r.2.isSome then none else state.firstUnpublishedAt
  publishGeneration : r.1.publishGeneration =
    if r.2.isSome then none else state.publishGeneration
  published : ∀ publish, r.2 = some publish →
    state.publishGeneration = some publish.sourceGeneration

theorem takePublish_cleared (workspaceId : String) (now : Duration)
    (reason : Option DebounceFlushReason) (state : WorkspaceDebounceState) :
    PublishCleared state (state.takePublish workspaceId now reason) := by
  unfold takePublish
  split
  · rename_i r generation hgeneration
    exact ⟨rfl, rfl, rfl, rfl, rfl, fun publish h => by cases h; exact hgeneration⟩
  · exact ⟨rfl, rfl, rfl, rfl, rfl, fun publish h => by cases h⟩

/-- What a call does to the fields that the timing rests on. -/
structure CallEffect (workspaceId : String) (c : DebounceCall) (state : WorkspaceDebounceState)
    (r : WorkspaceDrain) : Prop where
  firstDirtyAt : r.state.firstDirtyAt =
    if r.checkpoint.isSome then none
    else collect (fun o t => o.getD t) state.firstDirtyAt (changeTime workspaceId c)
  pendingPaths : (r.state.firstDirtyAt.isSome → r.state.pendingPaths ≠ ∅) ∨
    (r.state.firstDirtyAt = state.firstDirtyAt ∧ r.state.pendingPaths = state.pendingPaths)
  lastCheckpointAt : r.state.lastCheckpointAt =
    if r.checkpoint.isSome then some c.now else state.lastCheckpointAt
  firstUnpublishedAt : r.state.firstUnpublishedAt =
    if r.publish.isSome then none
    else collect (fun o t => o.getD t) state.firstUnpublishedAt (completionTime workspaceId c)
  publishGeneration : r.state.publishGeneration =
    if r.publish.isSome then none
    else collect (fun o g => max (o.getD 0) g) state.publishGeneration
      (completedGeneration workspaceId c)
  published : ∀ publish, r.publish = some publish →
    state.publishGeneration = some publish.sourceGeneration

/-- A drain clears what it takes, and adds nothing. -/
theorem drain_effect (checkpointReason publishReason : WorkspaceDebounceState →
      Option DebounceFlushReason) (hchange : changeTime workspaceId c = none)
    (hcompleted : completedGeneration workspaceId c = none) :
    CallEffect workspaceId c state
      (state.drain workspaceId c.now checkpointReason publishReason) := by
  have hcheckpoint := takeCheckpoint_cleared workspaceId c.now (checkpointReason state) state
  have hpublish := takePublish_cleared workspaceId c.now
    (publishReason (state.takeCheckpoint workspaceId c.now (checkpointReason state)).1)
    (state.takeCheckpoint workspaceId c.now (checkpointReason state)).1
  refine ⟨?_, ?_, ?_, ?_, ?_, ?_⟩
  · rw [hchange]
    exact hpublish.firstDirtyAt.trans hcheckpoint.firstDirtyAt
  · have hdirty := hpublish.firstDirtyAt.trans hcheckpoint.firstDirtyAt
    have hpending := hpublish.pendingPaths.trans hcheckpoint.pendingPaths
    by_cases htaken : (state.takeCheckpoint workspaceId c.now (checkpointReason state)).2.isSome
    · left
      intro hsome
      rw [if_pos htaken] at hdirty
      rw [show (state.drain workspaceId c.now checkpointReason
        publishReason).state.firstDirtyAt = none from hdirty] at hsome
      cases hsome
    · rw [if_neg htaken] at hdirty hpending
      exact Or.inr ⟨hdirty, hpending⟩
  · exact hpublish.lastCheckpointAt.trans hcheckpoint.lastCheckpointAt
  · rw [completionTime, hcompleted]
    refine hpublish.firstUnpublishedAt.trans ?_
    rw [hcheckpoint.firstUnpublishedAt]
    rfl
  · rw [hcompleted]
    refine hpublish.publishGeneration.trans ?_
    rw [hcheckpoint.publishGeneration]
    rfl
  · intro publish h
    exact hcheckpoint.publishGeneration.symm.trans (hpublish.published publish h)

theorem call_effect (policy : BackgroundDebouncePolicy) (workspaceId : String)
    (state : WorkspaceDebounceState) (c : DebounceCall) :
    CallEffect workspaceId c state (state.call policy workspaceId c) := by
  obtain ⟨now, event⟩ := c
  cases event with
  | observeChange change =>
    by_cases hchange : workspaceId = change.workspaceId ∧ change.paths ≠ ∅
    · simp only [WorkspaceDebounceState.call, if_pos hchange]
      refine ⟨?_, ?_, rfl, rfl, rfl, fun _ h => by cases h⟩
      · simp only [changeTime, if_pos hchange]
        cases hdirty : state.firstDirtyAt with
        | none => simp [collect, observed, hdirty]
        | some t => simp [collect, observed, hdirty]
      · left
        intro _
        exact (Finset.nonempty_iff_ne_empty.mpr hchange.2).mono
          Finset.subset_union_right |>.ne_empty
    · simp only [WorkspaceDebounceState.call, if_neg hchange]
      refine ⟨?_, Or.inr ⟨rfl, rfl⟩, rfl, rfl, rfl, fun _ h => by cases h⟩
      simp only [changeTime, if_neg hchange]
      rfl
  | recordCheckpointCompleted other sourceGeneration =>
    by_cases hid : workspaceId = other
    · simp only [WorkspaceDebounceState.call, if_pos hid]
      refine ⟨rfl, Or.inr ⟨rfl, rfl⟩, rfl, ?_, ?_, fun _ h => by cases h⟩
      · simp only [completionTime, completedGeneration, if_pos hid]
        cases hunpublished : state.firstUnpublishedAt with
        | none => simp [collect, checkpointCompleted, hunpublished]
        | some t => simp [collect, checkpointCompleted, hunpublished]
      · simp only [completedGeneration, if_pos hid]
        rfl
    · simp only [WorkspaceDebounceState.call, if_neg hid]
      refine ⟨rfl, Or.inr ⟨rfl, rfl⟩, rfl, ?_, ?_, fun _ h => by cases h⟩
      · simp only [completionTime, completedGeneration, if_neg hid]
        rfl
      · simp only [completedGeneration, if_neg hid]
        rfl
  | drainDue =>
    exact drain_effect (c := ⟨now, .drainDue⟩)
      (AdaptiveDebouncer.dueCheckpointReason policy · now)
      (AdaptiveDebouncer.duePublishReason policy · now) rfl rfl
  | flushAll reason =>
    exact drain_effect (c := ⟨now, .flushAll reason⟩) (fun _ => some reason)
      (fun _ => some reason) rfl rfl

end

end WorkspaceDebounceState

/-! ## The times of a run -/

section

variable (policy : BackgroundDebouncePolicy) (calls : List DebounceCall) (workspaceId : String)

/-- The workspace when call `n` comes. -/
def workspaceAt (n : Nat) : WorkspaceDebounceState :=
  (debouncerAt policy calls n).stateOf workspaceId

theorem debouncerAt_policy (n : Nat) : (debouncerAt policy calls n).policy = policy := by
  apply stateAt_invariant (I := fun d : AdaptiveDebouncer => d.policy = policy)
  · rfl
  · intro d c hd
    exact (d.call_shares hd c "").1

variable {policy calls workspaceId} {n : Nat} {c : DebounceCall}

theorem workspaceAt_succ (h : calls[n]? = some c) :
    workspaceAt policy calls workspaceId (n + 1) =
      ((workspaceAt policy calls workspaceId n).call policy workspaceId c).state := by
  obtain ⟨hn, hc⟩ := List.getElem?_eq_some_iff.mp h
  unfold workspaceAt
  rw [debouncerAt, stateAt_succ hn, hc]
  exact ((debouncerAt policy calls n).call_shares
    (debouncerAt_policy policy calls n) c workspaceId).2.state

theorem workspaceAt_of_none (h : calls[n]? = none) :
    workspaceAt policy calls workspaceId (n + 1) = workspaceAt policy calls workspaceId n := by
  have hn := List.getElem?_eq_none_iff.mp h
  unfold workspaceAt
  rw [debouncerAt, debouncerAt, stateAt_of_length_le (by omega), stateAt_of_length_le hn]

/-- The requests of a call for one workspace. -/
theorem drainAt_checkpoints (h : calls[n]? = some c) :
    (drainAt policy calls n).checkpoints.filter (fun r => r.workspaceId = workspaceId) =
      ((workspaceAt policy calls workspaceId n).call policy workspaceId
        c).checkpoint.toList := by
  simp only [drainAt, h]
  exact ((debouncerAt policy calls n).call_shares
    (debouncerAt_policy policy calls n) c workspaceId).2.checkpoints

theorem drainAt_publishes (h : calls[n]? = some c) :
    (drainAt policy calls n).publishes.filter (fun r => r.workspaceId = workspaceId) =
      ((workspaceAt policy calls workspaceId n).call policy workspaceId c).publish.toList := by
  simp only [drainAt, h]
  exact ((debouncerAt policy calls n).call_shares
    (debouncerAt_policy policy calls n) c workspaceId).2.publishes

theorem mem_checkpoints_iff (h : calls[n]? = some c) {checkpoint : DebouncedCheckpoint} :
    checkpoint ∈ (drainAt policy calls n).checkpoints ∧ checkpoint.workspaceId = workspaceId ↔
      ((workspaceAt policy calls workspaceId n).call policy workspaceId c).checkpoint =
        some checkpoint := by
  rw [← Option.mem_toList, ← drainAt_checkpoints h, List.mem_filter, decide_eq_true_iff]

theorem mem_publishes_iff (h : calls[n]? = some c) {publish : DebouncedPublish} :
    publish ∈ (drainAt policy calls n).publishes ∧ publish.workspaceId = workspaceId ↔
      ((workspaceAt policy calls workspaceId n).call policy workspaceId c).publish =
        some publish := by
  rw [← Option.mem_toList, ← drainAt_publishes h, List.mem_filter, decide_eq_true_iff]

theorem requestsAt_iff (h : calls[n]? = some c) :
    RequestsAt policy calls workspaceId n ↔
      ((workspaceAt policy calls workspaceId n).call policy workspaceId
        c).checkpoint.isSome := by
  rw [Option.isSome_iff_exists]
  exact exists_congr fun _ => mem_checkpoints_iff h

theorem publishesAt_iff (h : calls[n]? = some c) :
    PublishesAt policy calls workspaceId n ↔
      ((workspaceAt policy calls workspaceId n).call policy workspaceId c).publish.isSome := by
  rw [Option.isSome_iff_exists]
  exact exists_congr fun _ => mem_publishes_iff h

theorem requestsAt_call (h : RequestsAt policy calls workspaceId n) : ∃ c, calls[n]? = some c := by
  cases hc : calls[n]? with
  | some c => exact ⟨c, rfl⟩
  | none =>
    obtain ⟨_, hmem, -⟩ := h
    simp only [drainAt, hc] at hmem
    cases hmem

theorem publishesAt_call (h : PublishesAt policy calls workspaceId n) :
    ∃ c, calls[n]? = some c := by
  cases hc : calls[n]? with
  | some c => exact ⟨c, rfl⟩
  | none =>
    obtain ⟨_, hmem, -⟩ := h
    simp only [drainAt, hc] at hmem
    cases hmem

/-- A field that every call clears when it takes, and else collects into, collects
the events of the run. -/
theorem accumulates_of_effect {β : Type} {event : DebounceCall → Option β}
    {taken : Nat → Prop} {combine : Option β → β → β} (field : WorkspaceDebounceState → Option β)
    (takes : WorkspaceDrain → Bool) (hnew : field .new = none)
    (hcall : ∀ n, taken n → ∃ c, calls[n]? = some c)
    (htaken : ∀ n c, calls[n]? = some c → (taken n ↔
      takes ((workspaceAt policy calls workspaceId n).call policy workspaceId c) = true))
    (heffect : ∀ (state : WorkspaceDebounceState) c, field (state.call policy workspaceId c).state =
        if takes (state.call policy workspaceId c) then none
        else collect combine (field state) (event c)) :
    Accumulates (fun n => calls[n]?.bind event) taken combine
      (fun n => field (workspaceAt policy calls workspaceId n)) := by
  refine ⟨hnew, ?_, ?_⟩
  · intro n h
    obtain ⟨c, hc⟩ := hcall n h
    rw [workspaceAt_succ hc, heffect, if_pos ((htaken n c hc).mp h)]
  · intro n h
    cases hc : calls[n]? with
    | none =>
      rw [workspaceAt_of_none hc]
      rfl
    | some c =>
      rw [workspaceAt_succ hc, heffect, if_neg (fun ht => h ((htaken n c hc).mpr ht))]
      rfl

/-- The first dirty time collects the changes of the workspace. -/
theorem accumulates_firstDirtyAt :
    Accumulates (fun n => calls[n]?.bind (WorkspaceDebounceState.changeTime workspaceId))
      (RequestsAt policy calls workspaceId) (fun o t => o.getD t)
      (fun n => (workspaceAt policy calls workspaceId n).firstDirtyAt) :=
  accumulates_of_effect WorkspaceDebounceState.firstDirtyAt (fun r => r.checkpoint.isSome) rfl
    (fun _ => requestsAt_call) (fun _ _ => requestsAt_iff)
    (fun state c => (WorkspaceDebounceState.call_effect policy workspaceId state c).firstDirtyAt)

theorem accumulates_firstUnpublishedAt :
    Accumulates (fun n => calls[n]?.bind (WorkspaceDebounceState.completionTime workspaceId))
      (PublishesAt policy calls workspaceId) (fun o t => o.getD t)
      (fun n => (workspaceAt policy calls workspaceId n).firstUnpublishedAt) :=
  accumulates_of_effect WorkspaceDebounceState.firstUnpublishedAt (fun r => r.publish.isSome) rfl
    (fun _ => publishesAt_call) (fun _ _ => publishesAt_iff)
    (fun state c =>
      (WorkspaceDebounceState.call_effect policy workspaceId state c).firstUnpublishedAt)

/-- The publish generation collects the completed generations of the workspace. -/
theorem accumulates_publishGeneration :
    Accumulates
      (fun n => calls[n]?.bind (WorkspaceDebounceState.completedGeneration workspaceId))
      (PublishesAt policy calls workspaceId) (fun o g => max (o.getD 0) g)
      (fun n => (workspaceAt policy calls workspaceId n).publishGeneration) :=
  accumulates_of_effect WorkspaceDebounceState.publishGeneration (fun r => r.publish.isSome) rfl
    (fun _ => publishesAt_call) (fun _ _ => publishesAt_iff)
    (fun state c =>
      (WorkspaceDebounceState.call_effect policy workspaceId state c).publishGeneration)

/-- A dirty workspace has pending paths. -/
theorem pendingPaths_of_dirty (n : Nat)
    (h : (workspaceAt policy calls workspaceId n).firstDirtyAt.isSome) :
    (workspaceAt policy calls workspaceId n).pendingPaths ≠ ∅ := by
  induction n with
  | zero => cases h
  | succ n ih =>
    cases hc : calls[n]? with
    | none =>
      rw [workspaceAt_of_none hc] at h ⊢
      exact ih h
    | some c =>
      rw [workspaceAt_succ hc] at h ⊢
      rcases (WorkspaceDebounceState.call_effect policy workspaceId
        (workspaceAt policy calls workspaceId n) c).pendingPaths with hnew | ⟨hdirty, hpaths⟩
      · exact hnew h
      · rw [hpaths]
        rw [hdirty] at h
        exact ih h

/-! ## Order of the calls -/

theorem changeTime_eq_some {c : DebounceCall} {t : Duration}
    (h : WorkspaceDebounceState.changeTime workspaceId c = some t) :
    t = c.now ∧ ∃ change, c.event = .observeChange change ∧
      workspaceId = change.workspaceId ∧ change.paths ≠ ∅ := by
  unfold WorkspaceDebounceState.changeTime at h
  split at h
  · rename_i change hevent
    split at h
    · rename_i hchange
      exact ⟨(Option.some.inj h).symm, change, hevent, hchange⟩
    · cases h
  · cases h

theorem completedGeneration_eq_some {c : DebounceCall} {g : UInt64}
    (h : WorkspaceDebounceState.completedGeneration workspaceId c = some g) :
    c.event = .recordCheckpointCompleted workspaceId g := by
  unfold WorkspaceDebounceState.completedGeneration at h
  split at h
  · rename_i other generation hevent
    split at h
    · rename_i hid
      rw [hevent, hid, Option.some.inj h]
    · cases h
  · cases h

theorem completionTime_eq_some {c : DebounceCall} {t : Duration}
    (h : WorkspaceDebounceState.completionTime workspaceId c = some t) : t = c.now := by
  obtain ⟨_, -, ht⟩ := Option.map_eq_some_iff.mp h
  exact ht.symm

/-- The clock of the calls, in their order. -/
theorem now_le_of_pairwise (htime : calls.Pairwise fun a b => a.now ≤ b.now)
    {i j : Nat} {a b : DebounceCall} (hij : i ≤ j) (ha : calls[i]? = some a)
    (hb : calls[j]? = some b) : a.now ≤ b.now := by
  obtain ⟨hi, rfl⟩ := List.getElem?_eq_some_iff.mp ha
  obtain ⟨hj, rfl⟩ := List.getElem?_eq_some_iff.mp hb
  rcases Nat.lt_or_eq_of_le hij with hlt | rfl
  · exact List.pairwise_iff_getElem.mp htime i j hi hj hlt
  · exact Nat.le_refl _

/-- Events that carry the clock of their call come in order. -/
theorem event_order (htime : calls.Pairwise fun a b => a.now ≤ b.now)
    {event : DebounceCall → Option Duration} (hevent : ∀ c t, event c = some t → t = c.now)
    (i j : Nat) (t t' : Duration) (hij : i ≤ j) (ht : calls[i]?.bind event = some t)
    (ht' : calls[j]?.bind event = some t') : t ≤ t' := by
  obtain ⟨a, ha, hat⟩ := Option.bind_eq_some_iff.mp ht
  obtain ⟨b, hb, hbt⟩ := Option.bind_eq_some_iff.mp ht'
  rw [hevent a t hat, hevent b t' hbt]
  exact now_le_of_pairwise htime hij ha hb

/-- A call that changes the workspace or completes a checkpoint of it takes nothing. -/
theorem not_requestsAt_of_change {i : Nat} {t : Duration}
    (h : ChangedAt calls workspaceId i t) : ¬RequestsAt policy calls workspaceId i := by
  obtain ⟨change, hc, -, -⟩ := h
  intro hrequests
  cases (requestsAt_iff hc).mp hrequests

theorem not_publishesAt_of_completed {i : Nat} {g : UInt64} {t : Duration}
    (h : CompletedAt calls workspaceId i g t) : ¬PublishesAt policy calls workspaceId i := by
  intro hpublishes
  cases (publishesAt_iff h).mp hpublishes

theorem waits_of_changedAt {i : Nat} {t : Duration} (h : ChangedAt calls workspaceId i t)
    (hundrained : Undrained policy calls workspaceId i n) :
    Waits (fun n => calls[n]?.bind (WorkspaceDebounceState.changeTime workspaceId))
      (RequestsAt policy calls workspaceId) t i n where
  before := hundrained.1
  event := by
    obtain ⟨change, hc, hid, hpaths⟩ := h
    simp only [hc, Option.bind_some, WorkspaceDebounceState.changeTime,
      if_pos (And.intro hid.symm hpaths)]
  untaken k hik hkn := by
    rcases Nat.lt_or_eq_of_le hik with hlt | rfl
    · exact hundrained.2 k hlt hkn
    · exact not_requestsAt_of_change h

theorem changedAt_of_waits {i : Nat} {t : Duration}
    (h : Waits (fun n => calls[n]?.bind (WorkspaceDebounceState.changeTime workspaceId))
      (RequestsAt policy calls workspaceId) t i n) :
    ChangedAt calls workspaceId i t ∧ Undrained policy calls workspaceId i n := by
  obtain ⟨⟨now, event⟩, hc, hchange⟩ := Option.bind_eq_some_iff.mp h.event
  obtain ⟨rfl, change, rfl, hid, hpaths⟩ := changeTime_eq_some hchange
  refine ⟨⟨change, hc, hid.symm, hpaths⟩, h.before, ?_⟩
  intro k hik hkn
  exact h.untaken k (Nat.le_of_lt hik) hkn

theorem waits_of_completedAt {β : Type} {event : DebounceCall → Option β} {b : β} {i : Nat}
    {g : UInt64} {t : Duration} (h : CompletedAt calls workspaceId i g t)
    (hevent : event ⟨t, .recordCheckpointCompleted workspaceId g⟩ = some b)
    (hunpublished : Unpublished policy calls workspaceId i n) :
    Waits (fun n => calls[n]?.bind event) (PublishesAt policy calls workspaceId) b i n where
  before := hunpublished.1
  event := by
    show calls[i]?.bind event = some b
    rw [show calls[i]? = _ from h]
    exact hevent
  untaken k hik hkn := by
    rcases Nat.lt_or_eq_of_le hik with hlt | rfl
    · exact hunpublished.2 k hlt hkn
    · exact not_publishesAt_of_completed h

/-! ## The reasons -/

theorem dueCheckpointReason_of_maxDirty {state : WorkspaceDebounceState}
    {now first : Duration} (hpending : state.pendingPaths ≠ ∅)
    (hfirst : state.firstDirtyAt = some first)
    (hlong : policy.maxDirtyInterval ≤ elapsed now first) :
    AdaptiveDebouncer.dueCheckpointReason policy state now = some .maxDirtyInterval := by
  unfold AdaptiveDebouncer.dueCheckpointReason
  rw [if_neg hpending, hfirst]
  exact if_pos hlong

/-- A checkpoint is due because of the bound, or after the minimum interval. -/
theorem of_dueCheckpointReason {state : WorkspaceDebounceState} {now : Duration}
    {reason : DebounceFlushReason}
    (h : AdaptiveDebouncer.dueCheckpointReason policy state now = some reason) :
    (∃ first, state.firstDirtyAt = some first ∧
      policy.maxDirtyInterval ≤ elapsed now first) ∨
    ∀ last, state.lastCheckpointAt = some last →
      policy.minCheckpointInterval ≤ elapsed now last := by
  unfold AdaptiveDebouncer.dueCheckpointReason at h
  split at h
  · cases h
  · obtain ⟨first, hfirst, h⟩ := Option.bind_eq_some_iff.mp h
    dsimp only at h
    split at h
    · rename_i hlong
      exact Or.inl ⟨first, hfirst, hlong⟩
    · split at h
      · rename_i hquiet
        right
        intro last hlast
        rw [hlast] at hquiet
        simp only [Option.map_some, Option.getD_some, Bool.and_eq_true, decide_eq_true_eq]
          at hquiet
        exact hquiet.2
      · cases h

theorem duePublishReason_of_maxPublish {state : WorkspaceDebounceState}
    {now first : Duration} {g : UInt64} (hgeneration : state.publishGeneration = some g)
    (hfirst : state.firstUnpublishedAt = some first)
    (hlong : policy.maxPublishInterval ≤ elapsed now first) :
    AdaptiveDebouncer.duePublishReason policy state now = some .maxPublishInterval := by
  unfold AdaptiveDebouncer.duePublishReason
  rw [hgeneration, hfirst]
  exact if_pos hlong

theorem le_elapsed {interval now earlier t : Nat} (hle : earlier ≤ t)
    (hlate : t + interval ≤ now) : interval ≤ elapsed now earlier := by
  unfold elapsed
  omega

theorem add_le_of_le_elapsed {interval now last t : Nat} (h : interval ≤ elapsed now last)
    (hle : t ≤ last) (hnow : t ≤ now) : t + interval ≤ now := by
  unfold elapsed at h
  omega

theorem call_drainDue_checkpoint (state : WorkspaceDebounceState) (now : Duration) :
    (state.call policy workspaceId ⟨now, .drainDue⟩).checkpoint =
      (state.takeCheckpoint workspaceId now
        (AdaptiveDebouncer.dueCheckpointReason policy state now)).2 := rfl

theorem call_drainDue_publish (state : WorkspaceDebounceState) (now : Duration) :
    (state.call policy workspaceId ⟨now, .drainDue⟩).publish =
      let after := (state.takeCheckpoint workspaceId now
        (AdaptiveDebouncer.dueCheckpointReason policy state now)).1
      (after.takePublish workspaceId now
        (AdaptiveDebouncer.duePublishReason policy after now)).2 := rfl

theorem max_pick (o : Option UInt64) (g : UInt64) :
    max (o.getD 0) g = g ∨ o = some (max (o.getD 0) g) := by
  cases o with
  | none => exact Or.inl (if_pos (UInt64.zero_le))
  | some a =>
    by_cases hle : a ≤ g
    · exact Or.inl (if_pos hle)
    · exact Or.inr (congrArg some (if_neg hle).symm)

/-! ## The laws -/

/-- A change that no request has taken is requested by the first drain that comes
after the bound, if not before. -/
theorem requestsAt_of_maxDirty (htime : calls.Pairwise fun a b => a.now ≤ b.now)
    {i : Nat} {t now : Duration} (hchanged : ChangedAt calls workspaceId i t)
    (hundrained : Undrained policy calls workspaceId i n) (hdrain : DrainsDueAt calls n now)
    (hlate : t + policy.maxDirtyInterval ≤ now) : RequestsAt policy calls workspaceId n := by
  obtain ⟨first, hfirst, hle⟩ := accumulates_firstDirtyAt.first_le
    (event_order htime fun c t h => (changeTime_eq_some h).1)
    (waits_of_changedAt hchanged hundrained)
  have hpending := pendingPaths_of_dirty n (Option.isSome_iff_exists.mpr ⟨first, hfirst⟩)
  have hreason := dueCheckpointReason_of_maxDirty hpending hfirst (le_elapsed hle hlate)
  rw [requestsAt_iff hdrain, call_drainDue_checkpoint, hreason]
  unfold WorkspaceDebounceState.takeCheckpoint
  simp only [if_neg hpending]
  rfl

/-- The time of the last checkpoint of the workspace is no earlier than that of
any request. -/
theorem lastCheckpointAt_of_requestsAt (htime : calls.Pairwise fun a b => a.now ≤ b.now)
    {m : Nat} {c : DebounceCall} (hmn : m < n) (hc : calls[m]? = some c)
    (hrequests : RequestsAt policy calls workspaceId m) :
    ∃ last, (workspaceAt policy calls workspaceId n).lastCheckpointAt = some last ∧
      c.now ≤ last := by
  have heffect : ∀ n c, calls[n]? = some c → _ := fun n c _ =>
    (WorkspaceDebounceState.call_effect policy workspaceId
      (workspaceAt policy calls workspaceId n) c).lastCheckpointAt
  induction n with
  | zero => exact absurd hmn (Nat.not_lt_zero m)
  | succ n ih =>
    by_cases htaken : RequestsAt policy calls workspaceId n
    · obtain ⟨c', hc'⟩ := requestsAt_call htaken
      refine ⟨c'.now, ?_, now_le_of_pairwise htime (Nat.le_of_lt_succ hmn) hc hc'⟩
      rw [workspaceAt_succ hc', heffect n c' hc', if_pos ((requestsAt_iff hc').mp htaken)]
    · have hne : m ≠ n := by
        rintro rfl
        exact htaken hrequests
      obtain ⟨last, hlast, hle⟩ := ih (by omega)
      refine ⟨last, ?_, hle⟩
      cases hc' : calls[n]? with
      | none => rw [workspaceAt_of_none hc', hlast]
      | some c' =>
        rw [workspaceAt_succ hc', heffect n c' hc',
          if_neg (fun h => htaken ((requestsAt_iff hc').mpr h)), hlast]

/-- Two requests for one workspace, the second of them due, keep the minimum
interval, unless a change has waited for the bound. -/
theorem requests_apart (htime : calls.Pairwise fun a b => a.now ≤ b.now) {m : Nat}
    {c : DebounceCall} {now : Duration} (hmn : m < n) (hc : calls[m]? = some c)
    (hbefore : RequestsAt policy calls workspaceId m) (hdrain : DrainsDueAt calls n now)
    (hrequests : RequestsAt policy calls workspaceId n) :
    c.now + policy.minCheckpointInterval ≤ now ∨
      ∃ i t, ChangedAt calls workspaceId i t ∧ Undrained policy calls workspaceId i n ∧
        t + policy.maxDirtyInterval ≤ now := by
  obtain ⟨last, hlast, hle⟩ := lastCheckpointAt_of_requestsAt htime hmn hc hbefore
  have hclock : c.now ≤ now := now_le_of_pairwise htime (Nat.le_of_lt hmn) hc hdrain
  have htaken := (requestsAt_iff hdrain).mp hrequests
  cases hreason : AdaptiveDebouncer.dueCheckpointReason policy
      (workspaceAt policy calls workspaceId n) now with
  | none =>
    rw [call_drainDue_checkpoint, hreason] at htaken
    cases htaken
  | some reason =>
    rcases of_dueCheckpointReason hreason with ⟨first, hfirst, hlong⟩ | hquiet
    · right
      obtain ⟨i, hwaits⟩ := accumulates_firstDirtyAt.origin getD_pick hfirst
      obtain ⟨hchanged, hundrained⟩ := changedAt_of_waits hwaits
      refine ⟨i, first, hchanged, hundrained, ?_⟩
      obtain ⟨change, hi, -, -⟩ := hchanged
      have hfirstNow : first ≤ now :=
        now_le_of_pairwise htime (Nat.le_of_lt hundrained.1) hi hdrain
      exact add_le_of_le_elapsed hlong (Nat.le_refl first) hfirstNow
    · left
      exact add_le_of_le_elapsed (hquiet last hlast) hle hclock

/-- One drain requests a workspace at most once. -/
theorem requests_once (n : Nat) (workspaceId : String) :
    ((drainAt policy calls n).checkpoints.filter
      fun r => r.workspaceId = workspaceId).length ≤ 1 := by
  cases hc : calls[n]? with
  | none =>
    simp only [drainAt, hc]
    exact Nat.zero_le 1
  | some c =>
    rw [drainAt_checkpoints hc]
    cases (WorkspaceDebounceState.call policy workspaceId
      (workspaceAt policy calls workspaceId n) c).checkpoint with
    | none => exact Nat.zero_le 1
    | some _ => exact Nat.le_refl 1

/-- The generation bound of the unpublished completions. -/
theorem publishGeneration_ge {i : Nat} {g : UInt64} {t : Duration}
    (hcompleted : CompletedAt calls workspaceId i g t)
    (hunpublished : Unpublished policy calls workspaceId i n) :
    ∃ largest, (workspaceAt policy calls workspaceId n).publishGeneration = some largest ∧
      g ≤ largest := by
  have hevent : WorkspaceDebounceState.completedGeneration workspaceId
      ⟨t, .recordCheckpointCompleted workspaceId g⟩ = some g := if_pos rfl
  refine accumulates_publishGeneration.bound (R := fun largest g => g ≤ largest) ?_ ?_
    (waits_of_completedAt hcompleted hevent hunpublished)
  · intro n g _
    exact word_le_max_right _ _
  · intro n g a c _ ha hle
    rw [ha]
    exact UInt64.le_trans hle (word_le_max_left _ _)

/-- A completed checkpoint is published by the first drain that comes after the
deadline, if not before. -/
theorem publishesAt_of_maxPublish (htime : calls.Pairwise fun a b => a.now ≤ b.now)
    {i : Nat} {g : UInt64} {t now : Duration} (hcompleted : CompletedAt calls workspaceId i g t)
    (hunpublished : Unpublished policy calls workspaceId i n)
    (hdrain : DrainsDueAt calls n now) (hlate : t + policy.maxPublishInterval ≤ now) :
    PublishesAt policy calls workspaceId n := by
  have hevent : WorkspaceDebounceState.completionTime workspaceId
      ⟨t, .recordCheckpointCompleted workspaceId g⟩ = some t := by
    simp [WorkspaceDebounceState.completionTime, WorkspaceDebounceState.completedGeneration]
  obtain ⟨first, hfirst, hle⟩ := accumulates_firstUnpublishedAt.first_le
    (event_order htime fun c t h => completionTime_eq_some h)
    (waits_of_completedAt hcompleted hevent hunpublished)
  obtain ⟨largest, hlargest, -⟩ := publishGeneration_ge hcompleted hunpublished
  have hcleared := WorkspaceDebounceState.takeCheckpoint_cleared workspaceId now
    (AdaptiveDebouncer.dueCheckpointReason policy (workspaceAt policy calls workspaceId n) now)
    (workspaceAt policy calls workspaceId n)
  have hgeneration := hcleared.publishGeneration.trans hlargest
  have hreason := duePublishReason_of_maxPublish hgeneration
    (hcleared.firstUnpublishedAt.trans hfirst) (le_elapsed hle hlate)
  rw [publishesAt_iff hdrain, call_drainDue_publish]
  dsimp only
  rw [hreason]
  unfold WorkspaceDebounceState.takePublish
  rw [hgeneration]
  rfl

/-- A publish request carries a completed generation that has not been published,
the largest one. -/
theorem publish_largest {publish : DebouncedPublish}
    (hmem : publish ∈ (drainAt policy calls n).publishes)
    (hid : publish.workspaceId = workspaceId) :
    (∃ i t, CompletedAt calls workspaceId i publish.sourceGeneration t ∧
      Unpublished policy calls workspaceId i n) ∧
    ∀ i g t, CompletedAt calls workspaceId i g t → Unpublished policy calls workspaceId i n →
      g ≤ publish.sourceGeneration := by
  obtain ⟨c, hc⟩ := publishesAt_call ⟨publish, hmem, hid⟩
  have hpublish := (WorkspaceDebounceState.call_effect policy workspaceId
    (workspaceAt policy calls workspaceId n) c).published publish
    ((mem_publishes_iff hc).mp ⟨hmem, hid⟩)
  constructor
  · obtain ⟨i, hwaits⟩ := accumulates_publishGeneration.origin max_pick hpublish
    obtain ⟨⟨t, event⟩, hi, hcompleted⟩ := Option.bind_eq_some_iff.mp hwaits.event
    have hevent := completedGeneration_eq_some hcompleted
    refine ⟨i, t, ?_, hwaits.before, ?_⟩
    · rw [CompletedAt, hi]
      exact congrArg (fun e => some (DebounceCall.mk t e)) hevent
    · intro k hik hkn
      exact hwaits.untaken k (Nat.le_of_lt hik) hkn
  · intro i g t hcompleted hunpublished
    obtain ⟨largest, hlargest, hle⟩ := publishGeneration_ge hcompleted hunpublished
    rw [hpublish] at hlargest
    rw [Option.some.inj hlargest]
    exact hle

end

/-- In every run on a clock that does not go back, for every policy and every
workspace:
a change that no request has taken is requested by the first drain that comes
after the max-dirty bound, if not before; two requests, the second of them due,
keep the minimum interval unless a change has waited for the bound, and a drain
requests a workspace at most once; a completed checkpoint is published by the
first drain after its deadline, if not before; and a publish request carries the
largest generation completed since the one before. -/
theorem debounce_timing (policy : BackgroundDebouncePolicy) (calls : List DebounceCall)
    (htime : calls.Pairwise fun a b => a.now ≤ b.now) (workspaceId : String) :
    (∀ i n t now, ChangedAt calls workspaceId i t → Undrained policy calls workspaceId i n →
      DrainsDueAt calls n now → t + policy.maxDirtyInterval ≤ now →
      RequestsAt policy calls workspaceId n) ∧
    (∀ m n c now, m < n → calls[m]? = some c → RequestsAt policy calls workspaceId m →
      DrainsDueAt calls n now → RequestsAt policy calls workspaceId n →
      c.now + policy.minCheckpointInterval ≤ now ∨
        ∃ i t, ChangedAt calls workspaceId i t ∧ Undrained policy calls workspaceId i n ∧
          t + policy.maxDirtyInterval ≤ now) ∧
    (∀ n, ((drainAt policy calls n).checkpoints.filter
      fun r => r.workspaceId = workspaceId).length ≤ 1) ∧
    (∀ i n g t now, CompletedAt calls workspaceId i g t →
      Unpublished policy calls workspaceId i n → DrainsDueAt calls n now →
      t + policy.maxPublishInterval ≤ now → PublishesAt policy calls workspaceId n) ∧
    ∀ n, ∀ publish ∈ (drainAt policy calls n).publishes, publish.workspaceId = workspaceId →
      (∃ i t, CompletedAt calls workspaceId i publish.sourceGeneration t ∧
        Unpublished policy calls workspaceId i n) ∧
      ∀ i g t, CompletedAt calls workspaceId i g t →
        Unpublished policy calls workspaceId i n → g ≤ publish.sourceGeneration := by
  refine ⟨?_, ?_, ?_, ?_, ?_⟩
  · intro i n t now hchanged hundrained hdrain hlate
    exact requestsAt_of_maxDirty htime hchanged hundrained hdrain hlate
  · intro m n c now hmn hc hbefore hdrain hrequests
    exact requests_apart htime hmn hc hbefore hdrain hrequests
  · intro n
    exact requests_once n workspaceId
  · intro i n g t now hcompleted hunpublished hdrain hlate
    exact publishesAt_of_maxPublish htime hcompleted hunpublished hdrain hlate
  · intro n publish hmem hid
    exact publish_largest hmem hid

/-- Changes that keep coming, and a drain at the bound. -/
def busyCalls : List DebounceCall := [
  ⟨seconds 0, .observeChange ⟨"w_main", 1, {[.normal [97]]}⟩⟩,
  ⟨seconds 299, .observeChange ⟨"w_main", 2, {[.normal [98]]}⟩⟩,
  ⟨seconds 300, .drainDue⟩]

/-- The first change has waited for the bound of five minutes. -/
theorem debounce_timing_busy : RequestsAt .default busyCalls "w_main" 2 := by
  apply (debounce_timing .default busyCalls (by decide) "w_main").1 0 2 (seconds 0)
    (seconds 300)
  · exact ⟨_, rfl, rfl, by decide⟩
  · refine ⟨by decide, ?_⟩
    intro k hk hk2
    obtain rfl : k = 1 := by omega
    exact not_requestsAt_of_change (t := seconds 299) ⟨_, rfl, rfl, by decide⟩
  · rfl
  · decide

/-- An older checkpoint completes after a newer one was published. -/
def lateCalls : List DebounceCall := [
  ⟨seconds 0, .recordCheckpointCompleted "w_main" 5⟩,
  ⟨seconds 10, .drainDue⟩,
  ⟨seconds 20, .recordCheckpointCompleted "w_main" 3⟩,
  ⟨seconds 30, .drainDue⟩]

/-- Every publish request carries the largest generation completed so far. -/
def CarriesLargestEver (policy : BackgroundDebouncePolicy) (calls : List DebounceCall) : Prop :=
  ∀ workspaceId n, ∀ publish ∈ (drainAt policy calls n).publishes,
    publish.workspaceId = workspaceId → ∀ i g t, i < n →
      CompletedAt calls workspaceId i g t → g ≤ publish.sourceGeneration

theorem late_completion_goes_back :
    (lateCalls.Pairwise fun a b => a.now ≤ b.now) ∧ ¬CarriesLargestEver .default lateCalls := by
  refine ⟨by decide, ?_⟩
  intro h
  have hpublish : (drainAt .default lateCalls 3).publishes =
      [⟨"w_main", 3, .publishQuietWindow⟩] := by decide
  have hle := h "w_main" 3 ⟨"w_main", 3, .publishQuietWindow⟩
    (by rw [hpublish]; exact List.mem_singleton_self _) rfl 0 5 (seconds 0) (by decide) rfl
  revert hle
  decide

end DevRelay.Background
