import DevRelay.Background.CheckpointManager

/-!
# Dirty workspaces and late checkpoints

A success clears the dirty flag and records its own generation, whatever was
observed in the meantime.  So a workspace that is reported clean is covered, and
its last checkpoint does not go back, as long as every success is for a
generation as late as all those before it.
-/

namespace DevRelay.Background

open DevRelay.Lib DevRelay.Core

/-- What a call leaves of the entry of its own workspace. -/
structure Recorded (call : ManagerCall) (before after : WorkspaceCheckpointState) : Prop where
  observed : after.lastObservedGeneration = some (before.observed call.sourceGeneration)
  dirty : after.dirty = !call.succeeds
  checkpoint : after.lastCheckpointGeneration =
    if call.succeeds then some call.sourceGeneration else before.lastCheckpointGeneration

section

variable {errorText : DevRelayError → String} {threshold : UInt32}
  {manager : BackgroundCheckpointManager} {call : ManagerCall} {calls : List ManagerCall}
  {workspaceId : String}

theorem workspaceState_update (change : WorkspaceCheckpointState → WorkspaceCheckpointState) :
    (manager.update workspaceId change).workspaceState workspaceId =
      some (change (manager.entry workspaceId)) :=
  SortedMap.find?_modify_self _ _ _ _

theorem workspaceState_update_of_ne {other : String} (h : other ≠ workspaceId)
    (change : WorkspaceCheckpointState → WorkspaceCheckpointState) :
    (manager.update workspaceId change).workspaceState other = manager.workspaceState other :=
  SortedMap.find?_modify_of_ne h

theorem succeeds_handleCheckpoint (workspace : BackgroundWorkspace)
    (checkpoint : DebouncedCheckpoint) (captured : Except DevRelayError SnapshotCheckpointResult) :
    ManagerCall.succeeds (.handleCheckpoint workspace checkpoint captured) =
      (BackgroundCheckpointManager.handleCheckpointInner workspace checkpoint captured).isOk := by
  show (decide (checkpoint.workspaceId = workspace.workspaceId) && captured.isOk) = _
  unfold BackgroundCheckpointManager.handleCheckpointInner
  by_cases hsame : checkpoint.workspaceId = workspace.workspaceId
  · rw [if_neg (not_not_intro hsame), decide_eq_true hsame, Bool.true_and]
  · rw [if_pos hsame, decide_eq_false hsame, Bool.false_and]
    rfl

/-- Each call changes the entry of its workspace in one of three ways. -/
theorem call_update (errorText : DevRelayError → String) (manager : BackgroundCheckpointManager)
    (call : ManagerCall) :
    ∃ change, manager.call errorText call = manager.update call.workspaceId change ∧
      ∀ before, Recorded call before (change before) := by
  cases call with
  | markDirty workspace sourceGeneration => exact ⟨_, rfl, fun before => ⟨rfl, rfl, rfl⟩⟩
  | handleCheckpoint workspace checkpoint captured =>
    have hsucceeds := succeeds_handleCheckpoint workspace checkpoint captured
    show ∃ change, (manager.handleCheckpoint errorText workspace checkpoint captured).1 = _ ∧ _
    unfold BackgroundCheckpointManager.handleCheckpoint
    cases hinner : BackgroundCheckpointManager.handleCheckpointInner workspace checkpoint
        captured with
    | error error =>
      rw [hinner] at hsucceeds
      refine ⟨_, rfl, fun before => ⟨rfl, ?_, ?_⟩⟩
      · rw [hsucceeds]
        rfl
      · rw [hsucceeds]
        rfl
    | ok result =>
      rw [hinner] at hsucceeds
      cases result with
      | created snapshot =>
        refine ⟨_, rfl, fun before => ⟨rfl, ?_, ?_⟩⟩
        · rw [hsucceeds]
          rfl
        · rw [hsucceeds]
          rfl
      | unchanged snapshotId stateHash =>
        refine ⟨_, rfl, fun before => ⟨rfl, ?_, ?_⟩⟩
        · rw [hsucceeds]
          rfl
        · rw [hsucceeds]
          rfl

theorem workspaceState_call (errorText : DevRelayError → String)
    (manager : BackgroundCheckpointManager) (h : call.workspaceId = workspaceId) :
    ∃ after, (manager.call errorText call).workspaceState workspaceId = some after ∧
      Recorded call (manager.entry workspaceId) after := by
  obtain ⟨change, hchange, hrecorded⟩ := call_update errorText manager call
  rw [hchange, h]
  exact ⟨_, workspaceState_update change, hrecorded _⟩

theorem workspaceState_call_of_ne (h : call.workspaceId ≠ workspaceId) :
    (manager.call errorText call).workspaceState workspaceId =
      manager.workspaceState workspaceId := by
  obtain ⟨change, hchange, -⟩ := call_update errorText manager call
  rw [hchange, workspaceState_update_of_ne (Ne.symm h)]

theorem entry_of_workspaceState {state : WorkspaceCheckpointState}
    (h : manager.workspaceState workspaceId = some state) : manager.entry workspaceId = state := by
  rw [BackgroundCheckpointManager.entry, h, Option.getD_some]

theorem managerAt_succ {n : Nat} (h : n < calls.length) :
    managerAt errorText threshold calls (n + 1) =
      (managerAt errorText threshold calls n).call errorText calls[n] :=
  stateAt_succ h

/-! ## Observed generations -/

/-- The workspace is known to have changed up to a generation. -/
def HasObserved (workspaceId : String) (generation : UInt64)
    (manager : BackgroundCheckpointManager) : Prop :=
  ∃ state observed, manager.workspaceState workspaceId = some state ∧
    state.lastObservedGeneration = some observed ∧ generation ≤ observed

theorem hasObserved_call (manager : BackgroundCheckpointManager) (call : ManagerCall) :
    HasObserved call.workspaceId call.sourceGeneration (manager.call errorText call) := by
  obtain ⟨after, hafter, hrecorded⟩ := workspaceState_call errorText manager
    (Eq.refl call.workspaceId)
  exact ⟨after, _, hafter, hrecorded.observed, word_le_max_right _ _⟩

theorem HasObserved.next {generation : UInt64} (h : HasObserved workspaceId generation manager)
    (call : ManagerCall) :
    HasObserved workspaceId generation (manager.call errorText call) := by
  obtain ⟨state, observed, hstate, hobserved, hle⟩ := h
  by_cases hown : call.workspaceId = workspaceId
  · obtain ⟨after, hafter, hrecorded⟩ := workspaceState_call errorText manager hown
    rw [entry_of_workspaceState hstate] at hrecorded
    refine ⟨after, _, hafter, hrecorded.observed, UInt64.le_trans hle ?_⟩
    rw [WorkspaceCheckpointState.observed, hobserved, Option.getD_some]
    exact word_le_max_left _ _
  · exact ⟨state, observed, (workspaceState_call_of_ne hown).trans hstate, hobserved, hle⟩

/-- The generation was given to a call before. -/
def Mentioned (calls : List ManagerCall) (n : Nat) (workspaceId : String)
    (generation : UInt64) : Prop :=
  ∃ j, ∃ hj : j < calls.length, j < n ∧ calls[j].workspaceId = workspaceId ∧
    calls[j].sourceGeneration = generation

theorem Mentioned.succ {n : Nat} {generation : UInt64}
    (h : Mentioned calls n workspaceId generation) :
    Mentioned calls (n + 1) workspaceId generation := by
  obtain ⟨j, hj, hlt, hown, hgeneration⟩ := h
  exact ⟨j, hj, by omega, hown, hgeneration⟩

theorem observed_cases (state : WorkspaceCheckpointState) (generation : UInt64) :
    state.observed generation = generation ∨
      state.lastObservedGeneration = some (state.observed generation) := by
  unfold WorkspaceCheckpointState.observed
  cases hobserved : state.lastObservedGeneration with
  | none =>
    left
    apply UInt64.toNat_inj.mp
    rw [toNat_max]
    exact Nat.max_eq_right (Nat.zero_le _)
  | some observed =>
    rw [Option.getD_some, Option.some_inj]
    rcases Nat.le_total observed.toNat generation.toNat with hle | hle
    · left
      apply UInt64.toNat_inj.mp
      rw [toNat_max, Nat.max_eq_right hle]
    · right
      apply UInt64.toNat_inj.mp
      rw [toNat_max, Nat.max_eq_left hle]

/-- Both generations of an entry come from calls. -/
structure FromCalls (calls : List ManagerCall) (n : Nat) (workspaceId : String)
    (state : WorkspaceCheckpointState) : Prop where
  observed : ∀ generation, state.lastObservedGeneration = some generation →
    Mentioned calls n workspaceId generation
  checkpoint : ∀ generation, state.lastCheckpointGeneration = some generation →
    Mentioned calls n workspaceId generation

theorem fromCalls (errorText : DevRelayError → String) (threshold : UInt32) (n : Nat)
    (workspaceId : String) :
    FromCalls calls n workspaceId ((managerAt errorText threshold calls n).entry workspaceId) := by
  induction n with
  | zero => exact ⟨nofun, nofun⟩
  | succ n ih =>
    by_cases hn : n < calls.length
    · rw [managerAt_succ hn]
      by_cases hown : calls[n].workspaceId = workspaceId
      · have hnow : Mentioned calls (n + 1) workspaceId calls[n].sourceGeneration :=
          ⟨n, hn, Nat.lt_succ_self n, hown, rfl⟩
        obtain ⟨after, hafter, hrecorded⟩ := workspaceState_call errorText
          (managerAt errorText threshold calls n) hown
        rw [entry_of_workspaceState hafter]
        constructor
        · intro generation hgeneration
          rw [hrecorded.observed] at hgeneration
          rw [← Option.some.inj hgeneration]
          rcases observed_cases ((managerAt errorText threshold calls n).entry workspaceId)
              calls[n].sourceGeneration with hlast | hbefore
          · rw [hlast]
            exact hnow
          · exact (ih.observed _ hbefore).succ
        · intro generation hgeneration
          rw [hrecorded.checkpoint] at hgeneration
          split at hgeneration
          · rw [← Option.some.inj hgeneration]
            exact hnow
          · exact (ih.checkpoint _ hgeneration).succ
      · have hentry : ((managerAt errorText threshold calls n).call errorText
            calls[n]).entry workspaceId =
              (managerAt errorText threshold calls n).entry workspaceId := by
          unfold BackgroundCheckpointManager.entry
          rw [workspaceState_call_of_ne hown]
        rw [hentry]
        exact ⟨fun g h => (ih.observed g h).succ, fun g h => (ih.checkpoint g h).succ⟩
    · have hend : managerAt errorText threshold calls (n + 1) =
          managerAt errorText threshold calls n := by
        unfold managerAt
        rw [stateAt_of_length_le (by omega), stateAt_of_length_le (by omega)]
      rw [hend]
      exact ⟨fun g h => (ih.observed g h).succ, fun g h => (ih.checkpoint g h).succ⟩

/-! ## Up to date successes -/

theorem le_of_mentioned (h : SuccessesUpToDate calls) {n : Nat} (hn : n < calls.length)
    (hsucceeds : calls[n].succeeds = true) {generation : UInt64}
    (hmentioned : Mentioned calls n calls[n].workspaceId generation) :
    generation ≤ calls[n].sourceGeneration := by
  obtain ⟨j, hj, hlt, hown, hgeneration⟩ := hmentioned
  rw [← hgeneration]
  exact h n j hn hlt hsucceeds hown

theorem clean_of_upToDate (h : SuccessesUpToDate calls) (n : Nat) (workspaceId : String)
    (state : WorkspaceCheckpointState)
    (hstate : (managerAt errorText threshold calls n).workspaceState workspaceId = some state)
    (hclean : state.dirty = false) : state.Covered := by
  induction n generalizing state with
  | zero => cases hstate
  | succ n ih =>
    by_cases hn : n < calls.length
    · rw [managerAt_succ hn] at hstate
      by_cases hown : calls[n].workspaceId = workspaceId
      · obtain ⟨after, hafter, hrecorded⟩ := workspaceState_call errorText
          (managerAt errorText threshold calls n) hown
        rw [hafter, Option.some_inj] at hstate
        rw [← hstate] at hclean ⊢
        rw [hrecorded.dirty, Bool.not_eq_false'] at hclean
        intro observed hobserved
        rw [hrecorded.observed, Option.some_inj] at hobserved
        refine ⟨calls[n].sourceGeneration, by rw [hrecorded.checkpoint, if_pos hclean], ?_⟩
        rw [← hobserved]
        -- what was observed before is not later than the success
        rcases observed_cases ((managerAt errorText threshold calls n).entry workspaceId)
            calls[n].sourceGeneration with hlast | hbefore
        · rw [hlast]
          exact UInt64.le_refl _
        · have hmentioned := (fromCalls errorText threshold n workspaceId).observed _ hbefore
          rw [← hown] at hmentioned ⊢
          exact le_of_mentioned h hn hclean hmentioned
      · rw [workspaceState_call_of_ne hown] at hstate
        exact ih state hstate hclean
    · have hend : managerAt errorText threshold calls (n + 1) =
          managerAt errorText threshold calls n := by
        unfold managerAt
        rw [stateAt_of_length_le (by omega), stateAt_of_length_le (by omega)]
      rw [hend] at hstate
      exact ih state hstate hclean

/-- The workspace has a checkpoint of a generation or of a later one. -/
def HasCheckpoint (workspaceId : String) (generation : UInt64)
    (manager : BackgroundCheckpointManager) : Prop :=
  ∃ state checkpoint, manager.workspaceState workspaceId = some state ∧
    state.lastCheckpointGeneration = some checkpoint ∧ generation ≤ checkpoint

theorem monotone_of_upToDate (h : SuccessesUpToDate calls) {m n : Nat} (hmn : m ≤ n)
    {generation : UInt64}
    (hm : HasCheckpoint workspaceId generation (managerAt errorText threshold calls m)) :
    HasCheckpoint workspaceId generation (managerAt errorText threshold calls n) := by
  refine stateAt_induction_from hm ?_ hmn
  intro i _ hi hbefore
  obtain ⟨state, checkpoint, hstate, hcheckpoint, hle⟩ := hbefore
  by_cases hown : calls[i].workspaceId = workspaceId
  · obtain ⟨after, hafter, hrecorded⟩ := workspaceState_call errorText
      (managerAt errorText threshold calls i) hown
    have hentry := entry_of_workspaceState hstate
    by_cases hsucceeds : calls[i].succeeds = true
    · refine ⟨after, _, hafter, by rw [hrecorded.checkpoint, if_pos hsucceeds], ?_⟩
      have hmentioned := (fromCalls errorText threshold i workspaceId).checkpoint checkpoint
        (by rw [← hcheckpoint]; exact congrArg _ hentry)
      rw [← hown] at hmentioned
      exact UInt64.le_trans hle (le_of_mentioned h hi hsucceeds hmentioned)
    · refine ⟨after, checkpoint, hafter, ?_, hle⟩
      rw [hrecorded.checkpoint, if_neg hsucceeds, ← hcheckpoint]
      exact congrArg _ hentry
  · exact ⟨state, checkpoint, (workspaceState_call_of_ne hown).trans hstate, hcheckpoint, hle⟩

/-- A clean workspace is covered only if its successes were up to date. -/
theorem upToDate_of_clean
    (h : ∀ n workspaceId state,
      (managerAt errorText threshold calls n).workspaceState workspaceId = some state →
        state.dirty = false → state.Covered) : SuccessesUpToDate calls := by
  intro i j hi hj hsucceeds hown
  have hjlt : j < calls.length := by omega
  have hbrought : HasObserved calls[i].workspaceId calls[j].sourceGeneration
      (managerAt errorText threshold calls (j + 1)) := by
    rw [managerAt_succ hjlt, ← hown]
    exact hasObserved_call _ _
  have hkept : HasObserved calls[i].workspaceId calls[j].sourceGeneration
      (managerAt errorText threshold calls i) :=
    stateAt_stable (P := HasObserved calls[i].workspaceId calls[j].sourceGeneration)
      (fun _ call ht => HasObserved.next ht call) (by omega : j + 1 ≤ i) hbrought
  obtain ⟨state, observed, hstate, hobserved, hle⟩ := hkept
  obtain ⟨after, hafter, hrecorded⟩ := workspaceState_call errorText
    (managerAt errorText threshold calls i) (Eq.refl calls[i].workspaceId)
  rw [← managerAt_succ hi] at hafter
  have hclean : after.dirty = false := by rw [hrecorded.dirty, hsucceeds, Bool.not_true]
  obtain ⟨checkpoint, hcheckpoint, hcovered⟩ :=
    h (i + 1) calls[i].workspaceId after hafter hclean _ hrecorded.observed
  rw [hrecorded.checkpoint, if_pos hsucceeds, Option.some_inj] at hcheckpoint
  rw [hcheckpoint]
  rw [entry_of_workspaceState hstate, WorkspaceCheckpointState.observed, hobserved,
    Option.getD_some] at hcovered
  calc calls[j].sourceGeneration ≤ observed := hle
    _ ≤ max observed calls[i].sourceGeneration := word_le_max_left _ _
    _ ≤ checkpoint := hcovered

end

/-- The dirty flag and the last checkpoint can be relied on in the histories whose successes
are all up to date, and in no others. -/
theorem tracksDirtiness_iff (errorText : DevRelayError → String) (threshold : UInt32)
    (calls : List ManagerCall) :
    TracksDirtiness errorText threshold calls ↔ SuccessesUpToDate calls := by
  constructor
  · intro h
    exact upToDate_of_clean h.clean
  · intro h
    refine ⟨clean_of_upToDate h, ?_⟩
    intro m n hmn workspaceId state checkpoint hstate hcheckpoint
    exact monotone_of_upToDate h hmn ⟨state, checkpoint, hstate, hcheckpoint, UInt64.le_refl _⟩

def demoWorkspace : BackgroundWorkspace := ⟨"project", "workspace", some "device"⟩

/-- A change of generation 5 is observed before the checkpoint for generation 3 is done. -/
def lateSuccess : List ManagerCall :=
  [.markDirty demoWorkspace 5,
    .handleCheckpoint demoWorkspace ⟨"workspace", 3, .quietWindow, ∅⟩
      (.ok (.unchanged "snapshot" "hash"))]

theorem late_success_reports_clean : ¬TracksDirtiness (fun _ => "") 3 lateSuccess := by
  intro h
  obtain ⟨checkpoint, hcheckpoint, hle⟩ := h.clean 2 "workspace"
    { dirty := false
      lastObservedGeneration := some 5
      lastCheckpointGeneration := some 3
      lastSnapshotId := some "snapshot"
      lastStateHash := some "hash" } rfl rfl 5 rfl
  rw [← Option.some.inj hcheckpoint] at hle
  exact absurd hle (by decide)

end DevRelay.Background
