import DevRelay.Lib.AsciiChars
import DevRelay.Trust.KeyText

/-!
# The hydration state machine

`hydration.rs` and what `metrics.rs` makes of the records.  A record is told from the
history of its machine: the transitions that were accepted, the newest first.
-/

namespace DevRelay.Environment

open DevRelay.Lib DevRelay.Core DevRelay.Trust

/-! ## The machine -/

inductive HydrationState where
  | cold
  | metadataReady
  | cacheReady
  | shellReady
  | appReady
  | failed
  deriving DecidableEq, Repr

inductive HydrationTransition where
  | metadataPrepared
  | cachePrepared
  | shellPrepared
  | appPrepared
  | failed
  | retry
  deriving DecidableEq, Repr

/-- The `\x7b:?\x7d` rendering. -/
def HydrationState.debug : HydrationState → String
  | .cold => "Cold"
  | .metadataReady => "MetadataReady"
  | .cacheReady => "CacheReady"
  | .shellReady => "ShellReady"
  | .appReady => "AppReady"
  | .failed => "Failed"

def HydrationTransition.debug : HydrationTransition → String
  | .metadataPrepared => "MetadataPrepared"
  | .cachePrepared => "CachePrepared"
  | .shellPrepared => "ShellPrepared"
  | .appPrepared => "AppPrepared"
  | .failed => "Failed"
  | .retry => "Retry"

structure HydrationStateRecord where
  projectId : String
  workspaceId : Option String
  state : HydrationState
  attempt : UInt32
  failure : Option String
  startedAtUnixSeconds : Option UInt64
  readyAtUnixSeconds : Option UInt64
  updatedAtUnixSeconds : UInt64
  deriving DecidableEq, Repr

def HydrationStateRecord.new (projectId : String) (workspaceId : Option String)
    (updatedAt : UInt64) : HydrationStateRecord where
  projectId := projectId
  workspaceId := workspaceId
  state := .cold
  attempt := 1
  failure := none
  startedAtUnixSeconds := some updatedAt
  readyAtUnixSeconds := none
  updatedAtUnixSeconds := updatedAt

structure HydrationProgress where
  projectId : String
  workspaceId : Option String
  previousState : Option HydrationState
  state : HydrationState
  transition : HydrationTransition
  attempt : UInt32
  failure : Option String
  updatedAtUnixSeconds : UInt64
  deriving DecidableEq, Repr

/-- The state behind a transition, unless it is illegal. -/
def HydrationState.next : HydrationState → HydrationTransition → Option HydrationState
  | .cold, .metadataPrepared => some .metadataReady
  | .metadataReady, .cachePrepared => some .cacheReady
  | .cacheReady, .shellPrepared => some .shellReady
  | .shellReady, .appPrepared => some .appReady
  | .failed, .retry => some .cold
  | _, .failed => some .failed
  | _, _ => none

/-- `u32::saturating_add(1)` -/
def nextAttempt (attempt : UInt32) : UInt32 :=
  if attempt = 0xFFFFFFFF then attempt else attempt + 1

/-- The arguments of a call of `apply`. -/
structure HydrationCall where
  transition : HydrationTransition
  now : UInt64
  failure : Option String := none
  deriving DecidableEq, Repr

namespace HydrationStateRecord

/-- The first branch of `apply`: what the transition says of the attempt. -/
def withOutcome (record : HydrationStateRecord) (call : HydrationCall) : HydrationStateRecord :=
  if call.transition = .retry then
    { record with
      attempt := nextAttempt record.attempt
      failure := none
      startedAtUnixSeconds := some call.now
      readyAtUnixSeconds := none }
  else if call.transition = .failed then
    { record with
      failure := call.failure
      startedAtUnixSeconds := some (record.startedAtUnixSeconds.getD call.now) }
  else { record with failure := none }

/-- The second branch of `apply`. -/
def withReady (record : HydrationStateRecord) (call : HydrationCall) : HydrationStateRecord :=
  if (call.transition = .shellPrepared ∨ call.transition = .appPrepared) ∧
      record.readyAtUnixSeconds = none then
    { record with readyAtUnixSeconds := some call.now }
  else record

def advanced (record : HydrationStateRecord) (call : HydrationCall) (next : HydrationState) :
    HydrationStateRecord :=
  { (record.withOutcome call).withReady call with
    state := next, updatedAtUnixSeconds := call.now }

/-- `HydrationStateMachine::apply` -/
def apply (record : HydrationStateRecord) (call : HydrationCall) :
    Except DevRelayError HydrationProgress × HydrationStateRecord :=
  match record.state.next call.transition with
  | none =>
    (.error (.config ("illegal hydration transition " ++ record.state.debug ++ " -> " ++
      call.transition.debug)), record)
  | some next =>
    let updated := record.advanced call next
    (.ok {
      projectId := updated.projectId
      workspaceId := updated.workspaceId
      previousState := some record.state
      state := updated.state
      transition := call.transition
      attempt := updated.attempt
      failure := updated.failure
      updatedAtUnixSeconds := call.now }, updated)

end HydrationStateRecord

/-! ## Histories -/

/-- The record and the calls that were accepted, the newest first. -/
abbrev HydrationRun := HydrationStateRecord × List HydrationCall

def hear (run : HydrationRun) (call : HydrationCall) : HydrationRun :=
  match run.1.apply call with
  | (.ok _, record) => (record, call :: run.2)
  | (.error _, record) => (record, run.2)

/-- A machine on a record and all its calls. -/
def HydrationStateRecord.run (record : HydrationStateRecord) (calls : List HydrationCall) :
    HydrationRun :=
  calls.foldl hear (record, [])

/-- The transitions of an attempt that goes well. -/
def preparations : List HydrationTransition :=
  [.metadataPrepared, .cachePrepared, .shellPrepared, .appPrepared]

/-- The state that a transition leads to. -/
def HydrationTransition.target : HydrationTransition → HydrationState
  | .metadataPrepared => .metadataReady
  | .cachePrepared => .cacheReady
  | .shellPrepared => .shellReady
  | .appPrepared => .appReady
  | .failed => .failed
  | .retry => .cold

section

variable (history : List HydrationCall)

/-- The calls of the last attempt. -/
def lastAttempt : List HydrationCall := history.takeWhile fun call => call.transition ≠ .retry

def retries : Nat := history.countP fun call => call.transition = .retry

def lastRetry : Option UInt64 :=
  (history.find? fun call => call.transition = .retry).map HydrationCall.now

/-- When the shell was ready in the last attempt. -/
def shellTime : Option UInt64 :=
  ((lastAttempt history).find? fun call => call.transition = .shellPrepared).map
    HydrationCall.now

def lastFailure : Option String :=
  match history.head? with
  | some call => if call.transition = .failed then call.failure else none
  | none => none

end

/-- What a record says of a machine that was made at `start` and has this history. -/
structure Tells (record : HydrationStateRecord) (start : UInt64)
    (history : List HydrationCall) : Prop where
  state : record.state = ((history.head?.map HydrationCall.transition).map
    HydrationTransition.target).getD .cold
  attempt : record.attempt.toNat = min (1 + retries history) (2 ^ 32 - 1)
  failure : record.failure = lastFailure history
  started : record.startedAtUnixSeconds = some ((lastRetry history).getD start)
  ready : record.readyAtUnixSeconds = shellTime history
  updated : record.updatedAtUnixSeconds = (history.head?.map HydrationCall.now).getD start
  /-- An attempt is prepared in order, as far as it comes, and then fails. -/
  course : ∃ n failures, (lastAttempt history).map HydrationCall.transition =
    List.replicate failures .failed ++ (preparations.take n).reverse

/-! ## One call -/

section

variable {record : HydrationStateRecord} {start : UInt64} {history : List HydrationCall}
  {call : HydrationCall} {next : HydrationState}

/-- The transitions of an attempt that came to this state, the newest first. -/
def HydrationState.prepared : HydrationState → List HydrationTransition
  | .cold => []
  | .metadataReady => [.metadataPrepared]
  | .cacheReady => [.cachePrepared, .metadataPrepared]
  | .shellReady => [.shellPrepared, .cachePrepared, .metadataPrepared]
  | .appReady => [.appPrepared, .shellPrepared, .cachePrepared, .metadataPrepared]
  | .failed => []

theorem lastAttempt_cons (h : call.transition ≠ .retry) :
    lastAttempt (call :: history) = call :: lastAttempt history :=
  List.takeWhile_cons_of_pos (decide_eq_true h)

theorem lastAttempt_retry (h : call.transition = .retry) : lastAttempt (call :: history) = [] :=
  List.takeWhile_cons_of_neg (by simp [h])

theorem Tells.state_eq (h : Tells record start history) :
    record.state = ((((lastAttempt history).map HydrationCall.transition).head?).map
      HydrationTransition.target).getD .cold := by
  rw [h.state]
  cases history with
  | nil => rfl
  | cons call history =>
    by_cases hretry : call.transition = .retry
    · rw [lastAttempt_retry hretry, List.head?_cons, Option.map_some, Option.map_some, hretry]
      rfl
    · rw [lastAttempt_cons hretry]
      rfl

/-- Where an attempt stands says what was prepared in it. -/
theorem Tells.prepared (h : Tells record start history) (hfailed : record.state ≠ .failed) :
    (lastAttempt history).map HydrationCall.transition = record.state.prepared := by
  obtain ⟨n, failures, hcourse⟩ := h.course
  have hstate := h.state_eq
  rw [hcourse] at hstate ⊢
  cases failures with
  | succ failures => exact absurd hstate hfailed
  | zero =>
    rw [List.replicate_zero, List.nil_append] at hstate ⊢
    rw [hstate]
    match n with
    | 0 => rfl
    | 1 => rfl
    | 2 => rfl
    | 3 => rfl
    | n + 4 =>
      rw [List.take_of_length_le (Nat.le_add_left 4 n)]
      rfl

theorem toNat_nextAttempt (attempt : UInt32) :
    (nextAttempt attempt).toNat = min (attempt.toNat + 1) (2 ^ 32 - 1) := by
  have hlt := attempt.toNat_lt
  unfold nextAttempt
  split
  · rename_i h
    rw [h]
    rfl
  · rename_i h
    have hne : attempt.toNat ≠ 0xFFFFFFFF := fun heq => h (UInt32.toNat_inj.mp heq)
    rw [UInt32.toNat_add, UInt32.toNat_one]
    omega

theorem retries_cons (h : call.transition ≠ .retry) : retries (call :: history) = retries history :=
  List.countP_cons_of_neg (by simp [h])

theorem retries_retry (h : call.transition = .retry) :
    retries (call :: history) = retries history + 1 :=
  List.countP_cons_of_pos (by simp [h])

theorem lastRetry_cons (h : call.transition ≠ .retry) :
    lastRetry (call :: history) = lastRetry history := by
  unfold lastRetry
  rw [List.find?_cons_of_neg (by simp [h])]

theorem lastRetry_retry (h : call.transition = .retry) :
    lastRetry (call :: history) = some call.now := by
  unfold lastRetry
  rw [List.find?_cons_of_pos (by simp [h])]
  rfl

theorem shellTime_cons (h : call.transition ≠ .retry) (hshell : call.transition ≠ .shellPrepared) :
    shellTime (call :: history) = shellTime history := by
  unfold shellTime
  rw [lastAttempt_cons h, List.find?_cons_of_neg (by simp [hshell])]

theorem shellTime_shell (h : call.transition = .shellPrepared) :
    shellTime (call :: history) = some call.now := by
  unfold shellTime
  rw [lastAttempt_cons (by simp [h]), List.find?_cons_of_pos (by simp [h])]
  rfl

theorem shellTime_retry (h : call.transition = .retry) : shellTime (call :: history) = none := by
  unfold shellTime
  rw [lastAttempt_retry h]
  rfl

theorem shellTime_isSome_iff : (shellTime history).isSome = true ↔
    .shellPrepared ∈ (lastAttempt history).map HydrationCall.transition := by
  unfold shellTime
  simp [List.find?_isSome]

theorem next_eq_target (h : record.state.next call.transition = some next) :
    next = call.transition.target := by
  cases hstate : record.state <;> cases htransition : call.transition <;>
    simp [hstate, htransition, HydrationState.next] at h <;> exact h.symm

/-- A preparation goes on where the one before it ended. -/
theorem prepared_next (h : record.state.next call.transition = some next)
    (hretry : call.transition ≠ .retry) (hfailed : call.transition ≠ .failed) :
    record.state ≠ .failed ∧ next.prepared = call.transition :: record.state.prepared ∧
      (call.transition = .appPrepared → .shellPrepared ∈ record.state.prepared) ∧
      (call.transition = .shellPrepared → .shellPrepared ∉ record.state.prepared) := by
  cases hstate : record.state <;> cases htransition : call.transition <;>
    simp [hstate, htransition, HydrationState.next] at h hretry hfailed <;> subst h <;>
    simp [HydrationState.prepared]

namespace HydrationStateRecord

theorem advanced_attempt : (record.advanced call next).attempt =
    if call.transition = .retry then nextAttempt record.attempt else record.attempt := by
  have hkept : (record.advanced call next).attempt = (record.withOutcome call).attempt := by
    unfold advanced withReady
    split <;> rfl
  rw [hkept]
  unfold withOutcome
  split_ifs <;> rfl

theorem advanced_failure : (record.advanced call next).failure =
    if call.transition = .failed then call.failure else none := by
  have hkept : (record.advanced call next).failure = (record.withOutcome call).failure := by
    unfold advanced withReady
    split <;> rfl
  rw [hkept]
  unfold withOutcome
  split_ifs with hretry hfailed hfailed
  · rw [hretry] at hfailed
    cases hfailed
  · rfl
  · rfl
  · rfl

theorem advanced_started : (record.advanced call next).startedAtUnixSeconds =
    if call.transition = .retry then some call.now
    else if call.transition = .failed then some (record.startedAtUnixSeconds.getD call.now)
    else record.startedAtUnixSeconds := by
  have hkept : (record.advanced call next).startedAtUnixSeconds =
      (record.withOutcome call).startedAtUnixSeconds := by
    unfold advanced withReady
    split <;> rfl
  rw [hkept]
  unfold withOutcome
  split_ifs <;> rfl

theorem withReady_ready : (record.withReady call).readyAtUnixSeconds =
    if call.transition = .shellPrepared ∨ call.transition = .appPrepared then
      some (record.readyAtUnixSeconds.getD call.now)
    else record.readyAtUnixSeconds := by
  unfold withReady
  cases hready : record.readyAtUnixSeconds with
  | none =>
    simp only [and_true]
    split <;> simp [hready]
  | some ready => simp [hready]

theorem advanced_ready : (record.advanced call next).readyAtUnixSeconds =
    if call.transition = .shellPrepared ∨ call.transition = .appPrepared then
      some (record.readyAtUnixSeconds.getD call.now)
    else if call.transition = .retry then none else record.readyAtUnixSeconds := by
  have hready : (record.withOutcome call).readyAtUnixSeconds =
      if call.transition = .retry then none else record.readyAtUnixSeconds := by
    unfold withOutcome
    split_ifs <;> rfl
  show ((record.withOutcome call).withReady call).readyAtUnixSeconds = _
  rw [withReady_ready, hready]
  split_ifs with hshell hretry hretry
  · rw [hretry] at hshell
    simp at hshell
  · rfl
  · rfl
  · rfl

end HydrationStateRecord

theorem exists_take_prepared (state : HydrationState) :
    ∃ n, state.prepared = (preparations.take n).reverse := by
  cases state with
  | cold => exact ⟨0, rfl⟩
  | metadataReady => exact ⟨1, rfl⟩
  | cacheReady => exact ⟨2, rfl⟩
  | shellReady => exact ⟨3, rfl⟩
  | appReady => exact ⟨4, rfl⟩
  | failed => exact ⟨0, rfl⟩

theorem Tells.ready_step (h : Tells record start history)
    (hnext : record.state.next call.transition = some next) :
    (record.advanced call next).readyAtUnixSeconds = shellTime (call :: history) := by
  rw [HydrationStateRecord.advanced_ready, h.ready]
  by_cases hretry : call.transition = .retry
  · rw [if_neg (by simp [hretry]), if_pos hretry, shellTime_retry hretry]
  · rw [if_neg hretry]
    by_cases hfailed : call.transition = .failed
    · rw [if_neg (by simp [hfailed]), shellTime_cons hretry (by simp [hfailed])]
    · obtain ⟨hstate, -, happ, hshell⟩ := prepared_next hnext hretry hfailed
      have hisSome : (shellTime history).isSome = true ↔
          .shellPrepared ∈ record.state.prepared := by
        rw [← h.prepared hstate]
        exact shellTime_isSome_iff
      by_cases hshellCall : call.transition = .shellPrepared
      · -- The shell was not ready in this attempt before.
        have hnone : shellTime history = none := by
          rw [← Option.not_isSome_iff_eq_none, hisSome]
          exact hshell hshellCall
        rw [if_pos (Or.inl hshellCall), shellTime_shell hshellCall, hnone]
        rfl
      · rw [shellTime_cons hretry hshellCall]
        split
        · rename_i hcall
          obtain ⟨ready, hready⟩ := Option.isSome_iff_exists.mp
            (hisSome.mpr (happ (hcall.resolve_left hshellCall)))
          rw [hready]
          rfl
        · rfl

theorem Tells.course_step (h : Tells record start history)
    (hnext : record.state.next call.transition = some next) :
    ∃ n failures, (lastAttempt (call :: history)).map HydrationCall.transition =
      List.replicate failures .failed ++ (preparations.take n).reverse := by
  by_cases hretry : call.transition = .retry
  · exact ⟨0, 0, by rw [lastAttempt_retry hretry]; rfl⟩
  · rw [lastAttempt_cons hretry, List.map_cons]
    by_cases hfailed : call.transition = .failed
    · obtain ⟨n, failures, hcourse⟩ := h.course
      exact ⟨n, failures + 1, by
        rw [hcourse, hfailed, List.replicate_succ, List.cons_append]⟩
    · obtain ⟨hstate, hprepared, -⟩ := prepared_next hnext hretry hfailed
      obtain ⟨n, htake⟩ := exists_take_prepared next
      exact ⟨n, 0, by rw [h.prepared hstate, ← hprepared, htake]; rfl⟩

/-- An accepted call goes on with the history. -/
theorem Tells.step (h : Tells record start history)
    (hnext : record.state.next call.transition = some next) :
    Tells (record.advanced call next) start (call :: history) where
  state := next_eq_target hnext
  attempt := by
    rw [HydrationStateRecord.advanced_attempt]
    split
    · rename_i hretry
      rw [toNat_nextAttempt, h.attempt, retries_retry hretry]
      omega
    · rename_i hretry
      rw [h.attempt, retries_cons hretry]
  failure := HydrationStateRecord.advanced_failure
  started := by
    rw [HydrationStateRecord.advanced_started, h.started]
    split
    · rename_i hretry
      rw [lastRetry_retry hretry]
      rfl
    · rename_i hretry
      rw [lastRetry_cons hretry]
      split <;> rfl
  ready := h.ready_step hnext
  updated := rfl
  course := h.course_step hnext

/-- The transitions that are legal after a history: a failure at any time, a retry behind a
failure, and the preparation that comes next in an attempt that has not failed. -/
def Legal (history : List HydrationCall) (transition : HydrationTransition) : Prop :=
  transition = .failed ∨
    (transition = .retry ∧ history.head?.map HydrationCall.transition = some .failed) ∨
    (history.head?.map HydrationCall.transition ≠ some .failed ∧
      preparations[(lastAttempt history).length]? = some transition)

theorem Tells.failed_iff (h : Tells record start history) :
    record.state = .failed ↔ history.head?.map HydrationCall.transition = some .failed := by
  rw [h.state]
  cases history.head?.map HydrationCall.transition with
  | none => simp
  | some transition => cases transition <;> simp [HydrationTransition.target]

theorem Tells.legal_iff (h : Tells record start history) (transition : HydrationTransition) :
    (record.state.next transition).isSome = true ↔ Legal history transition := by
  unfold Legal
  rw [Ne, ← h.failed_iff]
  by_cases hfailed : record.state = .failed
  · rw [hfailed]
    cases transition <;> simp [HydrationState.next]
  · have hlength : (lastAttempt history).length = record.state.prepared.length := by
      rw [← h.prepared hfailed, List.length_map]
    rw [hlength]
    revert hfailed
    cases record.state <;> cases transition <;>
      simp [HydrationState.next, HydrationState.prepared, preparations]

end

/-! ## Runs -/

section

variable {start : UInt64} {calls : List HydrationCall} {run : HydrationRun}

/-- One call, on a record that is told by the history. -/
theorem hear_tells (h : Tells run.1 start run.2) (call : HydrationCall) :
    Tells (hear run call).1 start (hear run call).2 ∧
      ((hear run call).2 = run.2 ∨ (hear run call).2 = call :: run.2) ∧
      (hear run call).1.projectId = run.1.projectId ∧
      (hear run call).1.workspaceId = run.1.workspaceId := by
  have hids : ∀ next, (run.1.advanced call next).projectId = run.1.projectId ∧
      (run.1.advanced call next).workspaceId = run.1.workspaceId := by
    intro next
    simp only [HydrationStateRecord.advanced, HydrationStateRecord.withReady,
      HydrationStateRecord.withOutcome]
    split_ifs <;> exact ⟨rfl, rfl⟩
  unfold hear HydrationStateRecord.apply
  cases hnext : run.1.state.next call.transition with
  | none => exact ⟨h, Or.inl rfl, rfl, rfl⟩
  | some next => exact ⟨h.step hnext, Or.inr rfl, hids next⟩

theorem tells_new (projectId : String) (workspaceId : Option String) (start : UInt64) :
    Tells (.new projectId workspaceId start) start [] where
  state := rfl
  attempt := rfl
  failure := rfl
  started := rfl
  ready := rfl
  updated := rfl
  course := ⟨0, 0, rfl⟩

theorem run_concat (record : HydrationStateRecord) (calls : List HydrationCall)
    (call : HydrationCall) : record.run (calls ++ [call]) = hear (record.run calls) call := by
  unfold HydrationStateRecord.run
  rw [List.foldl_append]
  rfl

/-- In every run the record tells its history: its attempt, its failure and its times are
those of the transitions that were accepted, which are the legal ones. -/
theorem hydration_run_law (projectId : String) (workspaceId : Option String) (start : UInt64)
    (calls : List HydrationCall) :
    let run := (HydrationStateRecord.new projectId workspaceId start).run calls
    Tells run.1 start run.2 ∧ run.2.reverse.Sublist calls ∧
      run.1.projectId = projectId ∧ run.1.workspaceId = workspaceId ∧
      ∀ call, ((∃ progress, (run.1.apply call).1 = .ok progress) ↔
          Legal run.2 call.transition) ∧
        ((∃ e, (run.1.apply call).1 = .error e) → (run.1.apply call).2 = run.1) := by
  intro run
  have hrun : Tells run.1 start run.2 ∧ run.2.reverse.Sublist calls ∧
      run.1.projectId = projectId ∧ run.1.workspaceId = workspaceId := by
    induction calls using List.reverseRecOn with
    | nil => exact ⟨tells_new projectId workspaceId start, List.Sublist.refl _, rfl, rfl⟩
    | append_singleton calls call ih =>
      obtain ⟨htells, hsublist, hproject, hworkspace⟩ := ih
      obtain ⟨hnext, hhistory, hproject', hworkspace'⟩ := hear_tells htells call
      have hconcat : run = hear _ call := run_concat _ calls call
      rw [hconcat]
      refine ⟨hnext, ?_, hproject'.trans hproject, hworkspace'.trans hworkspace⟩
      rcases hhistory with hsame | hmore
      · rw [hsame]
        exact hsublist.trans (List.sublist_append_left ..)
      · rw [hmore, List.reverse_cons]
        exact hsublist.append (List.Sublist.refl _)
  refine ⟨hrun.1, hrun.2.1, hrun.2.2.1, hrun.2.2.2, ?_⟩
  intro call
  rw [← hrun.1.legal_iff]
  unfold HydrationStateRecord.apply
  cases run.1.state.next call.transition with
  | none => simp
  | some next => simp

end

/-! ## Metrics -/

structure EnvironmentHydrationDurationMetric where
  projectId : String
  workspaceId : Option String
  durationSeconds : UInt64
  deriving DecidableEq, Repr

structure EnvironmentHydrationMetrics where
  records : Nat
  shellReady : Nat
  appReady : Nat
  failed : Nat
  durationSamples : List EnvironmentHydrationDurationMetric
  deriving DecidableEq, Repr

def durationSample (record : HydrationStateRecord) : Option EnvironmentHydrationDurationMetric := do
  let started ← record.startedAtUnixSeconds
  let ready ← record.readyAtUnixSeconds
  return ⟨record.projectId, record.workspaceId, saturatingSub ready started⟩

def environmentMetrics (records : List HydrationStateRecord) : EnvironmentHydrationMetrics where
  records := records.length
  shellReady := records.countP fun record => record.state = .shellReady
  appReady := records.countP fun record => record.state = .appReady
  failed := records.countP fun record => record.state = .failed
  durationSamples := records.filterMap durationSample

/-- A machine with all its calls, on a clock that does not go back. -/
structure HydratedWorkspace where
  projectId : String
  workspaceId : Option String
  start : UInt64
  calls : List HydrationCall
  clock : (start :: calls.map HydrationCall.now).Pairwise (· ≤ ·)

namespace HydratedWorkspace

variable (w : HydratedWorkspace)

def run : HydrationRun := (HydrationStateRecord.new w.projectId w.workspaceId w.start).run w.calls

def record : HydrationStateRecord := w.run.1

def history : List HydrationCall := w.run.2

/-- When the last attempt began. -/
def attemptStart : UInt64 := (lastRetry w.history).getD w.start

/-- The last transition that was accepted. -/
def lastTransition : Option HydrationTransition := w.history.head?.map HydrationCall.transition

theorem tells : Tells w.record w.start w.history :=
  (hydration_run_law w.projectId w.workspaceId w.start w.calls).1

theorem history_pairwise : (w.start :: w.history.reverse.map HydrationCall.now).Pairwise (· ≤ ·) :=
  w.clock.sublist
    (((hydration_run_law w.projectId w.workspaceId w.start w.calls).2.1.map _).cons_cons w.start)

/-- The shell of an attempt is ready after the attempt began. -/
theorem attemptStart_le {ready : UInt64} (h : shellTime w.history = some ready) :
    w.attemptStart ≤ ready := by
  have hclock := w.history_pairwise
  obtain ⟨call, hfind, rfl⟩ := Option.map_eq_some_iff.mp h
  have hmem : call ∈ lastAttempt w.history := List.mem_of_find?_eq_some hfind
  unfold attemptStart lastRetry
  cases hretry : w.history.find? fun call => call.transition = .retry with
  | none =>
    apply List.rel_of_pairwise_cons hclock
    exact List.mem_map_of_mem (List.mem_reverse.mpr ((List.takeWhile_sublist _).subset hmem))
  | some retry =>
    -- The retry lies behind the whole attempt in the history.
    have hsplit : lastAttempt w.history ++
        w.history.dropWhile (fun call => call.transition ≠ .retry) = w.history :=
      List.takeWhile_append_dropWhile
    have hbehind : retry ∈ w.history.dropWhile fun call => call.transition ≠ .retry := by
      have hin : retry ∈ w.history := List.mem_of_find?_eq_some hretry
      rw [← hsplit, List.mem_append] at hin
      refine hin.resolve_left fun hattempt => ?_
      have hother := List.mem_takeWhile_imp hattempt
      have hisRetry := List.find?_some hretry
      simp_all
    rw [← hsplit, List.reverse_append, List.map_append] at hclock
    exact (List.pairwise_append.mp (List.pairwise_cons.mp hclock).2).2.2 _
      (List.mem_map_of_mem (List.mem_reverse.mpr hbehind)) _
      (List.mem_map_of_mem (List.mem_reverse.mpr hmem))

theorem durationSample_record : durationSample w.record =
    (shellTime w.history).map fun ready =>
      ⟨w.projectId, w.workspaceId, ready - w.attemptStart⟩ := by
  obtain ⟨-, -, hproject, hworkspace, -⟩ :=
    hydration_run_law w.projectId w.workspaceId w.start w.calls
  unfold durationSample
  rw [w.tells.started, w.tells.ready]
  cases hready : shellTime w.history with
  | none => rfl
  | some ready =>
    have hle : (lastRetry w.history).getD w.start ≤ ready := w.attemptStart_le hready
    show some _ = some _
    rw [saturatingSub, if_pos hle]
    congr 2

theorem state_iff (transition : HydrationTransition) (h : transition ≠ .retry) :
    w.record.state = transition.target ↔ w.lastTransition = some transition := by
  rw [w.tells.state, ← lastTransition]
  cases w.lastTransition with
  | none => cases transition <;> simp_all [HydrationTransition.target]
  | some last => cases last <;> cases transition <;> simp_all [HydrationTransition.target]

end HydratedWorkspace

/-- The metrics of the records that machines left: each counts the machines by their last
transition, and the sample of a machine is the time from the beginning of its last attempt
to the moment its shell was ready. -/
theorem environmentMetrics_law (workspaces : List HydratedWorkspace) :
    let metrics := environmentMetrics (workspaces.map HydratedWorkspace.record)
    metrics.records = workspaces.length ∧
      metrics.shellReady = workspaces.countP (fun w => w.lastTransition = some .shellPrepared) ∧
      metrics.appReady = workspaces.countP (fun w => w.lastTransition = some .appPrepared) ∧
      metrics.failed = workspaces.countP (fun w => w.lastTransition = some .failed) ∧
      metrics.durationSamples = (workspaces.filterMap fun w =>
        (shellTime w.history).map fun ready =>
          ⟨w.projectId, w.workspaceId, ready - w.attemptStart⟩) ∧
      ∀ w ∈ workspaces, ∀ ready, shellTime w.history = some ready → w.attemptStart ≤ ready := by
  intro metrics
  have hcount : ∀ transition : HydrationTransition, transition ≠ .retry →
      (workspaces.map HydratedWorkspace.record).countP
        (fun record => record.state = transition.target) =
      workspaces.countP fun w => w.lastTransition = some transition := by
    intro transition hretry
    rw [List.countP_map]
    apply List.countP_congr
    intro w _
    simp only [Function.comp_apply, decide_eq_true_eq]
    exact w.state_iff transition hretry
  refine ⟨List.length_map _, hcount .shellPrepared (by decide), hcount .appPrepared (by decide),
    hcount .failed (by decide), ?_, fun w _ ready hready => w.attemptStart_le hready⟩
  show (workspaces.map HydratedWorkspace.record).filterMap durationSample = _
  rw [List.filterMap_map]
  apply List.filterMap_congr
  intro w _
  exact w.durationSample_record

/-- A machine whose first attempt failed and whose second one got to its shell. -/
def retriedWorkspace : HydratedWorkspace where
  projectId := "project-1"
  workspaceId := some "w_1"
  start := 100
  calls := [⟨.metadataPrepared, 110, none⟩, ⟨.failed, 120, some "no network"⟩,
    ⟨.retry, 200, none⟩, ⟨.metadataPrepared, 210, none⟩, ⟨.cachePrepared, 220, none⟩,
    ⟨.shellPrepared, 250, none⟩]
  clock := by decide

/-- A machine that has only begun. -/
def coldWorkspace : HydratedWorkspace where
  projectId := "project-1"
  workspaceId := some "w_2"
  start := 300
  calls := [⟨.metadataPrepared, 310, none⟩]
  clock := by decide

/-- The time of the retried machine counts from its second attempt. -/
theorem environmentMetrics_law_retried :
    let metrics := environmentMetrics
      ([retriedWorkspace, coldWorkspace].map HydratedWorkspace.record)
    metrics.records = 2 ∧ metrics.shellReady = 1 ∧ metrics.failed = 0 ∧
      metrics.durationSamples = [⟨"project-1", some "w_1", 50⟩] := by
  intro metrics
  obtain ⟨hrecords, hshell, -, hfailed, hsamples, -⟩ :=
    environmentMetrics_law [retriedWorkspace, coldWorkspace]
  exact ⟨hrecords, hshell.trans (by decide), hfailed.trans (by decide),
    hsamples.trans (by decide)⟩

/-! ## Files -/

/-- The characters of a name that is a file name as it is. -/
def isSafePathChar (c : Char) : Bool := c.isAlphanum || c = '-' || c = '_'

def SafeComponent (value : String) : Prop :=
  value ≠ "" ∧ value.toList.all isSafePathChar = true ∧ value ≠ "." ∧ value ≠ ".."

instance (value : String) : Decidable (SafeComponent value) :=
  inferInstanceAs (Decidable (_ ∧ _))

def safePathComponent (value : String) : String :=
  if SafeComponent value then value else "hex-" ++ hexEncode (utf8 value)

def hydrationStateFileName : Option String → String
  | some workspaceId => "workspace-" ++ safePathComponent workspaceId ++ ".json"
  | none => "project.json"

/-- `DevRelayHome::hydration_state_path` -/
def hydrationStatePath (root projectId : String) (workspaceId : Option String) : String :=
  join (join (join (join root "projects") projectId) "hydration")
    (hydrationStateFileName workspaceId)

theorem isSafePathChar_of_lowerHex {c : Char} (h : isLowerHexdigit c = true) :
    isSafePathChar c = true := by
  have halphanum : c.isAlphanum = true := by
    simp only [isLowerHexdigit, Bool.or_eq_true, Bool.and_eq_true, decide_eq_true_eq] at h
    rw [isAlphanum_iff, isLower_iff, isDigit_iff]
    rcases h with ⟨hlow, hhigh⟩ | ⟨hlow, hhigh⟩
    · exact Or.inr ⟨hlow, hhigh⟩
    · have hbound : c.toNat ≤ 102 := hhigh
      exact Or.inl (Or.inr ⟨hlow, by omega⟩)
  rw [isSafePathChar, halphanum]
  rfl

theorem all_safePathComponent (value : String) :
    (safePathComponent value).toList.all isSafePathChar = true := by
  unfold safePathComponent
  split
  · rename_i h
    exact h.2.1
  · rw [String.toList_append, List.all_append, Bool.and_eq_true]
    refine ⟨by decide, ?_⟩
    rw [List.all_eq_true]
    intro c hc
    exact isSafePathChar_of_lowerHex
      (List.all_eq_true.mp (isLowerHex_hexEncode (utf8 value)) c hc)

/-- Two values share a component when they are one, or when one of them is the encoded form
of the other. -/
theorem safePathComponent_eq_iff (a b : String) : safePathComponent a = safePathComponent b ↔
    a = b ∨ (¬SafeComponent a ∧ b = safePathComponent a) ∨
      (¬SafeComponent b ∧ a = safePathComponent b) := by
  have hsafe : ∀ value : String, SafeComponent (safePathComponent value) := by
    intro value
    have hall := all_safePathComponent value
    unfold safePathComponent at hall ⊢
    split
    · assumption
    · rename_i h
      rw [if_neg h] at hall
      have hfront : ∀ other : String, other.toList.head? ≠ some 'h' →
          "hex-" ++ hexEncode (utf8 value) ≠ other := by
        rintro other hother rfl
        exact hother (by rw [String.toList_append]; rfl)
      exact ⟨hfront _ (by decide), hall, hfront _ (by decide), hfront _ (by decide)⟩
  have hself : ∀ value, SafeComponent value → safePathComponent value = value :=
    fun value h => if_pos h
  constructor
  · intro h
    by_cases ha : SafeComponent a
    · by_cases hb : SafeComponent b
      · rw [hself a ha, hself b hb] at h
        exact Or.inl h
      · rw [hself a ha] at h
        exact Or.inr (Or.inr ⟨hb, h⟩)
    · by_cases hb : SafeComponent b
      · rw [hself b hb] at h
        exact Or.inr (Or.inl ⟨ha, h.symm⟩)
      · unfold safePathComponent at h
        rw [if_neg ha, if_neg hb] at h
        left
        exact utf8_injective (hexEncode_injective (String.append_right_inj _ |>.mp h))
  · rintro (rfl | ⟨-, rfl⟩ | ⟨-, rfl⟩)
    · rfl
    · exact (hself _ (hsafe a)).symm
    · exact hself _ (hsafe b)

theorem toList_hydrationStateFileName (workspaceId : Option String) :
    ∃ name, (hydrationStateFileName workspaceId).toList = name ++ ".json".toList ∧
      name ≠ [] ∧ name.all isSafePathChar = true := by
  cases workspaceId with
  | none => exact ⟨"project".toList, rfl, by decide, by decide⟩
  | some workspaceId =>
    refine ⟨"workspace-".toList ++ (safePathComponent workspaceId).toList, ?_, by simp, ?_⟩
    · rw [hydrationStateFileName, String.toList_append, String.toList_append]
    · rw [List.all_append, all_safePathComponent, Bool.and_true]
      decide

theorem components_hydrationStateFileName (workspaceId : Option String) :
    components (hydrationStateFileName workspaceId) =
      [.normal (hydrationStateFileName workspaceId)] := by
  obtain ⟨name, hname, hne, hall⟩ := toList_hydrationStateFileName workspaceId
  have hlength : 5 < (hydrationStateFileName workspaceId).toList.length := by
    rw [hname, List.length_append]
    have hpos : 0 < name.length := List.length_pos_of_ne_nil hne
    show 5 < name.length + 5
    omega
  have hslash : '/' ∉ (hydrationStateFileName workspaceId).toList := by
    rw [hname, List.mem_append, not_or]
    exact ⟨fun h => absurd (List.all_eq_true.mp hall _ h) (by decide), by decide⟩
  have hcomponents := components_of_name hslash
    (by rintro h; rw [h] at hlength; exact absurd hlength (by decide))
    (by rintro h; rw [h] at hlength; exact absurd hlength (by decide))
    (by rintro h; rw [h] at hlength; exact absurd hlength (by decide))
  rwa [String.ofList_toList] at hcomponents

theorem hydrationStateFileName_eq_iff (a b : Option String) :
    hydrationStateFileName a = hydrationStateFileName b ↔
      a = b ∨ ∃ w, ¬SafeComponent w ∧ ((a = some w ∧ b = some (safePathComponent w)) ∨
        (b = some w ∧ a = some (safePathComponent w))) := by
  have hproject : ∀ w, hydrationStateFileName none ≠ hydrationStateFileName (some w) := by
    intro w h
    have hhead := congrArg (fun text => text.toList.head?) h
    simp [hydrationStateFileName, String.toList_append] at hhead
  have hworkspace : ∀ v w, hydrationStateFileName (some v) = hydrationStateFileName (some w) ↔
      safePathComponent v = safePathComponent w := by
    intro v w
    unfold hydrationStateFileName
    rw [String.append_left_inj, String.append_right_inj]
  cases a with
  | none =>
    cases b with
    | none => simp
    | some w => simp [hproject w]
  | some v =>
    cases b with
    | none => simp [(hproject v).symm]
    | some w =>
      rw [hworkspace, safePathComponent_eq_iff]
      constructor
      · rintro (rfl | ⟨hv, rfl⟩ | ⟨hw, rfl⟩)
        · exact Or.inl rfl
        · exact Or.inr ⟨v, hv, Or.inl ⟨rfl, rfl⟩⟩
        · exact Or.inr ⟨w, hw, Or.inr ⟨rfl, rfl⟩⟩
      · rintro (h | ⟨u, hu, ⟨hv, hw⟩ | ⟨hw, hv⟩⟩)
        · exact Or.inl (Option.some.inj h)
        · obtain rfl := Option.some.inj hv
          exact Or.inr (Or.inl ⟨hu, Option.some.inj hw⟩)
        · obtain rfl := Option.some.inj hw
          exact Or.inr (Or.inr ⟨hu, Option.some.inj hv⟩)

/-- The state of every workspace has one file, a JSON file right below `hydration` in the
directory of the project; two workspaces share it only when the name of one is the encoded
name of the other. -/
theorem hydration_files_law (root projectId : String) (hproject : isAbsolute projectId = false) :
    (∀ workspaceId, steps (hydrationStatePath root projectId workspaceId) =
      steps root ++ .normal "projects" :: steps projectId ++
        [.normal "hydration", .normal (hydrationStateFileName workspaceId)]) ∧
    (∀ workspaceId, ".json".toList <:+ (hydrationStateFileName workspaceId).toList) ∧
    ∀ a b, hydrationStatePath root projectId a = hydrationStatePath root projectId b ↔
      a = b ∨ ∃ w, ¬SafeComponent w ∧ ((a = some w ∧ b = some (safePathComponent w)) ∨
        (b = some w ∧ a = some (safePathComponent w))) := by
  have hsteps : ∀ workspaceId, steps (hydrationStateFileName workspaceId) =
      [.normal (hydrationStateFileName workspaceId)] := by
    intro workspaceId
    unfold steps
    rw [components_hydrationStateFileName]
    rfl
  have hrelative : ∀ workspaceId, isAbsolute (hydrationStateFileName workspaceId) = false := by
    intro workspaceId
    rw [Bool.eq_false_iff, Ne, isAbsolute_iff, hsteps]
    simp
  have hpath : ∀ workspaceId, steps (hydrationStatePath root projectId workspaceId) =
      steps root ++ .normal "projects" :: steps projectId ++
        [.normal "hydration", .normal (hydrationStateFileName workspaceId)] := by
    intro workspaceId
    have hprojects : steps "projects" = [.normal "projects"] := by decide
    have hhydration : steps "hydration" = [.normal "hydration"] := by decide
    unfold hydrationStatePath
    rw [steps_join (hrelative workspaceId), steps_join (by decide), steps_join hproject,
      steps_join (by decide), hprojects, hhydration, hsteps]
    simp
  refine ⟨hpath, ?_, ?_⟩
  · intro workspaceId
    obtain ⟨name, hname, -⟩ := toList_hydrationStateFileName workspaceId
    exact ⟨name, hname.symm⟩
  · intro a b
    rw [← hydrationStateFileName_eq_iff]
    constructor
    · intro h
      have hsame := congrArg steps h
      rw [hpath, hpath] at hsame
      simpa using hsame
    · intro h
      unfold hydrationStatePath
      rw [h]

theorem hydration_files_law_demo :
    hydrationStatePath "/home" "project" (some "../x") =
        hydrationStatePath "/home" "project" (some "hex-2e2e2f78") ↔
      (some "../x" : Option String) = some "hex-2e2e2f78" ∨
        ∃ w, ¬SafeComponent w ∧
          ((some "../x" = some w ∧ some "hex-2e2e2f78" = some (safePathComponent w)) ∨
            (some "hex-2e2e2f78" = some w ∧ some "../x" = some (safePathComponent w))) :=
  (hydration_files_law "/home" "project" (by decide)).2.2 _ _

end DevRelay.Environment
