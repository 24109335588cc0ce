import DevRelay.Retention.PlannerSafety

/-!
# The arithmetic of a plan

`plan_snapshot_pruning` multiplies the windows of its policy and sums the sizes of what is
outside retention with the plain operators; only the pressure pass saturates.  The bytes it
reports are compared with the sizes of the snapshots it plans to delete.
-/

namespace DevRelay.Retention

open DevRelay.Lib

/-- The part of the sync configuration that a retention policy is made from. -/
structure SyncConfig where
  deviceCacheQuotaMib : Option UInt64

def RetentionPolicy.fromSyncConfig (sync : Option SyncConfig) : RetentionPolicy :=
  match sync with
  | none => default
  | some sync => { default with deviceCacheQuotaMib := sync.deviceCacheQuotaMib }

/-- The sizes that `planned_reclaim_bytes` sums. -/
def outsideSizes (input : PruningPlanInput) : List UInt64 :=
  (input.snapshots.filter fun snapshot =>
    snapshot.snapshotId ∈ input.beforePressure.deleteReasons.map Prod.fst).map
      (·.estimatedSizeBytes)

/-- The planner with checks on its plain operators; without a plan it panics. -/
def planSnapshotPruningChecked (input : PruningPlanInput) : Option PruningPlan := do
  let _ ← checkedMul input.policy.hourlyThinningHours secondsPerHour
  let _ ← checkedMul input.policy.dailyThinningDays secondsPerDay
  let _ ← checkedSum (outsideSizes input)
  return planSnapshotPruning input

/-- Nothing overflows, and the bytes reported are those of the deletions. -/
def ArithmeticSafe (input : PruningPlanInput) : Prop :=
  ∃ plan, planSnapshotPruningChecked input = some plan ∧
    plan.plannedReclaimBytes.toNat = bytesOf (plan.decisions.filter fun d => !d.isKept)

/-! ## The pass in unbounded numbers -/

/-- The total, and the ids that were taken for it. -/
structure ReclaimRun where
  total : Nat
  taken : List String

/-- The pressure pass in unbounded numbers: the candidates in order, one for each id, until the
target is reached. -/
def exactPass (candidate : SnapshotRetentionEntry → Bool) (target : Nat) :
    List SnapshotRetentionEntry → ReclaimRun → ReclaimRun
  | [], run => run
  | snapshot :: rest, run =>
    if target ≤ run.total then
      run
    else if candidate snapshot && snapshot.snapshotId ∉ run.taken then
      exactPass candidate target rest
        ⟨run.total + snapshot.estimatedSizeBytes.toNat, snapshot.snapshotId :: run.taken⟩
    else
      exactPass candidate target rest run

/-- What is outside retention, and then what the pressure takes of the rest. -/
def exactReclaim (input : PruningPlanInput) : ReclaimRun :=
  exactPass input.beforePressure.candidate input.targetReclaimBytes.toNat
    (oldestFirst input.snapshots) ⟨exactSum (outsideSizes input), []⟩

/-- The windows of a policy fit into 64 bits. -/
def WindowsFit (policy : RetentionPolicy) : Prop :=
  policy.hourlyThinningHours.toNat * secondsPerHour.toNat < 2 ^ 64 ∧
    policy.dailyThinningDays.toNat * secondsPerDay.toNat < 2 ^ 64

/-- The sizes of what is outside retention and of what the pressure takes fit into 64 bits
together, and no id that the pressure takes has bytes under a second entry. -/
def ReclaimFits (input : PruningPlanInput) : Prop :=
  (exactReclaim input).total < 2 ^ 64 ∧
    exactSum (outsideSizes input) + sizeOf (input.snapshots.filter fun s =>
      s.snapshotId ∈ (exactReclaim input).taken) = (exactReclaim input).total

section

variable {candidate : SnapshotRetentionEntry → Bool} {target : Nat} {run : ReclaimRun}
  {snapshots : List SnapshotRetentionEntry}

theorem taken_exactPass {id : String} (h : id ∈ run.taken) :
    id ∈ (exactPass candidate target snapshots run).taken := by
  induction snapshots generalizing run with
  | nil => exact h
  | cons snapshot rest ih =>
    rw [exactPass]
    split
    · exact h
    · split
      · exact ih (List.mem_cons_of_mem _ h)
      · exact ih h

/-- Only candidates are taken. -/
theorem candidate_of_taken {id : String}
    (h : id ∈ (exactPass candidate target snapshots run).taken) :
    id ∈ run.taken ∨ ∃ s ∈ snapshots, s.snapshotId = id ∧ candidate s = true := by
  induction snapshots generalizing run with
  | nil => exact Or.inl h
  | cons snapshot rest ih =>
    have hlift : (∃ s ∈ rest, s.snapshotId = id ∧ candidate s = true) →
        ∃ s ∈ snapshot :: rest, s.snapshotId = id ∧ candidate s = true := by
      rintro ⟨s, hs, hsame⟩
      exact ⟨s, List.mem_cons_of_mem _ hs, hsame⟩
    rw [exactPass] at h
    split at h
    · exact Or.inl h
    · split at h
      · rename_i hopen
        rw [Bool.and_eq_true] at hopen
        rcases ih h with htaken | hlater
        · rcases List.mem_cons.mp htaken with hid | htaken
          · exact Or.inr ⟨snapshot, List.mem_cons_self, hid.symm, hopen.1⟩
          · exact Or.inl htaken
        · exact Or.inr (hlift hlater)
      · exact (ih h).imp_right hlift

/-- A run counts no more than the entries under the ids that it takes. -/
theorem exactPass_total_le :
    (exactPass candidate target snapshots run).total ≤
      run.total + sizeOf (snapshots.filter fun s =>
        decide (s.snapshotId ∈ (exactPass candidate target snapshots run).taken) &&
          decide (s.snapshotId ∉ run.taken)) := by
  induction snapshots generalizing run with
  | nil => exact Nat.le_add_right _ _
  | cons snapshot rest ih =>
    rw [exactPass]
    split
    · exact Nat.le_add_right _ _
    · split
      · rename_i hopen
        rw [Bool.and_eq_true, decide_eq_true_eq] at hopen
        generalize hnext : (⟨run.total + snapshot.estimatedSizeBytes.toNat,
          snapshot.snapshotId :: run.taken⟩ : ReclaimRun) = next
        have hstep := @ih next
        have hself : snapshot.snapshotId ∈ (exactPass candidate target rest next).taken := by
          apply taken_exactPass
          rw [← hnext]
          exact List.mem_cons_self
        have hrest : sizeOf (rest.filter fun s =>
              decide (s.snapshotId ∈ (exactPass candidate target rest next).taken) &&
                decide (s.snapshotId ∉ next.taken)) ≤
            sizeOf (rest.filter fun s =>
              decide (s.snapshotId ∈ (exactPass candidate target rest next).taken) &&
                decide (s.snapshotId ∉ run.taken)) := by
          apply sizeOf_filter_le
          intro s _ hs
          rw [Bool.and_eq_true, decide_eq_true_eq, decide_eq_true_eq] at hs ⊢
          refine ⟨hs.1, fun hold => hs.2 ?_⟩
          rw [← hnext]
          exact List.mem_cons_of_mem _ hold
        have htotal : next.total = run.total + snapshot.estimatedSizeBytes.toNat := by
          rw [← hnext]
        rw [List.filter_cons, decide_eq_true hself, decide_eq_true hopen.2, Bool.and_self,
          if_pos rfl, sizeOf, List.map_cons, List.sum_cons, ← sizeOf]
        omega
      · refine Nat.le_trans ih (Nat.add_le_add_left ?_ _)
        rw [List.filter_cons]
        split
        · exact Nat.le_add_left _ _
        · exact Nat.le_refl _

end

/-! ## The pass of the planner -/

section

variable {before state : PressureState} {run : ReclaimRun} {target : UInt64}
  {pressureReason : PruningReason} {snapshots : List SnapshotRetentionEntry}

/-- The state of the pass next to the run in unbounded numbers. -/
structure Tracks (before state : PressureState) (run : ReclaimRun) : Prop where
  planned : state.plannedReclaimBytes.toNat = min run.total (2 ^ 64 - 1)
  ids : ∀ id, id ∈ state.deleteReasons.map Prod.fst ↔
    id ∈ before.deleteReasons.map Prod.fst ∨ id ∈ run.taken
  reasons : ∀ id, id ∉ run.taken → state.reasons.get id = before.reasons.get id

theorem Tracks.reached (h : Tracks before state run) :
    state.plannedReclaimBytes ≥ target ↔ target.toNat ≤ run.total := by
  have htarget := target.toNat_lt
  rw [ge_iff_le, UInt64.le_iff_toNat_le, h.planned]
  omega

theorem Tracks.take (h : Tracks before state run) (snapshot : SnapshotRetentionEntry) :
    Tracks before
      { reasons := state.reasons.clear snapshot.snapshotId
        deleteReasons := (snapshot.snapshotId, pressureReason) :: state.deleteReasons
        plannedReclaimBytes :=
          saturatingAdd state.plannedReclaimBytes snapshot.estimatedSizeBytes }
      ⟨run.total + snapshot.estimatedSizeBytes.toNat, snapshot.snapshotId :: run.taken⟩ where
  planned := by
    rw [toNat_saturatingAdd, h.planned]
    show _ = min (run.total + snapshot.estimatedSizeBytes.toNat) (2 ^ 64 - 1)
    omega
  ids id := by
    rw [List.map_cons, List.mem_cons, h.ids, List.mem_cons]
    exact or_left_comm
  reasons id hnot := by
    rw [List.mem_cons, not_or] at hnot
    rw [ReasonMap.get_clear_of_ne hnot.1]
    exact h.reasons id hnot.2

/-- The candidates are the snapshots that the pass does not skip. -/
theorem Tracks.candidate_iff (h : Tracks before state run) (snapshot : SnapshotRetentionEntry) :
    (before.candidate snapshot && decide (snapshot.snapshotId ∉ run.taken)) = true ↔
      snapshot.snapshotId ∉ state.deleteReasons.map Prod.fst ∧
        ¬(state.reasons.get snapshot.snapshotId).any (·.isHard) = true := by
  rw [PressureState.candidate, Bool.and_eq_true, Bool.and_eq_true, decide_eq_true_eq,
    decide_eq_true_eq, Bool.not_eq_true', ← Bool.not_eq_true, h.ids, not_or]
  constructor
  · rintro ⟨⟨houtside, hsoft⟩, htaken⟩
    exact ⟨⟨houtside, htaken⟩, by rwa [h.reasons _ htaken]⟩
  · rintro ⟨⟨houtside, htaken⟩, hsoft⟩
    exact ⟨⟨houtside, by rwa [h.reasons _ htaken] at hsoft⟩, htaken⟩

theorem Tracks.pass (h : Tracks before state run) :
    Tracks before (pressurePass target pressureReason snapshots state)
      (exactPass before.candidate target.toNat snapshots run) := by
  induction snapshots generalizing state run with
  | nil => exact h
  | cons snapshot rest ih =>
    rw [pressurePass, exactPass]
    by_cases hreached : target.toNat ≤ run.total
    · rw [if_pos (h.reached.mpr hreached), if_pos hreached]
      exact h
    · rw [if_neg (mt h.reached.mp hreached), if_neg hreached]
      by_cases hcandidate :
          (before.candidate snapshot && decide (snapshot.snapshotId ∉ run.taken)) = true
      · obtain ⟨hopen, hsoft⟩ := (h.candidate_iff snapshot).mp hcandidate
        rw [if_neg hopen, if_neg hsoft, if_pos hcandidate]
        exact ih (h.take snapshot)
      · rw [if_neg hcandidate]
        have hskip := mt (h.candidate_iff snapshot).mpr hcandidate
        by_cases hopen : snapshot.snapshotId ∈ state.deleteReasons.map Prod.fst
        · rw [if_pos hopen]
          exact ih h
        · have hhard : (state.reasons.get snapshot.snapshotId).any (·.isHard) = true := by
            by_contra hsoft
            exact hskip ⟨hopen, hsoft⟩
          rw [if_neg hopen, if_pos hhard]
          exact ih h

end

/-! ## Exact plans -/

section

variable {input : PruningPlanInput}

theorem toNat_beforePressure :
    input.beforePressure.plannedReclaimBytes.toNat = exactSum (outsideSizes input) % 2 ^ 64 :=
  toNat_sum_map (outsideSizes input)

theorem exactSum_outsideSizes :
    exactSum (outsideSizes input) = sizeOf (input.snapshots.filter fun snapshot =>
      snapshot.snapshotId ∈ input.beforePressure.deleteReasons.map Prod.fst) := by
  rw [exactSum, outsideSizes, List.map_map]
  rfl

/-- When the first sum does not overflow, the planner follows the run in unbounded numbers. -/
theorem tracks_afterPressure (hfits : exactSum (outsideSizes input) < 2 ^ 64) :
    Tracks input.beforePressure input.afterPressure (exactReclaim input) := by
  obtain ⟨pressureReason, -, hpass⟩ := afterPressure_eq input
  rw [hpass]
  apply Tracks.pass
  constructor
  · rw [toNat_beforePressure, Nat.mod_eq_of_lt hfits]
    show _ = min (exactSum (outsideSizes input)) (2 ^ 64 - 1)
    omega
  · intro id
    rw [or_iff_left List.not_mem_nil]
  · exact fun _ _ => rfl

/-- The pressure takes nothing that is outside retention. -/
theorem inside_of_taken {id : String} (h : id ∈ (exactReclaim input).taken) :
    id ∉ input.beforePressure.deleteReasons.map Prod.fst := by
  rcases candidate_of_taken h with hnil | ⟨s, -, hid, hcandidate⟩
  · exact absurd hnil List.not_mem_nil
  · rw [PressureState.candidate, Bool.and_eq_true, decide_eq_true_eq, hid] at hcandidate
    exact hcandidate.1

theorem sizeOf_filter_or {p q : SnapshotRetentionEntry → Bool}
    {snapshots : List SnapshotRetentionEntry} (h : ∀ s, p s = true → q s = false) :
    sizeOf (snapshots.filter fun s => p s || q s) =
      sizeOf (snapshots.filter p) + sizeOf (snapshots.filter q) := by
  induction snapshots with
  | nil => rfl
  | cons s rest ih =>
    have hcons : ∀ r : SnapshotRetentionEntry → Bool, sizeOf ((s :: rest).filter r) =
        (if r s = true then s.estimatedSizeBytes.toNat else 0) + sizeOf (rest.filter r) := by
      intro r
      rw [List.filter_cons]
      split
      · rw [sizeOf, List.map_cons, List.sum_cons, ← sizeOf]
      · rw [Nat.zero_add]
    rw [hcons, hcons, hcons, ih]
    cases hp : p s with
    | true =>
      rw [h s hp, Bool.or_false, if_pos rfl, if_neg Bool.false_ne_true]
      omega
    | false =>
      rw [Bool.false_or, if_neg Bool.false_ne_true]
      omega

/-- The bytes of the deletions, where the first sum does not overflow. -/
theorem deletedBytes_eq (hfits : exactSum (outsideSizes input) < 2 ^ 64) :
    bytesOf ((planSnapshotPruning input).decisions.filter fun d => !d.isKept) =
      exactSum (outsideSizes input) + sizeOf (input.snapshots.filter fun s =>
        s.snapshotId ∈ (exactReclaim input).taken) := by
  have htracks := tracks_afterPressure hfits
  rw [exactSum_outsideSizes, ← sizeOf_filter_or]
  · show bytesOf ((input.snapshots.map (decisionFor input.afterPressure)).filter _) = _
    rw [List.filter_map, bytesOf_map_decisionFor]
    congr 1
    apply List.filter_congr
    intro s _
    rw [Function.comp_apply, Bool.eq_iff_iff, Bool.or_eq_true, decide_eq_true_eq,
      decide_eq_true_eq, ← htracks.ids]
    constructor
    · intro hdeleted
      by_contra hkept
      have hnone : input.afterPressure.deleteReasons.lookup s.snapshotId = none := by
        rw [List.lookup_eq_none_iff]
        intro entry hentry
        rw [bne_iff_ne]
        intro heq
        apply hkept
        rw [heq]
        exact List.mem_map_of_mem hentry
      rw [PruningDecision.isKept, decisionFor, hnone] at hdeleted
      cases hdeleted
    · intro hmem
      obtain ⟨entry, hentry, hid⟩ := List.mem_map.mp hmem
      cases hlookup : input.afterPressure.deleteReasons.lookup s.snapshotId with
      | none =>
        have hne := List.lookup_eq_none_iff.mp hlookup entry hentry
        rw [bne_iff_ne] at hne
        exact absurd hid.symm hne
      | some reason =>
        rw [PruningDecision.isKept, decisionFor, hlookup]
        rfl
  · intro s houtside
    rw [decide_eq_true_eq] at houtside
    rw [decide_eq_false_iff_not]
    exact fun htaken => inside_of_taken htaken houtside

theorem planChecked_eq_some {plan : PruningPlan} :
    planSnapshotPruningChecked input = some plan ↔
      WindowsFit input.policy ∧ exactSum (outsideSizes input) < 2 ^ 64 ∧
        plan = planSnapshotPruning input := by
  unfold planSnapshotPruningChecked WindowsFit
  rw [← checkedMul_isSome, ← checkedMul_isSome, ← checkedSum_isSome]
  cases checkedMul input.policy.hourlyThinningHours secondsPerHour with
  | none => simp
  | some hourly =>
    cases checkedMul input.policy.dailyThinningDays secondsPerDay with
    | none => simp
    | some daily =>
      cases checkedSum (outsideSizes input) with
      | none => simp
      | some total => simp [eq_comm]

/-- The run counts no more than the plan deletes. -/
theorem exactReclaim_total_le :
    (exactReclaim input).total ≤ exactSum (outsideSizes input) + sizeOf
      (input.snapshots.filter fun s => s.snapshotId ∈ (exactReclaim input).taken) := by
  refine Nat.le_trans exactPass_total_le (Nat.add_le_add_left ?_ _)
  have hperm := List.perm_insertionSort (fun a b => olderFirst a b) input.snapshots
  rw [← sizeOf_perm (hperm.filter _)]
  apply sizeOf_filter_le
  intro s _ hs
  rw [Bool.and_eq_true] at hs
  exact hs.1

end

/-- The arithmetic of a plan is safe exactly when the windows of the policy and the reclaimed
bytes fit into 64 bits; the windows of a configured policy do. -/
theorem arithmeticSafe_iff (input : PruningPlanInput) (sync : Option SyncConfig) :
    (ArithmeticSafe input ↔ WindowsFit input.policy ∧ ReclaimFits input) ∧
      WindowsFit (RetentionPolicy.fromSyncConfig sync) := by
  constructor
  · constructor
    · rintro ⟨plan, hchecked, hbytes⟩
      obtain ⟨hwindows, hfits, rfl⟩ := planChecked_eq_some.mp hchecked
      have hplanned := (tracks_afterPressure hfits).planned
      have hle : (exactReclaim input).total ≤ _ := exactReclaim_total_le
      rw [deletedBytes_eq hfits] at hbytes
      have hsame : (planSnapshotPruning input).plannedReclaimBytes =
          input.afterPressure.plannedReclaimBytes := rfl
      rw [hsame, hplanned] at hbytes
      exact ⟨hwindows, by omega, by omega⟩
    · rintro ⟨hwindows, hbelow, hbytes⟩
      have hfits : exactSum (outsideSizes input) < 2 ^ 64 := by omega
      refine ⟨_, planChecked_eq_some.mpr ⟨hwindows, hfits, rfl⟩, ?_⟩
      have hplanned := (tracks_afterPressure hfits).planned
      rw [deletedBytes_eq hfits, hbytes]
      show input.afterPressure.plannedReclaimBytes.toNat = _
      rw [hplanned]
      omega
  · have hdefault : WindowsFit RetentionPolicy.default := ⟨by decide, by decide⟩
    cases sync with
    | none => exact hdefault
    | some sync => exact hdefault

/-- Two snapshots of `2 ^ 63` bytes that no window of the default policy reaches, behind five
newer ones. -/
def largeSnapshots : PruningPlanInput where
  snapshots := [
    ⟨"s1", none, 1, false, 0, 0x8000000000000000⟩,
    ⟨"s2", none, 2, false, 0, 0x8000000000000000⟩,
    ⟨"s3", none, 3, false, 9000000, 1⟩,
    ⟨"s4", none, 4, false, 9000000, 1⟩,
    ⟨"s5", none, 5, false, 9000000, 1⟩,
    ⟨"s6", none, 6, false, 9000000, 1⟩,
    ⟨"s7", none, 7, false, 9000000, 1⟩]
  policy := RetentionPolicy.fromSyncConfig none
  scope := .deviceCache
  canonicalLatestSnapshotId := none
  handoffProtections := []
  currentUsageBytes := 0
  freeDiskBytes := 0x7fffffffffffffff
  nowUnixSeconds := 9000000

/-- The sum of the sizes overflows under the default policy. -/
theorem large_snapshots_overflow :
    ¬∀ input sync, input.policy = RetentionPolicy.fromSyncConfig sync → ArithmeticSafe input := by
  intro hclaim
  obtain ⟨plan, hchecked, -⟩ := hclaim largeSnapshots none rfl
  have hsum : exactSum (outsideSizes largeSnapshots) = 2 ^ 64 := by decide
  obtain ⟨-, hfits, -⟩ := planChecked_eq_some.mp hchecked
  omega

end DevRelay.Retention
