import DevRelay.Scheduler.Arithmetic

/-!
# The selected device

The best score wins, and of equal scores the smallest id; neither depends on the
order in which the devices are listed.  A device that gets better is not scored
lower, as long as its score can be computed at all.
-/

namespace DevRelay.Scheduler

open DevRelay.Lib DevRelay.Core

/-- A known value that got larger, or one that did not change. -/
def Raised {α : Type} [LE α] (before after : Option α) : Prop :=
  before = after ∨ ∃ x y, before = some x ∧ after = some y ∧ x ≤ y

/-- More free memory, larger signals, less load and a lower transfer cost. -/
structure Improves (device : SchedulerDeviceSnapshot) (measurements : SchedulerScoreMeasurements)
    (device' : SchedulerDeviceSnapshot) (measurements' : SchedulerScoreMeasurements) : Prop where
  same : device' = { device with
    dynamic := { device.dynamic with
      cpuLoad1mMilli := device'.dynamic.cpuLoad1mMilli
      memoryFreeMib := device'.dynamic.memoryFreeMib } }
  load : Raised device'.dynamic.cpuLoad1mMilli device.dynamic.cpuLoad1mMilli
  free : Raised device.dynamic.memoryFreeMib device'.dynamic.memoryFreeMib
  cacheWarmth : Raised measurements.cacheWarmthPerMille measurements'.cacheWarmthPerMille
  dataLocality : Raised measurements.dataLocalityPerMille measurements'.dataLocalityPerMille
  historicalSpeed :
    Raised measurements.historicalSpeedPerMille measurements'.historicalSpeedPerMille
  userAffinity : Raised measurements.userAffinityPerMille measurements'.userAffinityPerMille
  transferCost : Raised measurements'.transferCostMib measurements.transferCostMib
  route : measurements'.networkRouteQuality = measurements.networkRouteQuality
  thermal : measurements'.thermalPressure = measurements.thermalPressure

section

variable (isMatch : String → String → Bool) (definition : TaskDefinition)
  (devices : List SchedulerDeviceSnapshot)
  (measurementsByDevice : SortedMap String SchedulerScoreMeasurements)

def measurementsFor (device : SchedulerDeviceSnapshot) : SchedulerScoreMeasurements :=
  (measurementsByDevice.find? device.deviceId).getD {}

/-- The score of a device in a selection. -/
def scoreOf (device : SchedulerDeviceSnapshot) : Option SchedulerScore :=
  scoreSchedulerCandidate isMatch definition device (measurementsFor measurementsByDevice device)

/-- The selected device is eligible, and no eligible device is better. -/
def BestDevice (id : String) (selectedScore : Option UInt16) : Prop :=
  ∃ device ∈ devices, device.deviceId = id ∧ Eligible isMatch definition device ∧
    ∃ score, scoreOf isMatch definition measurementsByDevice device = some score ∧
      selectedScore = some score.totalScorePerMille ∧
      ∀ other ∈ devices, Eligible isMatch definition other →
        ∃ otherScore, scoreOf isMatch definition measurementsByDevice other = some otherScore ∧
          (otherScore.totalScorePerMille < score.totalScorePerMille ∨
            (otherScore.totalScorePerMille = score.totalScorePerMille ∧
              id ≤ other.deviceId))

/-- What a selection is for, and what its scores may be relied on for. -/
structure SelectionLaw : Prop where
  chosen : ∃ selection, selectSchedulerTarget isMatch definition devices measurementsByDevice =
    some selection ∧
      (selection.selectedDeviceId.isSome = true ↔
        ∃ device ∈ devices, Eligible isMatch definition device) ∧
      (∀ id, selection.selectedDeviceId = some id →
        BestDevice isMatch definition devices measurementsByDevice id
          selection.selectedScorePerMille) ∧
      ∀ devices', devices'.Perm devices → ∃ selection',
        selectSchedulerTarget isMatch definition devices' measurementsByDevice =
          some selection' ∧
        selection'.selectedDeviceId = selection.selectedDeviceId ∧
        selection'.selectedScorePerMille = selection.selectedScorePerMille ∧
        selection'.explanation = selection.explanation
  monotone : ∀ device ∈ devices, Eligible isMatch definition device →
    ∀ device' measurements', Improves device (measurementsFor measurementsByDevice device)
      device' measurements' →
        Eligible isMatch definition device' ∧
          ∃ score score', scoreOf isMatch definition measurementsByDevice device = some score ∧
            scoreSchedulerCandidate isMatch definition device' measurements' = some score' ∧
            score.totalScorePerMille ≤ score'.totalScorePerMille

end

/-- What the device says of its cores and of its memory fits the products with 1000, whatever
load and free memory it reports. -/
structure ReportsFit (definition : TaskDefinition) (device : SchedulerDeviceSnapshot) : Prop where
  cpu : ∀ load, device.dynamic.cpuLoad1mMilli = some load →
    cpuCapacity device.cpuCores * 1000 < 2 ^ 64
  memory : ∀ freeMib wholeMib, device.dynamic.memoryFreeMib = some freeMib →
    wholeMemory definition device = some wholeMib → wholeMib.toNat * 1000 < 2 ^ 64

/-! ## The order of the scores -/

theorem rankedBefore_total (a b : SchedulerScore) : rankedBefore a b ∨ rankedBefore b a := by
  unfold rankedBefore
  rcases lt_trichotomy a.totalScorePerMille.toNat b.totalScorePerMille.toNat with h | h | h
  · exact Or.inr (Or.inl (UInt16.lt_iff_toNat_lt.mpr h))
  · have heq := UInt16.toNat_inj.mp h
    rcases le_total a.deviceId b.deviceId with hid | hid
    · exact Or.inl (Or.inr ⟨heq.symm, hid⟩)
    · exact Or.inr (Or.inr ⟨heq, hid⟩)
  · exact Or.inl (Or.inl (UInt16.lt_iff_toNat_lt.mpr h))

theorem rankedBefore_trans {a b c : SchedulerScore} (hab : rankedBefore a b)
    (hbc : rankedBefore b c) : rankedBefore a c := by
  unfold rankedBefore at *
  simp only [UInt16.lt_iff_toNat_lt, ← UInt16.toNat_inj] at *
  rcases hab with hab | ⟨hab, hid⟩
  · rcases hbc with hbc | ⟨hbc, -⟩
    · left
      omega
    · left
      omega
  · rcases hbc with hbc | ⟨hbc, hid'⟩
    · left
      omega
    · right
      exact ⟨hbc.trans hab, le_trans hid hid'⟩

theorem deviceId_of_rankedBefore {a b : SchedulerScore} (hab : rankedBefore a b)
    (hba : rankedBefore b a) : a.deviceId = b.deviceId := by
  unfold rankedBefore at *
  simp only [UInt16.lt_iff_toNat_lt, ← UInt16.toNat_inj] at *
  rcases hab with hab | ⟨hab, hid⟩
  · omega
  · rcases hba with hba | ⟨-, hid'⟩
    · omega
    · exact le_antisymm hid hid'

theorem selectedScore_eq_none {scores : List SchedulerScore} :
    selectedScore scores = none ↔ ∀ score ∈ scores, score.eligible = false := by
  unfold selectedScore
  rw [List.head?_eq_none_iff]
  constructor
  · intro h score hmem
    by_contra heligible
    rw [Bool.not_eq_false] at heligible
    have hin := (List.mem_insertionSort rankedBefore).mpr
      (List.mem_filter.mpr ⟨hmem, heligible⟩)
    rw [h] at hin
    cases hin
  · intro h
    have hnone : scores.filter (·.eligible) = [] := by
      rw [List.filter_eq_nil_iff]
      intro score hmem
      rw [h score hmem]
      exact Bool.false_ne_true
    rw [hnone]
    rfl

/-- The selected score is eligible and ranked before all that are. -/
theorem selectedScore_eq_some {scores : List SchedulerScore} {best : SchedulerScore}
    (h : selectedScore scores = some best) :
    best ∈ scores ∧ best.eligible = true ∧
      ∀ other ∈ scores, other.eligible = true → rankedBefore best other := by
  unfold selectedScore at h
  have htrans : IsTrans SchedulerScore rankedBefore := ⟨fun _ _ _ => rankedBefore_trans⟩
  have htotal : Std.Total rankedBefore := ⟨rankedBefore_total⟩
  have hsorted := List.pairwise_insertionSort rankedBefore (scores.filter (·.eligible))
  obtain ⟨rest, hlist⟩ := List.head?_eq_some_iff.mp h
  rw [hlist, List.pairwise_cons] at hsorted
  have hmem : ∀ score, score ∈ best :: rest ↔ score ∈ scores ∧ score.eligible = true := by
    intro score
    rw [← hlist, List.mem_insertionSort, List.mem_filter]
  obtain ⟨hbest, heligible⟩ := (hmem best).mp List.mem_cons_self
  refine ⟨hbest, heligible, ?_⟩
  intro other hother helig
  rcases List.mem_cons.mp ((hmem other).mpr ⟨hother, helig⟩) with rfl | hrest
  · rcases rankedBefore_total other other with hself | hself
    · exact hself
    · exact hself
  · exact hsorted.1 other hrest

/-- Scores in another order have the same best one, if their ids are distinct. -/
theorem selectedScore_perm {scores scores' : List SchedulerScore}
    (hdistinct : (scores.map (·.deviceId)).Nodup) (hperm : scores'.Perm scores) :
    selectedScore scores' = selectedScore scores := by
  cases hbest : selectedScore scores with
  | none =>
    rw [selectedScore_eq_none] at hbest ⊢
    intro score hmem
    exact hbest score (hperm.mem_iff.mp hmem)
  | some best =>
    obtain ⟨hmem, heligible, hfirst⟩ := selectedScore_eq_some hbest
    cases hbest' : selectedScore scores' with
    | none =>
      rw [selectedScore_eq_none] at hbest'
      have hfalse := hbest' best (hperm.mem_iff.mpr hmem)
      rw [heligible] at hfalse
      cases hfalse
    | some best' =>
      obtain ⟨hmem', heligible', hfirst'⟩ := selectedScore_eq_some hbest'
      have hin := hperm.mem_iff.mp hmem'
      have hid := deviceId_of_rankedBefore (hfirst best' hin heligible')
        (hfirst' best (hperm.mem_iff.mpr hmem) heligible)
      exact congrArg some (List.inj_on_of_nodup_map hdistinct hin hmem hid.symm)

theorem noSelectionExplanation_perm {scores scores' : List SchedulerScore}
    (hperm : scores'.Perm scores) :
    noSelectionExplanation scores' = noSelectionExplanation scores := by
  have hcount := (hperm.filter fun score => !score.eligible).length_eq
  unfold noSelectionExplanation
  rw [hcount]
  congr 1
  exact propext ⟨fun h => List.Perm.eq_nil (h ▸ hperm.symm), fun h => List.Perm.eq_nil (h ▸ hperm)⟩

/-! ## A device that gets better -/

section

variable {isMatch : String → String → Bool} {definition : TaskDefinition}
  {device device' : SchedulerDeviceSnapshot}
  {measurements measurements' : SchedulerScoreMeasurements}

theorem eligible_iff : Eligible isMatch definition device ↔
    policyRejections device = [] ∧ platformRejections isMatch definition device = [] ∧
      featureRejections definition device = [] ∧ cpuRejections definition device = [] ∧
      memoryRejections definition device = [] ∧ diskRejections definition device = [] := by
  show List.isEmpty _ = true ↔ _
  simp only [List.isEmpty_iff, List.append_eq_nil_iff, and_assoc]

theorem memoryRejections_of_raised
    (htotal : device'.memoryTotalMib = device.memoryTotalMib)
    (hraised : Raised device.dynamic.memoryFreeMib device'.dynamic.memoryFreeMib)
    (h : memoryRejections definition device = []) : memoryRejections definition device' = [] := by
  unfold memoryRejections at h ⊢
  cases hrequired : definition.memoryMib with
  | none => rfl
  | some requiredMib =>
    rw [hrequired] at h
    dsimp only at h ⊢
    rw [htotal]
    have hsufficient : resourceIsInsufficient requiredMib device.dynamic.memoryFreeMib
        device.memoryTotalMib = false := by
      rw [← Bool.not_eq_true]
      intro htrue
      rw [if_pos htrue] at h
      cases h
    rcases hraised with hsame | ⟨x, y, hx, hy, hle⟩
    · rw [← hsame, hsufficient]
      rfl
    · rw [hx] at hsufficient
      rw [hy, resourceIsInsufficient_of_le hle hsufficient]
      rfl

/-- More free memory makes no device ineligible. -/
theorem Improves.eligible (h : Improves device measurements device' measurements')
    (heligible : Eligible isMatch definition device) : Eligible isMatch definition device' := by
  rw [eligible_iff] at heligible ⊢
  obtain ⟨hpolicy, hplatform, hfeatures, hcpu, hmemory, hdisk⟩ := heligible
  have hfree : memoryRejections definition device' = [] :=
    memoryRejections_of_raised (by rw [h.same]) h.free hmemory
  refine ⟨?_, ?_, ?_, ?_, hfree, ?_⟩
  · rw [h.same]
    exact hpolicy
  · rw [h.same]
    exact hplatform
  · rw [h.same]
    exact hfeatures
  · rw [h.same]
    exact hcpu
  · rw [h.same]
    exact hdisk

theorem boundedSignal_mono {value value' : Option UInt16} (h : Raised value value')
    (fallback : UInt16) : boundedSignal value fallback ≤ boundedSignal value' fallback := by
  have hmin : ∀ v : UInt16, min v 1000 = if v ≤ 1000 then v else 1000 := fun v => rfl
  rcases h with rfl | ⟨x, y, rfl, rfl, hle⟩
  · exact UInt16.le_refl _
  · unfold boundedSignal
    rw [Option.getD_some, Option.getD_some, hmin, hmin]
    rw [UInt16.le_iff_toNat_le] at hle
    split_ifs with hx hy hy
    · exact UInt16.le_iff_toNat_le.mpr hle
    · exact hx
    · rw [UInt16.le_iff_toNat_le] at hx hy
      change ¬x.toNat ≤ 1000 at hx
      change y.toNat ≤ 1000 at hy
      omega
    · exact UInt16.le_refl _

/-- Casts keep the order of values that fit. -/
theorem toUInt16_le {v w : UInt64} (hv : v.toNat ≤ 1000) (hw : w.toNat ≤ 1000)
    (h : v.toNat ≤ w.toNat) : v.toUInt16 ≤ w.toUInt16 := by
  rw [UInt16.le_iff_toNat_le, narrow_of_le hv, narrow_of_le hw]
  exact h

theorem idleCpuScore_mono {score score' : UInt16} (hcores : device'.cpuCores = device.cpuCores)
    (hraised : Raised device'.dynamic.cpuLoad1mMilli device.dynamic.cpuLoad1mMilli)
    (h : idleCpuScore device = some score) (h' : idleCpuScore device' = some score') :
    score ≤ score' := by
  unfold idleCpuScore at h h'
  rcases hraised with hsame | ⟨load', load, hload', hload, hle⟩
  · rw [hsame, hcores, h] at h'
    rw [Option.some.inj h']
    exact UInt16.le_refl _
  · rw [hload] at h
    rw [hload', hcores] at h'
    obtain ⟨v, hv, rfl⟩ := Option.map_eq_some_iff.mp h
    obtain ⟨w, hw, rfl⟩ := Option.map_eq_some_iff.mp h'
    apply toUInt16_le (le_of_idleCpu hv) (le_of_idleCpu hw)
    rw [(idleCpuPerMille_eq_some.mp hv).2, (idleCpuPerMille_eq_some.mp hw).2]
    apply Nat.div_le_div_right
    apply Nat.mul_le_mul_right
    rw [UInt64.le_iff_toNat_le] at hle
    omega

theorem freeMemoryScore_mono {score score' : UInt16}
    (htotal : device'.memoryTotalMib = device.memoryTotalMib)
    (hraised : Raised device.dynamic.memoryFreeMib device'.dynamic.memoryFreeMib)
    (h : freeMemoryScore definition device = some score)
    (h' : freeMemoryScore definition device' = some score') : score ≤ score' := by
  have hwhole : wholeMemory definition device' = wholeMemory definition device := by
    unfold wholeMemory
    rw [htotal]
  unfold freeMemoryScore at h h'
  rw [hwhole] at h'
  rcases hraised with hsame | ⟨free, free', hfree, hfree', hle⟩
  · rw [← hsame, h] at h'
    rw [Option.some.inj h']
    exact UInt16.le_refl _
  · rw [hfree] at h
    rw [hfree'] at h'
    cases hmib : wholeMemory definition device with
    | none =>
      rw [hmib] at h h'
      rw [← Option.some.inj h, ← Option.some.inj h']
      exact UInt16.le_refl _
    | some wholeMib =>
      have hpos := wholeMemory_pos hmib
      rw [hmib] at h h'
      obtain ⟨v, hv, rfl⟩ := Option.map_eq_some_iff.mp h
      obtain ⟨w, hw, rfl⟩ := Option.map_eq_some_iff.mp h'
      apply toUInt16_le (le_of_free hpos hv) (le_of_free hpos hw)
      rw [((freePerMille_eq_some hpos).mp hv).2, ((freePerMille_eq_some hpos).mp hw).2]
      apply Nat.div_le_div_right
      apply Nat.mul_le_mul_right
      rw [UInt64.le_iff_toNat_le] at hle
      omega

theorem transferCostScore_mono {cost cost' : Option UInt64} {score score' : UInt16}
    (hraised : Raised cost' cost) (h : transferCostScore cost = some score)
    (h' : transferCostScore cost' = some score') : score ≤ score' := by
  rcases hraised with hsame | ⟨x, y, rfl, rfl, hle⟩
  · rw [hsame, h] at h'
    rw [Option.some.inj h']
    exact UInt16.le_refl _
  · obtain ⟨v, hv, rfl⟩ := Option.map_eq_some_iff.mp h
    obtain ⟨w, hw, rfl⟩ := Option.map_eq_some_iff.mp h'
    apply toUInt16_le (le_of_transfer hv) (le_of_transfer hw)
    rw [transferPerMille_eq_some.mp hv, transferPerMille_eq_some.mp hw]
    rw [UInt64.le_iff_toNat_le] at hle
    have hpart : min x.toNat 8192 * 1000 / 8192 ≤ min y.toNat 8192 * 1000 / 8192 := by
      apply Nat.div_le_div_right
      apply Nat.mul_le_mul_right
      omega
    omega

/-- The same weight, and a signal that is not lower. -/
def SignalLe (a b : SchedulerScoreComponentKind × Option UInt16 × UInt16 × String) : Prop :=
  a.2.2.1 = b.2.2.1 ∧ ∀ score score', a.2.1 = some score → b.2.1 = some score' → score ≤ score'

theorem signalLe_of_le {kind : SchedulerScoreComponentKind} {score score' weight : UInt16}
    {explanation : String} (h : score ≤ score') :
    SignalLe (kind, some score, weight, explanation) (kind, some score', weight, explanation) := by
  refine ⟨rfl, ?_⟩
  intro a b ha hb
  rw [← Option.some.inj ha, ← Option.some.inj hb]
  exact h

theorem Improves.signals (h : Improves device measurements device' measurements')
    (weights : SchedulerScoreWeights) :
    List.Forall₂ SignalLe (signals definition device measurements weights)
      (signals definition device' measurements' weights) := by
  have hcores : device'.cpuCores = device.cpuCores := by rw [h.same]
  have htotal : device'.memoryTotalMib = device.memoryTotalMib := by rw [h.same]
  have hpower : powerPreferenceScore device ≤ powerPreferenceScore device' := by
    rw [h.same]
    exact UInt16.le_refl _
  have hroute : networkQualityScore (measurements.networkRouteQuality.getD
      device.dynamic.networkRouteQuality) ≤ networkQualityScore
        (measurements'.networkRouteQuality.getD device'.dynamic.networkRouteQuality) := by
    rw [h.same, h.route]
    exact UInt16.le_refl _
  have hforeground : foregroundScore device.dynamic.foregroundLoad ≤
      foregroundScore device'.dynamic.foregroundLoad := by
    rw [h.same]
    exact UInt16.le_refl _
  have hthermal : thermalScore measurements.thermalPressure ≤
      thermalScore measurements'.thermalPressure := by
    rw [h.thermal]
    exact UInt16.le_refl _
  refine .cons (signalLe_of_le (boundedSignal_mono h.cacheWarmth _)) ?_
  refine .cons ⟨rfl, fun _ _ hold hnew => idleCpuScore_mono hcores h.load hold hnew⟩ ?_
  refine .cons ⟨rfl, fun _ _ hold hnew => freeMemoryScore_mono htotal h.free hold hnew⟩ ?_
  refine .cons (signalLe_of_le hpower) ?_
  refine .cons (signalLe_of_le (boundedSignal_mono h.dataLocality _)) ?_
  refine .cons (signalLe_of_le hroute) ?_
  refine .cons (signalLe_of_le (boundedSignal_mono h.historicalSpeed _)) ?_
  refine .cons (signalLe_of_le (boundedSignal_mono h.userAffinity _)) ?_
  refine .cons ⟨rfl, fun _ _ hold hnew => transferCostScore_mono h.transferCost hold hnew⟩ ?_
  refine .cons (signalLe_of_le hforeground) ?_
  exact .cons (signalLe_of_le hthermal) .nil

theorem Improves.points (h : Improves device measurements device' measurements')
    {weights : SchedulerScoreWeights} {components components' : List SchedulerScoreComponent}
    (hold : schedulerScoreComponents definition device measurements weights = some components)
    (hnew : schedulerScoreComponents definition device' measurements' weights =
      some components') :
    exactSum (components.map (·.weightedPoints)) ≤
      exactSum (components'.map (·.weightedPoints)) := by
  apply exactSum_le_exactSum
  rw [List.forall₂_map_left_iff, List.forall₂_map_right_iff]
  refine forall₂_of_inputs (components_spec hold) (h.signals weights) (components_spec hnew) ?_
  rintro a a' c c' ⟨score, hscore, hc⟩ ⟨hweight, hle⟩ ⟨score', hscore', hc'⟩
  obtain ⟨-, -, hpoints⟩ := component_eq_some hc
  obtain ⟨-, -, hpoints'⟩ := component_eq_some hc'
  rw [UInt64.le_iff_toNat_le, hpoints, hpoints', hweight]
  exact Nat.mul_le_mul_right _ (UInt16.le_iff_toNat_le.mp (hle score score' hscore hscore'))

theorem totalPerMille_mono {weights : SchedulerScoreWeights}
    {components components' : List SchedulerScoreComponent} {v w : UInt64}
    (hpoints : exactSum (components.map (·.weightedPoints)) ≤
      exactSum (components'.map (·.weightedPoints)))
    (hv : totalPerMille weights components = some v)
    (hw : totalPerMille weights components' = some w) : v.toNat ≤ w.toNat := by
  obtain ⟨totalWeight, htotal, hv⟩ := Option.bind_eq_some_iff.mp hv
  obtain ⟨points, hsum, hv⟩ := Option.bind_eq_some_iff.mp hv
  obtain ⟨quotient, hquotient, hv⟩ := Option.bind_eq_some_iff.mp hv
  obtain ⟨totalWeight', htotal', hw⟩ := Option.bind_eq_some_iff.mp hw
  obtain ⟨points', hsum', hw⟩ := Option.bind_eq_some_iff.mp hw
  obtain ⟨quotient', hquotient', hw⟩ := Option.bind_eq_some_iff.mp hw
  rw [htotal, Option.some_inj] at htotal'
  rw [← htotal'] at hquotient'
  rw [checkedSum_eq_some] at hsum hsum'
  have hle : quotient.toNat ≤ quotient'.toNat := by
    rw [(checkedDiv_eq_some.mp hquotient).2, (checkedDiv_eq_some.mp hquotient').2]
    apply Nat.div_le_div_right
    rw [hsum, hsum']
    exact hpoints
  rw [← Option.some.inj hv, ← Option.some.inj hw, toNat_min, toNat_min]
  omega

theorem Improves.score (h : Improves device measurements device' measurements')
    (heligible : Eligible isMatch definition device) {taskClass : SchedulerTaskClass}
    {score score' : SchedulerScore}
    (hold : scoreSchedulerCandidateWithClass isMatch definition device measurements taskClass =
      some score)
    (hnew : scoreSchedulerCandidateWithClass isMatch definition device' measurements' taskClass =
      some score') : score.totalScorePerMille ≤ score'.totalScorePerMille := by
  rw [score_of_eligible heligible] at hold
  rw [score_of_eligible (h.eligible heligible)] at hnew
  obtain ⟨components, hcomponents, hold⟩ := Option.bind_eq_some_iff.mp hold
  obtain ⟨total, htotal, hold⟩ := Option.bind_eq_some_iff.mp hold
  obtain ⟨components', hcomponents', hnew⟩ := Option.bind_eq_some_iff.mp hnew
  obtain ⟨total', htotal', hnew⟩ := Option.bind_eq_some_iff.mp hnew
  rw [← Option.some.inj hold, ← Option.some.inj hnew]
  exact toUInt16_le (totalPerMille_le htotal) (totalPerMille_le htotal')
    (totalPerMille_mono (h.points hcomponents hcomponents') htotal htotal')

/-- Reports that fit do so whatever gets better. -/
theorem ReportsFit.improved (hfits : ReportsFit definition device)
    (h : Improves device measurements device' measurements') :
    DeviceFits definition device' := by
  have hcores : device'.cpuCores = device.cpuCores := by rw [h.same]
  have hwhole : wholeMemory definition device' = wholeMemory definition device := by
    unfold wholeMemory
    rw [h.same]
  constructor
  · intro load' hload'
    have hknown : ∃ load, device.dynamic.cpuLoad1mMilli = some load := by
      rcases h.load with hsame | ⟨x, y, -, hy, -⟩
      · exact ⟨load', hsame ▸ hload'⟩
      · exact ⟨y, hy⟩
    obtain ⟨load, hload⟩ := hknown
    have hbound := hfits.cpu load hload
    unfold CpuFits
    rw [hcores]
    omega
  · intro free' wholeMib hfree' hmib
    have hknown : ∃ free, device.dynamic.memoryFreeMib = some free := by
      rcases h.free with hsame | ⟨x, y, hx, -, -⟩
      · exact ⟨free', hsame.trans hfree'⟩
      · exact ⟨x, hx⟩
    obtain ⟨free, hfree⟩ := hknown
    have hbound := hfits.memory free wholeMib hfree (hwhole ▸ hmib)
    calc min free'.toNat wholeMib.toNat * 1000
        ≤ wholeMib.toNat * 1000 := Nat.mul_le_mul_right 1000 (Nat.min_le_right _ _)
      _ < 2 ^ 64 := hbound

theorem Improves.refl (device : SchedulerDeviceSnapshot)
    (measurements : SchedulerScoreMeasurements) :
    Improves device measurements device measurements where
  same := rfl
  load := Or.inl rfl
  free := Or.inl rfl
  cacheWarmth := Or.inl rfl
  dataLocality := Or.inl rfl
  historicalSpeed := Or.inl rfl
  userAffinity := Or.inl rfl
  transferCost := Or.inl rfl
  route := rfl
  thermal := rfl

/-- The device without load and with all memory free, as far as these are known. -/
def atBest (device : SchedulerDeviceSnapshot) : SchedulerDeviceSnapshot :=
  { device with
    dynamic := { device.dynamic with
      cpuLoad1mMilli := device.dynamic.cpuLoad1mMilli.map fun _ => 0
      memoryFreeMib := device.dynamic.memoryFreeMib.map fun _ => 0xffffffffffffffff } }

theorem improves_atBest (device : SchedulerDeviceSnapshot)
    (measurements : SchedulerScoreMeasurements) :
    Improves device measurements (atBest device) measurements where
  same := rfl
  load := by
    show Raised (device.dynamic.cpuLoad1mMilli.map fun _ => 0) device.dynamic.cpuLoad1mMilli
    cases device.dynamic.cpuLoad1mMilli with
    | none => exact Or.inl rfl
    | some load => exact Or.inr ⟨0, load, rfl, rfl, UInt64.zero_le⟩
  free := by
    show Raised device.dynamic.memoryFreeMib
      (device.dynamic.memoryFreeMib.map fun _ => 0xffffffffffffffff)
    cases device.dynamic.memoryFreeMib with
    | none => exact Or.inl rfl
    | some free =>
      refine Or.inr ⟨free, _, rfl, rfl, ?_⟩
      have hmax : (0xffffffffffffffff : UInt64).toNat = 2 ^ 64 - 1 := by decide
      have hlt := free.toNat_lt
      rw [UInt64.le_iff_toNat_le, hmax]
      omega
  cacheWarmth := Or.inl rfl
  dataLocality := Or.inl rfl
  historicalSpeed := Or.inl rfl
  userAffinity := Or.inl rfl
  transferCost := Or.inl rfl
  route := rfl
  thermal := rfl

/-- A device fits at its best only if its reports do. -/
theorem reportsFit_of_atBest (h : DeviceFits definition (atBest device)) :
    ReportsFit definition device := by
  constructor
  · intro load hload
    have hbest : (atBest device).dynamic.cpuLoad1mMilli = some 0 := by
      show device.dynamic.cpuLoad1mMilli.map _ = _
      rw [hload]
      rfl
    exact (h.cpu 0 hbest).2
  · intro free wholeMib hfree hwhole
    have hbest : (atBest device).dynamic.memoryFreeMib = some 0xffffffffffffffff := by
      show device.dynamic.memoryFreeMib.map _ = _
      rw [hfree]
      rfl
    have hfits := h.memory _ wholeMib hbest hwhole
    have hmax : (0xffffffffffffffff : UInt64).toNat = 2 ^ 64 - 1 := by decide
    have hwholeMib : min (0xffffffffffffffff : UInt64).toNat wholeMib.toNat = wholeMib.toNat := by
      have hlt := wholeMib.toNat_lt
      rw [hmax]
      omega
    rw [← hwholeMib]
    exact hfits

end

/-! ## Selections -/

section

variable {isMatch : String → String → Bool} {definition : TaskDefinition}
  {devices : List SchedulerDeviceSnapshot}
  {measurementsByDevice : SortedMap String SchedulerScoreMeasurements}

theorem scoreOf_spec {device : SchedulerDeviceSnapshot} {score : SchedulerScore}
    (h : scoreOf isMatch definition measurementsByDevice device = some score) :
    score.deviceId = device.deviceId ∧
      (score.eligible = true ↔ Eligible isMatch definition device) := by
  unfold scoreOf scoreSchedulerCandidate at h
  by_cases heligible : Eligible isMatch definition device
  · rw [score_of_eligible heligible] at h
    obtain ⟨components, -, h⟩ := Option.bind_eq_some_iff.mp h
    obtain ⟨total, -, h⟩ := Option.bind_eq_some_iff.mp h
    rw [← Option.some.inj h]
    exact ⟨rfl, iff_of_true rfl heligible⟩
  · rw [score_of_not_eligible heligible] at h
    rw [← Option.some.inj h]
    exact ⟨rfl, iff_of_false Bool.false_ne_true heligible⟩

/-- The selection from devices whose scores are known. -/
def selectionOf (scores : List SchedulerScore) : SchedulerTargetSelection where
  selectedDeviceId := (selectedScore scores).map (·.deviceId)
  selectedScorePerMille := (selectedScore scores).map (·.totalScorePerMille)
  scores := scores
  explanation := ((selectedScore scores).map selectionExplanation).getD
    (noSelectionExplanation scores)

theorem selectSchedulerTarget_eq {score : SchedulerDeviceSnapshot → SchedulerScore}
    (h : ∀ device ∈ devices, scoreOf isMatch definition measurementsByDevice device =
      some (score device)) :
    selectSchedulerTarget isMatch definition devices measurementsByDevice =
      some (selectionOf (devices.map score)) := by
  have hscores := mapM_eq_map h
  unfold selectSchedulerTarget
  change (devices.mapM (scoreOf isMatch definition measurementsByDevice)).bind _ = _
  rw [hscores]
  rfl

theorem map_deviceId {score : SchedulerDeviceSnapshot → SchedulerScore}
    (h : ∀ device ∈ devices, scoreOf isMatch definition measurementsByDevice device =
      some (score device)) :
    (devices.map score).map (·.deviceId) = devices.map (·.deviceId) := by
  rw [List.map_map]
  apply List.map_congr_left
  intro device hmem
  exact (scoreOf_spec (h device hmem)).1

/-- Something is selected exactly when a device is eligible. -/
theorem selected_isSome_iff {score : SchedulerDeviceSnapshot → SchedulerScore}
    (h : ∀ device ∈ devices, scoreOf isMatch definition measurementsByDevice device =
      some (score device)) :
    (selectionOf (devices.map score)).selectedDeviceId.isSome = true ↔
      ∃ device ∈ devices, Eligible isMatch definition device := by
  show ((selectedScore (devices.map score)).map _).isSome = true ↔ _
  rw [Option.isSome_map, Option.isSome_iff_ne_none, ne_eq, selectedScore_eq_none]
  constructor
  · intro hsome
    by_contra hnone
    apply hsome
    intro other hother
    obtain ⟨device, hmem, rfl⟩ := List.mem_map.mp hother
    rw [← Bool.not_eq_true, (scoreOf_spec (h device hmem)).2]
    exact fun heligible => hnone ⟨device, hmem, heligible⟩
  · rintro ⟨device, hmem, heligible⟩ hnone
    have hfalse := hnone _ (List.mem_map_of_mem hmem)
    rw [(scoreOf_spec (h device hmem)).2.mpr heligible] at hfalse
    cases hfalse

theorem best_of_selected {score : SchedulerDeviceSnapshot → SchedulerScore}
    (h : ∀ device ∈ devices, scoreOf isMatch definition measurementsByDevice device =
      some (score device)) {id : String}
    (hid : (selectionOf (devices.map score)).selectedDeviceId = some id) :
    BestDevice isMatch definition devices measurementsByDevice id
      (selectionOf (devices.map score)).selectedScorePerMille := by
  obtain ⟨best, hbest, rfl⟩ := Option.map_eq_some_iff.mp hid
  obtain ⟨hmem, heligible, hfirst⟩ := selectedScore_eq_some hbest
  obtain ⟨device, hdevice, rfl⟩ := List.mem_map.mp hmem
  obtain ⟨hname, helig⟩ := scoreOf_spec (h device hdevice)
  refine ⟨device, hdevice, hname.symm, helig.mp heligible, score device, h device hdevice, ?_, ?_⟩
  · show (selectedScore (devices.map score)).map _ = _
    rw [hbest]
    rfl
  · intro other hother heligible'
    obtain ⟨hname', helig'⟩ := scoreOf_spec (h other hother)
    refine ⟨score other, h other hother, ?_⟩
    rw [← hname']
    exact hfirst _ (List.mem_map_of_mem hother) (helig'.mpr heligible')

/-- The order of the devices does not matter. -/
theorem selectionOf_perm {score : SchedulerDeviceSnapshot → SchedulerScore}
    {devices' : List SchedulerDeviceSnapshot}
    (hdistinct : ((devices.map score).map (·.deviceId)).Nodup) (hperm : devices'.Perm devices) :
    (selectionOf (devices'.map score)).selectedDeviceId =
        (selectionOf (devices.map score)).selectedDeviceId ∧
      (selectionOf (devices'.map score)).selectedScorePerMille =
        (selectionOf (devices.map score)).selectedScorePerMille ∧
      (selectionOf (devices'.map score)).explanation =
        (selectionOf (devices.map score)).explanation := by
  have hscores := hperm.map score
  have hselected := selectedScore_perm hdistinct hscores
  unfold selectionOf
  dsimp only
  rw [hselected, noSelectionExplanation_perm hscores]
  exact ⟨rfl, rfl, rfl⟩

theorem exists_scoreOf {device : SchedulerDeviceSnapshot}
    (hfits : Eligible isMatch definition device → ReportsFit definition device) :
    ∃ score, scoreOf isMatch definition measurementsByDevice device = some score :=
  exists_score_iff.mpr fun heligible =>
    (hfits heligible).improved (Improves.refl device
      (measurementsFor measurementsByDevice device))

theorem selectionLaw_of_fits (hdistinct : (devices.map (·.deviceId)).Nodup)
    (hfits : ∀ device ∈ devices, Eligible isMatch definition device →
      ReportsFit definition device) :
    SelectionLaw isMatch definition devices measurementsByDevice := by
  let score := fun device : SchedulerDeviceSnapshot =>
    (scoreOf isMatch definition measurementsByDevice device).getD
      ⟨device.deviceId, false, 0, .batch, evaluateSchedulerConstraints isMatch definition
        device, []⟩
  have hscores : ∀ device ∈ devices,
      scoreOf isMatch definition measurementsByDevice device = some (score device) := by
    intro device hmem
    have hexists : ∃ found, scoreOf isMatch definition measurementsByDevice device =
        some found := exists_scoreOf (hfits device hmem)
    obtain ⟨found, hfound⟩ := hexists
    show _ = some (Option.getD _ _)
    rw [hfound]
    rfl
  constructor
  · refine ⟨_, selectSchedulerTarget_eq hscores, selected_isSome_iff hscores, ?_, ?_⟩
    · intro id hid
      exact best_of_selected hscores hid
    · intro devices' hperm
      refine ⟨_, selectSchedulerTarget_eq fun device hmem =>
        hscores device (hperm.mem_iff.mp hmem), ?_⟩
      apply selectionOf_perm _ hperm
      rw [map_deviceId hscores]
      exact hdistinct
  · intro device hmem heligible device' measurements' himproves
    refine ⟨himproves.eligible heligible, score device, ?_⟩
    obtain ⟨score', hscore'⟩ := exists_score_iff.mpr fun _ : Eligible isMatch definition device' =>
      (hfits device hmem heligible).improved himproves
    exact ⟨score', hscores device hmem, hscore',
      himproves.score heligible (hscores device hmem) hscore'⟩

end

/-- The selection is the best one, independent of the order and monotone, exactly when the
reports of all eligible devices fit. -/
theorem selectionLaw_iff (isMatch : String → String → Bool) (definition : TaskDefinition)
    (devices : List SchedulerDeviceSnapshot)
    (measurementsByDevice : SortedMap String SchedulerScoreMeasurements)
    (hdistinct : (devices.map (·.deviceId)).Nodup) :
    SelectionLaw isMatch definition devices measurementsByDevice ↔
      ∀ device ∈ devices, Eligible isMatch definition device → ReportsFit definition device := by
  constructor
  · intro h device hmem heligible
    have himproves := improves_atBest device (measurementsFor measurementsByDevice device)
    obtain ⟨hbest, -, score', -, hscore', -⟩ :=
      h.monotone device hmem heligible _ _ himproves
    exact reportsFit_of_atBest (exists_score_iff.mp ⟨score', hscore'⟩ hbest)
  · exact selectionLaw_of_fits hdistinct

/-- Two devices that differ in their names alone. -/
def tiedDevices : List SchedulerDeviceSnapshot :=
  [{ deviceWithCores 8 with deviceId := "laptop" }, deviceWithCores 8]

/-- Of the two the one with the first name is selected. -/
theorem selectionLaw_iff_eightCores :
    SelectionLaw (fun _ _ => false) demoDefinition tiedDevices .empty ∧
      (selectSchedulerTarget (fun _ _ => false) demoDefinition tiedDevices .empty).map
        (·.selectedDeviceId) = some (some "device") := by
  refine ⟨(selectionLaw_iff _ _ _ _ (by decide)).mpr ?_, by decide⟩
  intro device hmem _
  have hsame : ∀ device ∈ tiedDevices, device.cpuCores = 8 ∧
      wholeMemory demoDefinition device = some 1024 := by decide
  obtain ⟨hcores, hwhole⟩ := hsame device hmem
  constructor
  · intro load _
    rw [hcores]
    decide
  · intro freeMib wholeMib _ hmib
    cases hwhole.symm.trans hmib
    decide

/-- The only candidate is eligible, and its score cannot be computed. -/
theorem overflowing_device_is_not_selected :
    Eligible (fun _ _ => false) demoDefinition (deviceWithCores 0x2000000000000000) ∧
      ¬SelectionLaw (fun _ _ => false) demoDefinition
        [deviceWithCores 0x2000000000000000] .empty := by
  refine ⟨by decide, ?_⟩
  rintro ⟨⟨selection, hselection, -⟩, -⟩
  have hnone : selectSchedulerTarget (fun _ _ => false) demoDefinition
      [deviceWithCores 0x2000000000000000] .empty = none := by decide
  rw [hnone] at hselection
  cases hselection

end DevRelay.Scheduler
