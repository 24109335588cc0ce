import DevRelay.Scheduler.Score

/-!
# The arithmetic of the scores

A device says of itself how many cores and how much memory it has, and nothing
bounds what it says.  The products with 1000 are the only operations that can
overflow: the quotients are at most 1000 whatever they are made from, and the
weights are constants.
-/

namespace DevRelay.Scheduler

open DevRelay.Lib DevRelay.Core

/-! ## Signals in unbounded numbers -/

/-- The capacity of so many cores, in thousandths of a core. -/
def cpuCapacity (cpuCores : UInt64) : Nat := max cpuCores.toNat 1 * 1000

/-- The capacity, and 1000 times what is idle of it, fit into 64 bits. -/
def CpuFits (cpuCores load : UInt64) : Prop :=
  cpuCapacity cpuCores < 2 ^ 64 ∧ (cpuCapacity cpuCores - load.toNat) * 1000 < 2 ^ 64

def MemoryFits (freeMib wholeMib : UInt64) : Prop :=
  min freeMib.toNat wholeMib.toNat * 1000 < 2 ^ 64

theorem cpuCapacity_pos (cpuCores : UInt64) : 0 < cpuCapacity cpuCores := by
  unfold cpuCapacity
  omega

/-- A part of a whole, in thousandths. -/
theorem perMille_le (part whole : Nat) (h : part ≤ whole) : part * 1000 / whole ≤ 1000 := by
  apply Nat.div_le_of_le_mul
  exact Nat.mul_le_mul_right 1000 h

theorem toNat_min (a b : UInt64) : (min a b).toNat = min a.toNat b.toNat := by
  have hmin : min a b = if a ≤ b then a else b := rfl
  rw [hmin]
  split_ifs with h
  · rw [UInt64.le_iff_toNat_le] at h
    omega
  · rw [UInt64.le_iff_toNat_le] at h
    omega

theorem toNat_capacity {cpuCores capacity : UInt64}
    (h : checkedMul (max cpuCores 1) 1000 = some capacity) :
    capacity.toNat = cpuCapacity cpuCores := by
  rw [checkedMul_eq_some, toNat_max] at h
  exact h

theorem idleCpuPerMille_eq_some {cpuCores load w : UInt64} :
    idleCpuPerMille cpuCores load = some w ↔ CpuFits cpuCores load ∧
      w.toNat = (cpuCapacity cpuCores - load.toNat) * 1000 / cpuCapacity cpuCores := by
  have hpos := cpuCapacity_pos cpuCores
  unfold idleCpuPerMille CpuFits
  constructor
  · intro h
    obtain ⟨capacity, hcapacity, h⟩ := Option.bind_eq_some_iff.mp h
    obtain ⟨idle, hidle, h⟩ := Option.bind_eq_some_iff.mp h
    obtain ⟨scaled, hscaled, h⟩ := Option.bind_eq_some_iff.mp h
    have hcap := toNat_capacity hcapacity
    rw [checkedSub_eq_some, toNat_min, hcap] at hidle
    rw [checkedMul_eq_some] at hscaled
    obtain ⟨-, hquotient⟩ := checkedDiv_eq_some.mp h
    have hidle' : idle.toNat = cpuCapacity cpuCores - load.toNat := by omega
    have hscaled' : scaled.toNat = (cpuCapacity cpuCores - load.toNat) * 1000 := by
      rw [hscaled, hidle']
      rfl
    refine ⟨⟨?_, ?_⟩, ?_⟩
    · rw [← hcap]
      exact capacity.toNat_lt
    · rw [← hscaled']
      exact scaled.toNat_lt
    · rw [hquotient, hscaled', hcap]
  · rintro ⟨⟨hfits, hscale⟩, hw⟩
    obtain ⟨capacity, hcap⟩ := exists_toNat hfits
    obtain ⟨scaled, hscaled⟩ := exists_toNat hscale
    obtain ⟨idle, hidle⟩ := exists_toNat (n := cpuCapacity cpuCores - load.toNat) (by omega)
    have hne : capacity ≠ 0 := by
      rintro rfl
      rw [UInt64.toNat_zero] at hcap
      omega
    refine Option.bind_eq_some_iff.mpr ⟨capacity, ?_, Option.bind_eq_some_iff.mpr ⟨idle, ?_,
      Option.bind_eq_some_iff.mpr ⟨scaled, ?_, ?_⟩⟩⟩
    · rw [checkedMul_eq_some, toNat_max]
      exact hcap
    · rw [checkedSub_eq_some, toNat_min]
      omega
    · rw [checkedMul_eq_some, hscaled, hidle]
      rfl
    · rw [checkedDiv_eq_some, hscaled, hcap]
      exact ⟨hne, hw⟩

theorem freePerMille_eq_some {freeMib wholeMib w : UInt64} (hpos : 0 < wholeMib) :
    freePerMille freeMib wholeMib = some w ↔ MemoryFits freeMib wholeMib ∧
      w.toNat = min freeMib.toNat wholeMib.toNat * 1000 / wholeMib.toNat := by
  unfold freePerMille MemoryFits
  constructor
  · intro h
    obtain ⟨scaled, hscaled, h⟩ := Option.bind_eq_some_iff.mp h
    rw [checkedMul_eq_some, toNat_min] at hscaled
    obtain ⟨-, hquotient⟩ := checkedDiv_eq_some.mp h
    have hscaled' : scaled.toNat = min freeMib.toNat wholeMib.toNat * 1000 := hscaled
    refine ⟨?_, ?_⟩
    · rw [← hscaled']
      exact scaled.toNat_lt
    · rw [hquotient, hscaled']
  · rintro ⟨hfits, hw⟩
    obtain ⟨scaled, hscaled⟩ := exists_toNat hfits
    have hne : wholeMib ≠ 0 := by
      rintro rfl
      exact absurd hpos (by decide)
    refine Option.bind_eq_some_iff.mpr ⟨scaled, ?_, ?_⟩
    · rw [checkedMul_eq_some, toNat_min]
      exact hscaled
    · rw [checkedDiv_eq_some, hscaled]
      exact ⟨hne, hw⟩

theorem transferPerMille_eq_some {cost w : UInt64} :
    transferPerMille cost = some w ↔ w.toNat = 1000 - min cost.toNat 8192 * 1000 / 8192 := by
  have hpenalty := perMille_le (min cost.toNat 8192) 8192 (Nat.min_le_right _ _)
  have hbound : min cost.toNat 8192 * 1000 < 2 ^ 64 := by omega
  unfold transferPerMille
  constructor
  · intro h
    obtain ⟨scaled, hscaled, h⟩ := Option.bind_eq_some_iff.mp h
    obtain ⟨penalty, hdiv, h⟩ := Option.bind_eq_some_iff.mp h
    rw [checkedMul_eq_some, toNat_min] at hscaled
    obtain ⟨-, hquotient⟩ := checkedDiv_eq_some.mp hdiv
    have hscaled' : scaled.toNat = min cost.toNat 8192 * 1000 := hscaled
    have hquotient' : penalty.toNat = min cost.toNat 8192 * 1000 / 8192 := by
      rw [hquotient, hscaled']
      rfl
    have hkept : w.toNat + penalty.toNat = 1000 := checkedSub_eq_some.mp h
    omega
  · intro hw
    obtain ⟨scaled, hscaled⟩ := exists_toNat hbound
    obtain ⟨penalty, hquotient⟩ := exists_toNat (n := min cost.toNat 8192 * 1000 / 8192) (by omega)
    refine Option.bind_eq_some_iff.mpr ⟨scaled, ?_, Option.bind_eq_some_iff.mpr ⟨penalty, ?_, ?_⟩⟩
    · rw [checkedMul_eq_some, toNat_min]
      exact hscaled
    · rw [checkedDiv_eq_some, hscaled]
      exact ⟨by decide, hquotient⟩
    · rw [checkedSub_eq_some]
      show w.toNat + penalty.toNat = 1000
      omega

/-! ## Casts -/

/-- Nothing is lost in the cast to 16 bits. -/
def Narrow (w : UInt64) : Prop := w.toUInt16.toNat = w.toNat

theorem narrow_of_le {w : UInt64} (h : w.toNat ≤ 1000) : Narrow w := by
  unfold Narrow
  rw [UInt64.toNat_toUInt16]
  omega

theorem le_of_idleCpu {cpuCores load w : UInt64} (h : idleCpuPerMille cpuCores load = some w) :
    w.toNat ≤ 1000 := by
  rw [(idleCpuPerMille_eq_some.mp h).2]
  exact perMille_le _ _ (Nat.sub_le _ _)

theorem le_of_free {freeMib wholeMib w : UInt64} (hpos : 0 < wholeMib)
    (h : freePerMille freeMib wholeMib = some w) : w.toNat ≤ 1000 := by
  rw [((freePerMille_eq_some hpos).mp h).2]
  exact perMille_le _ _ (Nat.min_le_right _ _)

theorem le_of_transfer {cost w : UInt64} (h : transferPerMille cost = some w) : w.toNat ≤ 1000 := by
  rw [transferPerMille_eq_some.mp h]
  exact Nat.sub_le _ _

theorem le_of_narrow {w : UInt64} (h : w.toNat ≤ 1000) : w.toUInt16 ≤ 1000 := by
  rw [UInt16.le_iff_toNat_le, narrow_of_le h]
  exact h

theorem wholeMemory_pos {definition : TaskDefinition} {device : SchedulerDeviceSnapshot}
    {wholeMib : UInt64} (h : wholeMemory definition device = some wholeMib) : 0 < wholeMib := by
  unfold wholeMemory at h
  split at h
  · rename_i requiredMib hrequired
    rw [← Option.some.inj h]
    exact of_decide_eq_true (Option.filter_eq_some_iff.mp hrequired).2
  · exact of_decide_eq_true (Option.filter_eq_some_iff.mp h).2

/-! ## One device -/

section

variable {isMatch : String → String → Bool} {definition : TaskDefinition}
  {device : SchedulerDeviceSnapshot} {measurements : SchedulerScoreMeasurements}
  {taskClass : SchedulerTaskClass} {weights : SchedulerScoreWeights}

/-- What the device says of itself fits the arithmetic. -/
structure DeviceFits (definition : TaskDefinition) (device : SchedulerDeviceSnapshot) : Prop where
  cpu : ∀ load, device.dynamic.cpuLoad1mMilli = some load → CpuFits device.cpuCores load
  memory : ∀ freeMib wholeMib, device.dynamic.memoryFreeMib = some freeMib →
    wholeMemory definition device = some wholeMib → MemoryFits freeMib wholeMib

theorem idleCpuScore_isSome :
    (∃ score, idleCpuScore device = some score) ↔
      ∀ load, device.dynamic.cpuLoad1mMilli = some load → CpuFits device.cpuCores load := by
  unfold idleCpuScore
  cases device.dynamic.cpuLoad1mMilli with
  | none => exact iff_of_true ⟨_, rfl⟩ nofun
  | some load =>
    constructor
    · rintro ⟨score, h⟩ other hother
      obtain ⟨w, hw, -⟩ := Option.map_eq_some_iff.mp h
      rw [← Option.some.inj hother]
      exact (idleCpuPerMille_eq_some.mp hw).1
    · intro h
      have hle := perMille_le (cpuCapacity device.cpuCores - load.toNat)
        (cpuCapacity device.cpuCores) (Nat.sub_le _ _)
      obtain ⟨w, hw⟩ := exists_toNat (n := (cpuCapacity device.cpuCores - load.toNat) * 1000 /
        cpuCapacity device.cpuCores) (by omega)
      exact ⟨_, Option.map_eq_some_iff.mpr
        ⟨w, idleCpuPerMille_eq_some.mpr ⟨h load rfl, hw⟩, rfl⟩⟩

theorem freeMemoryScore_isSome :
    (∃ score, freeMemoryScore definition device = some score) ↔
      ∀ freeMib wholeMib, device.dynamic.memoryFreeMib = some freeMib →
        wholeMemory definition device = some wholeMib → MemoryFits freeMib wholeMib := by
  unfold freeMemoryScore
  cases device.dynamic.memoryFreeMib with
  | none => exact iff_of_true ⟨_, rfl⟩ nofun
  | some freeMib =>
    cases hwhole : wholeMemory definition device with
    | none => exact iff_of_true ⟨_, rfl⟩ nofun
    | some wholeMib =>
      have hpos := wholeMemory_pos hwhole
      constructor
      · rintro ⟨score, h⟩ free whole hfree hwhole
        obtain ⟨w, hw, -⟩ := Option.map_eq_some_iff.mp h
        rw [← Option.some.inj hfree, ← Option.some.inj hwhole]
        exact ((freePerMille_eq_some hpos).mp hw).1
      · intro h
        have hle := perMille_le (min freeMib.toNat wholeMib.toNat) wholeMib.toNat
          (Nat.min_le_right _ _)
        obtain ⟨w, hw⟩ := exists_toNat
          (n := min freeMib.toNat wholeMib.toNat * 1000 / wholeMib.toNat) (by omega)
        exact ⟨_, Option.map_eq_some_iff.mpr
          ⟨w, (freePerMille_eq_some hpos).mpr ⟨h freeMib wholeMib rfl rfl, hw⟩, rfl⟩⟩

theorem exists_transferCostScore (cost : Option UInt64) :
    ∃ score, transferCostScore cost = some score := by
  cases cost with
  | none => exact ⟨_, rfl⟩
  | some cost =>
    obtain ⟨w, hw⟩ := exists_toNat (n := 1000 - min cost.toNat 8192 * 1000 / 8192) (by omega)
    exact ⟨_, Option.map_eq_some_iff.mpr ⟨w, transferPerMille_eq_some.mpr hw, rfl⟩⟩

theorem idleCpuScore_le {score : UInt16} (h : idleCpuScore device = some score) : score ≤ 1000 := by
  unfold idleCpuScore at h
  split at h
  · rw [← Option.some.inj h]
    decide
  · obtain ⟨w, hw, rfl⟩ := Option.map_eq_some_iff.mp h
    exact le_of_narrow (le_of_idleCpu hw)

theorem freeMemoryScore_le {score : UInt16} (h : freeMemoryScore definition device = some score) :
    score ≤ 1000 := by
  unfold freeMemoryScore at h
  split at h
  · rw [← Option.some.inj h]
    decide
  · split at h
    · rename_i wholeMib hwhole
      obtain ⟨w, hw, rfl⟩ := Option.map_eq_some_iff.mp h
      exact le_of_narrow (le_of_free (wholeMemory_pos hwhole) hw)
    · rw [← Option.some.inj h]
      decide

theorem transferCostScore_le {cost : Option UInt64} {score : UInt16}
    (h : transferCostScore cost = some score) : score ≤ 1000 := by
  unfold transferCostScore at h
  split at h
  · rw [← Option.some.inj h]
    decide
  · obtain ⟨w, hw, rfl⟩ := Option.map_eq_some_iff.mp h
    exact le_of_narrow (le_of_transfer hw)

theorem boundedSignal_le (value : Option UInt16) (fallback : UInt16) :
    boundedSignal value fallback ≤ 1000 := by
  have hmin : boundedSignal value fallback =
      if value.getD fallback ≤ 1000 then value.getD fallback else 1000 := rfl
  rw [hmin]
  split
  · assumption
  · exact UInt16.le_refl 1000

theorem powerPreferenceScore_le (device : SchedulerDeviceSnapshot) :
    powerPreferenceScore device ≤ 1000 := by
  unfold powerPreferenceScore
  split
  · decide
  · cases device.dynamic.powerSource <;> decide

theorem networkQualityScore_le (quality : SchedulerNetworkRouteQuality) :
    networkQualityScore quality ≤ 1000 := by
  cases quality <;> decide

theorem foregroundScore_le (load : ForegroundLoad) : foregroundScore load ≤ 1000 := by
  cases load <;> decide

theorem thermalScore_le (pressure : SchedulerThermalPressure) : thermalScore pressure ≤ 1000 := by
  cases pressure <;> decide

/-- Every signal is at most 1000. -/
theorem signals_le {kind : SchedulerScoreComponentKind} {score weight : UInt16}
    {explanation : String} (h : (kind, some score, weight, explanation) ∈
      signals definition device measurements weights) : score ≤ 1000 := by
  simp only [signals, List.mem_cons, Prod.mk.injEq, Option.some.injEq, List.not_mem_nil,
    or_false] at h
  rcases h with ⟨-, rfl, -⟩ | ⟨-, h, -⟩ | ⟨-, h, -⟩ | ⟨-, rfl, -⟩ | ⟨-, rfl, -⟩ | ⟨-, rfl, -⟩ |
    ⟨-, rfl, -⟩ | ⟨-, rfl, -⟩ | ⟨-, h, -⟩ | ⟨-, rfl, -⟩ | ⟨-, rfl, -⟩
  · exact boundedSignal_le _ _
  · exact idleCpuScore_le h.symm
  · exact freeMemoryScore_le h.symm
  · exact powerPreferenceScore_le device
  · exact boundedSignal_le _ _
  · exact networkQualityScore_le _
  · exact boundedSignal_le _ _
  · exact boundedSignal_le _ _
  · exact transferCostScore_le h.symm
  · exact foregroundScore_le _
  · exact thermalScore_le _

/-! ## Weights and points -/

theorem exists_component (kind : SchedulerScoreComponentKind) (score weight : UInt16)
    (explanation : String) : ∃ c, component kind score weight explanation = some c := by
  have hscore := score.toNat_lt
  have hweight := weight.toNat_lt
  have hproduct : score.toNat * weight.toNat ≤ (2 ^ 16 - 1) * (2 ^ 16 - 1) :=
    Nat.mul_le_mul (by omega) (by omega)
  obtain ⟨points, hpoints⟩ := exists_toNat (n := score.toNat * weight.toNat) (by omega)
  have hmul : checkedMul score.toUInt64 weight.toUInt64 = some points := by
    rw [checkedMul_eq_some, UInt16.toNat_toUInt64, UInt16.toNat_toUInt64]
    exact hpoints
  exact ⟨_, Option.bind_eq_some_iff.mpr ⟨points, hmul, rfl⟩⟩

theorem component_eq_some {kind : SchedulerScoreComponentKind} {score weight : UInt16}
    {explanation : String} {c : SchedulerScoreComponent}
    (h : component kind score weight explanation = some c) :
    c.scorePerMille = score ∧ c.weight = weight ∧
      c.weightedPoints.toNat = score.toNat * weight.toNat := by
  obtain ⟨points, hpoints, h⟩ := Option.bind_eq_some_iff.mp h
  rw [checkedMul_eq_some, UInt16.toNat_toUInt64, UInt16.toNat_toUInt64] at hpoints
  cases h
  exact ⟨rfl, rfl, hpoints⟩

/-- The total of eleven weights. -/
theorem weights_total (weights : SchedulerScoreWeights) : ∃ total, weights.total = some total := by
  have hbound : exactSum (weights.all.map (·.toUInt64)) ≤ 11 * (2 ^ 16 - 1) := by
    refine exactSum_le ?_
    intro w hw
    obtain ⟨weight, -, rfl⟩ := List.mem_map.mp hw
    rw [UInt16.toNat_toUInt64]
    have := weight.toNat_lt
    omega
  obtain ⟨total, htotal⟩ := exists_toNat
    (n := exactSum (weights.all.map (·.toUInt64))) (by omega)
  exact ⟨total, checkedSum_eq_some.mpr htotal⟩

/-- The components are those of the signals. -/
theorem components_spec {components : List SchedulerScoreComponent}
    (h : schedulerScoreComponents definition device measurements weights = some components) :
    List.Forall₂ (fun signal c => ∃ score, signal.2.1 = some score ∧
      component signal.1 score signal.2.2.1 signal.2.2.2 = some c)
        (signals definition device measurements weights) components := by
  refine (mapM_eq_some_iff.mp h).imp ?_
  rintro ⟨kind, score, weight, explanation⟩ c hc
  exact Option.bind_eq_some_iff.mp hc

theorem components_le {components : List SchedulerScoreComponent}
    (h : schedulerScoreComponents definition device measurements weights = some components) :
    components.length = 11 ∧ ∀ c ∈ components, c.scorePerMille ≤ 1000 ∧
      c.weightedPoints.toNat ≤ 1000 * (2 ^ 16 - 1) := by
  have hspec := components_spec h
  refine ⟨hspec.length_eq.symm, ?_⟩
  intro c hc
  obtain ⟨⟨kind, signal, weight, explanation⟩, hmem, score, hscore, hcomponent⟩ :=
    exists_of_forall₂ hspec hc
  dsimp only at hscore hcomponent
  rw [hscore] at hmem
  have hle := signals_le hmem
  obtain ⟨heq, -, hpoints⟩ := component_eq_some hcomponent
  refine ⟨heq ▸ hle, ?_⟩
  rw [hpoints]
  have hweight := weight.toNat_lt
  exact Nat.mul_le_mul (UInt16.le_iff_toNat_le.mp hle) (by omega)

theorem exists_components_iff :
    (∃ components, schedulerScoreComponents definition device measurements weights =
      some components) ↔ DeviceFits definition device := by
  constructor
  · rintro ⟨components, h⟩
    have hspec := components_spec h
    simp only [signals, List.forall₂_cons_left_iff] at hspec
    obtain ⟨-, -, -, ⟨-, -, ⟨cpu, hcpu, -⟩, ⟨-, -, ⟨memory, hmemory, -⟩, -⟩, -⟩, -⟩ := hspec
    exact ⟨idleCpuScore_isSome.mp ⟨cpu, hcpu⟩, freeMemoryScore_isSome.mp ⟨memory, hmemory⟩⟩
  · intro h
    have hall : ∀ signal ∈ signals definition device measurements weights,
        ∃ score, signal.2.1 = some score := by
      simp only [signals, List.forall_mem_cons, List.not_mem_nil, false_implies, implies_true,
        and_true]
      exact ⟨⟨_, rfl⟩, idleCpuScore_isSome.mpr h.cpu, freeMemoryScore_isSome.mpr h.memory,
        ⟨_, rfl⟩, ⟨_, rfl⟩, ⟨_, rfl⟩, ⟨_, rfl⟩, ⟨_, rfl⟩, exists_transferCostScore _, ⟨_, rfl⟩,
        ⟨_, rfl⟩⟩
    apply exists_mapM
    rintro ⟨kind, signal, weight, explanation⟩ hmem
    obtain ⟨score, hscore⟩ := hall _ hmem
    have hscore : signal = some score := hscore
    obtain ⟨c, hc⟩ := exists_component kind score weight explanation
    exact ⟨c, Option.bind_eq_some_iff.mpr ⟨score, hscore, hc⟩⟩

/-- The total of weighted points that are not too many. -/
theorem exists_totalPerMille {components : List SchedulerScoreComponent}
    (h : schedulerScoreComponents definition device measurements weights = some components) :
    ∃ w, totalPerMille weights components = some w := by
  obtain ⟨hlength, hbounds⟩ := components_le h
  have hpoints : exactSum (components.map (·.weightedPoints)) ≤
      components.length * (1000 * (2 ^ 16 - 1)) := by
    rw [← List.length_map (f := SchedulerScoreComponent.weightedPoints)]
    apply exactSum_le
    intro w hw
    obtain ⟨c, hc, rfl⟩ := List.mem_map.mp hw
    exact (hbounds c hc).2
  rw [hlength] at hpoints
  obtain ⟨points, hsum⟩ := exists_toNat
    (n := exactSum (components.map (·.weightedPoints))) (by omega)
  obtain ⟨totalWeight, hweight⟩ := weights_total weights
  have hne : max totalWeight 1 ≠ 0 := by
    intro heq
    have hmax := congrArg UInt64.toNat heq
    rw [toNat_max, UInt64.toNat_one, UInt64.toNat_zero] at hmax
    omega
  have hlt : points.toNat / (max totalWeight 1).toNat < 2 ^ 64 :=
    Nat.lt_of_le_of_lt (Nat.div_le_self _ _) points.toNat_lt
  obtain ⟨quotient, hquotient⟩ := exists_toNat hlt
  refine ⟨_, Option.bind_eq_some_iff.mpr ⟨totalWeight, hweight, Option.bind_eq_some_iff.mpr
    ⟨points, checkedSum_eq_some.mpr hsum, Option.bind_eq_some_iff.mpr ⟨quotient, ?_, rfl⟩⟩⟩⟩
  exact checkedDiv_eq_some.mpr ⟨hne, hquotient⟩

theorem totalPerMille_le {components : List SchedulerScoreComponent} {w : UInt64}
    (h : totalPerMille weights components = some w) : w.toNat ≤ 1000 := by
  obtain ⟨totalWeight, -, h⟩ := Option.bind_eq_some_iff.mp h
  obtain ⟨points, -, h⟩ := Option.bind_eq_some_iff.mp h
  obtain ⟨quotient, -, h⟩ := Option.bind_eq_some_iff.mp h
  rw [← Option.some.inj h, toNat_min]
  exact Nat.min_le_right _ _

/-! ## Scores -/

theorem score_of_not_eligible (h : ¬Eligible isMatch definition device) :
    scoreSchedulerCandidateWithClass isMatch definition device measurements taskClass =
      some ⟨device.deviceId, false, 0, taskClass,
        evaluateSchedulerConstraints isMatch definition device, []⟩ := by
  have hfalse : (evaluateSchedulerConstraints isMatch definition device).eligible = false :=
    Bool.not_eq_true _ ▸ h
  unfold scoreSchedulerCandidateWithClass
  simp only [hfalse, Bool.not_false, if_true]

theorem score_of_eligible (h : Eligible isMatch definition device) :
    scoreSchedulerCandidateWithClass isMatch definition device measurements taskClass = do
      let components ← schedulerScoreComponents definition device measurements
        (.forTaskClass taskClass)
      let total ← totalPerMille (.forTaskClass taskClass) components
      return ⟨device.deviceId, true, total.toUInt16, taskClass,
        evaluateSchedulerConstraints isMatch definition device, components⟩ := by
  have htrue : (evaluateSchedulerConstraints isMatch definition device).eligible = true := h
  unfold scoreSchedulerCandidateWithClass
  simp only [htrue, Bool.not_true, Bool.false_eq_true, if_false]

/-- There is a score unless something overflows for an eligible device. -/
theorem exists_score_iff :
    (∃ score, scoreSchedulerCandidateWithClass isMatch definition device measurements taskClass =
      some score) ↔ (Eligible isMatch definition device → DeviceFits definition device) := by
  by_cases heligible : Eligible isMatch definition device
  · rw [score_of_eligible heligible, forall_prop_of_true heligible]
    constructor
    · rintro ⟨score, h⟩
      obtain ⟨components, hcomponents, -⟩ := Option.bind_eq_some_iff.mp h
      exact exists_components_iff.mp ⟨components, hcomponents⟩
    · intro hfits
      obtain ⟨components, hcomponents⟩ := exists_components_iff.mpr hfits
      obtain ⟨total, htotal⟩ := exists_totalPerMille hcomponents
      exact ⟨_, Option.bind_eq_some_iff.mpr ⟨components, hcomponents,
        Option.bind_eq_some_iff.mpr ⟨total, htotal, rfl⟩⟩⟩
  · rw [score_of_not_eligible heligible]
    exact iff_of_true ⟨_, rfl⟩ fun h => absurd h heligible

/-- Nothing overflows or is divided by zero, the scores are within their bounds, and the casts
lose nothing. -/
structure ArithmeticSafe (isMatch : String → String → Bool) (definition : TaskDefinition)
    (device : SchedulerDeviceSnapshot) (measurements : SchedulerScoreMeasurements)
    (taskClass : SchedulerTaskClass) : Prop where
  scored : ∃ score, scoreSchedulerCandidateWithClass isMatch definition device measurements
    taskClass = some score ∧ score.totalScorePerMille ≤ 1000 ∧
      ∀ c ∈ score.components, c.scorePerMille ≤ 1000
  idleCpu : ∀ load w, device.dynamic.cpuLoad1mMilli = some load →
    idleCpuPerMille device.cpuCores load = some w → Narrow w
  freeMemory : ∀ freeMib wholeMib w, device.dynamic.memoryFreeMib = some freeMib →
    wholeMemory definition device = some wholeMib → freePerMille freeMib wholeMib = some w →
      Narrow w
  transferCost : ∀ cost w, measurements.transferCostMib = some cost →
    transferPerMille cost = some w → Narrow w
  total : ∀ components w, schedulerScoreComponents definition device measurements
    (.forTaskClass taskClass) = some components →
      totalPerMille (.forTaskClass taskClass) components = some w → Narrow w

theorem score_le {score : SchedulerScore}
    (h : scoreSchedulerCandidateWithClass isMatch definition device measurements taskClass =
      some score) :
    score.totalScorePerMille ≤ 1000 ∧ ∀ c ∈ score.components, c.scorePerMille ≤ 1000 := by
  by_cases heligible : Eligible isMatch definition device
  · rw [score_of_eligible heligible] at h
    obtain ⟨components, hcomponents, h⟩ := Option.bind_eq_some_iff.mp h
    obtain ⟨total, htotal, h⟩ := Option.bind_eq_some_iff.mp h
    rw [← Option.some.inj h]
    exact ⟨le_of_narrow (totalPerMille_le htotal), fun c hc =>
      ((components_le hcomponents).2 c hc).1⟩
  · rw [score_of_not_eligible heligible] at h
    rw [← Option.some.inj h]
    exact ⟨UInt16.zero_le, nofun⟩

end

/-- The scoring of a device is safe exactly when it is not eligible, or what it says of its
cores and its memory fits the products with 1000. -/
theorem schedulerArithmetic_safe_iff (isMatch : String → String → Bool)
    (definition : TaskDefinition) (device : SchedulerDeviceSnapshot)
    (measurements : SchedulerScoreMeasurements) (taskClass : SchedulerTaskClass) :
    ArithmeticSafe isMatch definition device measurements taskClass ↔
      (Eligible isMatch definition device → DeviceFits definition device) := by
  constructor
  · rintro ⟨⟨score, hscore, -⟩, -⟩
    exact exists_score_iff.mp ⟨score, hscore⟩
  · intro h
    obtain ⟨score, hscore⟩ := exists_score_iff.mpr h
    obtain ⟨htotal, hcomponents⟩ := score_le hscore
    refine ⟨⟨score, hscore, htotal, hcomponents⟩, ?_, ?_, ?_, ?_⟩
    · intro load w _ hw
      exact narrow_of_le (le_of_idleCpu hw)
    · intro freeMib wholeMib w _ hwhole hw
      exact narrow_of_le (le_of_free (wholeMemory_pos hwhole) hw)
    · intro cost w _ hw
      exact narrow_of_le (le_of_transfer hw)
    · intro components w _ hw
      exact narrow_of_le (totalPerMille_le hw)

def demoDefinition : TaskDefinition where
  projectId := "project"
  taskName := "test"
  profileName := "native"
  profileKind := .native
  command := ["make", "check"]
  platforms := []
  cpu := some 4
  memoryMib := some 1024
  diskMib := none
  interactive := false
  cache := none
  outputs := []
  features := []
  sandbox := none
  commandDefinitionHash := "hash"

/-- A device with 16 GiB of memory, half of it free. -/
def deviceWithCores (cpuCores : UInt64) : SchedulerDeviceSnapshot where
  deviceId := "device"
  platformKey := "linux-x86_64"
  cpuCores := cpuCores
  memoryTotalMib := some 16384
  diskTotalMib := none
  features := []
  policy := ⟨true, none⟩
  dynamic := ⟨some 500, some 8192, none, .ac, false, .idle, .good⟩

/-- The capacity of `2^61` cores is `125 * 2^64` thousandths. -/
theorem many_cores_overflow :
    ResourceHintsOk demoDefinition.cpu demoDefinition.memoryMib ∧
      ¬ArithmeticSafe (fun _ _ => false) demoDefinition
          (deviceWithCores 0x2000000000000000) {} .test := by
  have hcpu : ∀ n ∈ demoDefinition.cpu, 1 ≤ n ∧ n ≤ 1024 := by
    intro n hn
    cases hn
    decide
  have hmemory : ∀ n ∈ demoDefinition.memoryMib, 64 ≤ n := by
    intro n hn
    cases hn
    decide
  refine ⟨⟨hcpu, hmemory⟩, ?_⟩
  rintro ⟨⟨score, hscore, -⟩, -⟩
  have hfits := exists_score_iff.mp ⟨score, hscore⟩ (by decide)
  have hcapacity := (hfits.cpu 500 rfl).1
  revert hcapacity
  decide

end DevRelay.Scheduler
