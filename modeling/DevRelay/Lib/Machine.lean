import Mathlib.Algebra.Ring.Int.Defs
import Mathlib.Algebra.Ring.Nat
import Mathlib.Data.Finset.Card
import Mathlib.Data.Finset.Range
import Mathlib.Data.List.Forall2
import Mathlib.Tactic.Common

/-!
# Unsigned values in signed columns

A store that only has signed 64-bit columns keeps an unsigned value by its bit
pattern, and its reader clamps what comes out negative.  Up to `2^63` the two
are inverse; from there on the value reads back as zero.
-/

namespace DevRelay.Lib

/-- The cast of an unsigned 64-bit value to a signed one. -/
def asI64 (v : UInt64) : Int64 := v.toInt64

/-- A signed column read as an unsigned value: negative values read as zero. -/
def clampU64 (v : Int64) : UInt64 := if v < 0 then 0 else v.toUInt64

/-- Writing back a value that was read does not change what is read. -/
@[simp] theorem clampU64_asI64_clampU64 (v : Int64) :
    clampU64 (asI64 (clampU64 v)) = clampU64 v := by
  unfold clampU64 asI64
  split
  · rfl
  · rename_i hv
    simp [hv]

/-- The bit pattern as a signed number. -/
theorem toInt_asI64 (v : UInt64) :
    (asI64 v).toInt = if v.toNat < 2 ^ 63 then (v.toNat : Int) else v.toNat - 2 ^ 64 := by
  have hbits : (asI64 v).toBitVec.toNat = v.toNat := by
    rw [asI64, UInt64.toBitVec_toInt64, UInt64.toNat_toBitVec]
  rw [Int64.toInt, BitVec.toInt_eq_toNat_cond, hbits]
  split
  · rw [if_pos (by omega)]
  · rw [if_neg (by omega)]
    rfl

/-- A value that fits the signed column is read back as it was written. -/
theorem clampU64_asI64 {v : UInt64} (h : v.toNat < 2 ^ 63) : clampU64 (asI64 v) = v := by
  have hnonneg : ¬asI64 v < 0 := by
    rw [Int64.lt_iff_toInt_lt, toInt_asI64, if_pos h]
    simp
  unfold clampU64
  rw [if_neg hnonneg]
  rfl

/-- The cast keeps the order, except from below `2^63` to above it. -/
theorem asI64_le_asI64 {a b : UInt64} (hle : a ≤ b)
    (hsides : 2 ^ 63 ≤ b.toNat → asI64 a < 0) : asI64 a ≤ asI64 b := by
  have hnat := UInt64.le_iff_toNat_le.mp hle
  rw [Int64.le_iff_toInt_le]
  by_cases hb : b.toNat < 2 ^ 63
  · rw [toInt_asI64, toInt_asI64, if_pos hb, if_pos (by omega)]
    omega
  · have ha := hsides (by omega)
    rw [Int64.lt_iff_toInt_lt, toInt_asI64] at ha
    rw [toInt_asI64, toInt_asI64, if_neg hb]
    split at ha
    · simp at ha
      omega
    · rename_i hlarge
      rw [if_neg hlarge]
      omega

theorem toNat_clampU64_lt (v : Int64) : (clampU64 v).toNat < 2 ^ 63 := by
  unfold clampU64
  split
  · decide
  · rename_i hnonneg
    have hint : 0 ≤ v.toBitVec.toInt := by
      rw [Int64.lt_iff_toInt_lt] at hnonneg
      exact Int.not_lt.mp hnonneg
    have hlt := v.toBitVec.isLt
    rw [BitVec.toInt_eq_toNat_cond] at hint
    change v.toBitVec.toNat < 2 ^ 63
    split at hint
    · omega
    · omega

/-- Addition of unsigned 64-bit values that stops at the largest one. -/
def saturatingAdd (a b : UInt64) : UInt64 :=
  if a.toNat + b.toNat < 2 ^ 64 then a + b else 0xffffffffffffffff

/-- Subtraction that stops at zero. -/
def saturatingSub (a b : UInt64) : UInt64 := if b ≤ a then a - b else 0

/-- Multiplication that stops at the largest value. -/
def saturatingMul (a b : UInt64) : UInt64 :=
  if a.toNat * b.toNat < 2 ^ 64 then a * b else 0xffffffffffffffff

theorem toNat_saturatingAdd (a b : UInt64) :
    (saturatingAdd a b).toNat = min (a.toNat + b.toNat) (2 ^ 64 - 1) := by
  unfold saturatingAdd
  split
  · rename_i h
    rw [UInt64.toNat_add, Nat.mod_eq_of_lt h]
    omega
  · rename_i h
    simp only [UInt64.reduceToNat]
    omega

theorem le_saturatingAdd (a b : UInt64) : a ≤ saturatingAdd a b := by
  have hlt := a.toNat_lt
  rw [UInt64.le_iff_toNat_le, toNat_saturatingAdd]
  omega

/-- The maximum of two words, on their values. -/
theorem toNat_max (a b : UInt64) : (max a b).toNat = max a.toNat b.toNat := by
  have hmax : max a b = if a ≤ b then b else a := rfl
  rw [hmax]
  split_ifs with h
  · rw [UInt64.le_iff_toNat_le] at h
    omega
  · rw [UInt64.le_iff_toNat_le] at h
    omega

theorem word_le_max_left (a b : UInt64) : a ≤ max a b := by
  rw [UInt64.le_iff_toNat_le, toNat_max]
  omega

theorem word_le_max_right (a b : UInt64) : b ≤ max a b := by
  rw [UInt64.le_iff_toNat_le, toNat_max]
  omega

/-- A counter of 64 bits cannot increase more than `2^64` times. -/
theorem length_le_of_increasing {values : List UInt64} (h : values.Pairwise (· < ·)) :
    values.length ≤ 2 ^ 64 := by
  have hnodup : (values.map UInt64.toNat).Nodup := by
    rw [List.Nodup, List.pairwise_map]
    apply h.imp
    intro a b hlt heq
    rw [UInt64.lt_iff_toNat_lt] at hlt
    omega
  have hsubset : (values.map UInt64.toNat).toFinset ⊆ Finset.range (2 ^ 64) := by
    intro n hn
    obtain ⟨a, -, rfl⟩ := List.mem_map.mp (List.mem_toFinset.mp hn)
    exact Finset.mem_range.mpr a.toNat_lt
  have hcard := Finset.card_le_card hsubset
  rw [List.toFinset_card_of_nodup hnodup, List.length_map, Finset.card_range] at hcard
  exact hcard

end DevRelay.Lib

/-!
## Checked arithmetic

The plain operators on unsigned 64-bit values, as a build with overflow checks runs them: a
result that does not fit is no result.
-/

namespace DevRelay.Lib

def checkedAdd (a b : UInt64) : Option UInt64 :=
  if a.toNat + b.toNat < 2 ^ 64 then some (a + b) else none

def checkedMul (a b : UInt64) : Option UInt64 :=
  if a.toNat * b.toNat < 2 ^ 64 then some (a * b) else none

def checkedSub (a b : UInt64) : Option UInt64 := if b ≤ a then some (a - b) else none

/-- Nothing is divided by zero. -/
def checkedDiv (a b : UInt64) : Option UInt64 := if b = 0 then none else some (a / b)

/-- `Iterator::sum` -/
def checkedSumFrom (acc : UInt64) : List UInt64 → Option UInt64
  | [] => some acc
  | word :: words => (checkedAdd acc word).bind fun acc => checkedSumFrom acc words

def checkedSum (words : List UInt64) : Option UInt64 := checkedSumFrom 0 words

/-- The sum of some words, without a bound. -/
def exactSum (words : List UInt64) : Nat := (words.map UInt64.toNat).sum

@[simp] theorem exactSum_nil : exactSum [] = 0 := rfl

@[simp] theorem exactSum_cons (word : UInt64) (words : List UInt64) :
    exactSum (word :: words) = word.toNat + exactSum words := by
  rw [exactSum, List.map_cons, List.sum_cons, exactSum]

theorem checkedMul_isSome (a b : UInt64) :
    (checkedMul a b).isSome = true ↔ a.toNat * b.toNat < 2 ^ 64 := by
  unfold checkedMul
  split
  · rename_i h
    exact iff_of_true rfl h
  · rename_i h
    exact iff_of_false Bool.false_ne_true h

/-! ## Results in unbounded numbers -/

theorem exists_toNat {n : Nat} (h : n < 2 ^ 64) : ∃ w : UInt64, w.toNat = n :=
  ⟨UInt64.ofNat n, UInt64.toNat_ofNat_of_lt' h⟩

theorem checkedMul_eq_some {a b c : UInt64} :
    checkedMul a b = some c ↔ c.toNat = a.toNat * b.toNat := by
  unfold checkedMul
  split
  · rename_i h
    rw [Option.some_inj, ← UInt64.toNat_inj, UInt64.toNat_mul, Nat.mod_eq_of_lt h]
    exact eq_comm
  · rename_i h
    have hlt := c.toNat_lt
    refine iff_of_false nofun ?_
    omega

theorem checkedSub_eq_some {a b c : UInt64} :
    checkedSub a b = some c ↔ c.toNat + b.toNat = a.toNat := by
  unfold checkedSub
  split
  · rename_i h
    have hle := UInt64.le_iff_toNat_le.mp h
    rw [Option.some_inj, ← UInt64.toNat_inj, UInt64.toNat_sub_of_le a b h]
    omega
  · rename_i h
    rw [UInt64.le_iff_toNat_le] at h
    refine iff_of_false nofun ?_
    omega

theorem checkedDiv_eq_some {a b c : UInt64} :
    checkedDiv a b = some c ↔ b ≠ 0 ∧ c.toNat = a.toNat / b.toNat := by
  unfold checkedDiv
  split
  · rename_i h
    exact iff_of_false nofun fun hdiv => hdiv.1 h
  · rename_i h
    rw [Option.some_inj, ← UInt64.toNat_inj, UInt64.toNat_div, and_iff_right h]
    exact eq_comm

theorem checkedSumFrom_eq_some {acc c : UInt64} {words : List UInt64} :
    checkedSumFrom acc words = some c ↔ c.toNat = acc.toNat + exactSum words := by
  induction words generalizing acc with
  | nil =>
    rw [checkedSumFrom, exactSum_nil, Nat.add_zero, Option.some_inj, ← UInt64.toNat_inj]
    exact eq_comm
  | cons word words ih =>
    rw [checkedSumFrom, checkedAdd, exactSum_cons]
    by_cases hfits : acc.toNat + word.toNat < 2 ^ 64
    · have hadd : (acc + word).toNat = acc.toNat + word.toNat := by
        rw [UInt64.toNat_add, Nat.mod_eq_of_lt hfits]
      rw [if_pos hfits, Option.bind_some, ih, hadd, Nat.add_assoc]
    · rw [if_neg hfits, Option.bind_none]
      have hlt := c.toNat_lt
      refine iff_of_false nofun ?_
      omega

theorem checkedSum_eq_some {c : UInt64} {words : List UInt64} :
    checkedSum words = some c ↔ c.toNat = exactSum words := by
  rw [checkedSum, checkedSumFrom_eq_some, UInt64.toNat_zero, Nat.zero_add]

/-- No partial sum overflows when the total does not. -/
theorem checkedSum_isSome (words : List UInt64) :
    (checkedSum words).isSome = true ↔ exactSum words < 2 ^ 64 := by
  rw [Option.isSome_iff_exists]
  simp only [checkedSum_eq_some]
  constructor
  · rintro ⟨c, hc⟩
    exact hc ▸ c.toNat_lt
  · exact exists_toNat

/-- A sum of words below a bound. -/
theorem exactSum_le {bound : Nat} {words : List UInt64} (h : ∀ w ∈ words, w.toNat ≤ bound) :
    exactSum words ≤ words.length * bound := by
  induction words with
  | nil => exact Nat.zero_le _
  | cons word words ih =>
    have hfirst := h word List.mem_cons_self
    have hrest := ih fun w hw => h w (List.mem_cons_of_mem word hw)
    rw [exactSum_cons, List.length_cons, Nat.succ_mul]
    omega

/-- Larger words have a larger sum. -/
theorem exactSum_le_exactSum {left right : List UInt64}
    (h : List.Forall₂ (fun a b : UInt64 => a ≤ b) left right) :
    exactSum left ≤ exactSum right := by
  induction h with
  | nil => exact Nat.le_refl _
  | cons hfirst _ ih =>
    rw [exactSum_cons, exactSum_cons]
    rw [UInt64.le_iff_toNat_le] at hfirst
    omega

/-! ## Lists of results -/

/-- What is on the right stands for something on the left. -/
theorem exists_of_forall₂ {α β : Type} {R : α → β → Prop} {inputs : List α} {results : List β}
    (h : List.Forall₂ R inputs results) {result : β} (hmem : result ∈ results) :
    ∃ input ∈ inputs, R input result := by
  induction h with
  | nil => cases hmem
  | @cons input first inputs results hfirst _ ih =>
    rcases List.mem_cons.mp hmem with rfl | hrest
    · exact ⟨input, List.mem_cons_self, hfirst⟩
    · obtain ⟨other, hother, hR⟩ := ih hrest
      exact ⟨other, List.mem_cons_of_mem input hother, hR⟩

/-- A list of results is a result when each of them is. -/
theorem mapM_eq_some_iff {α β : Type} {f : α → Option β} {inputs : List α} {results : List β} :
    inputs.mapM f = some results ↔
      List.Forall₂ (fun input result => f input = some result) inputs results := by
  induction inputs generalizing results with
  | nil =>
    rw [List.mapM_nil, List.forall₂_nil_left_iff]
    exact Option.some_inj.trans eq_comm
  | cons input inputs ih =>
    rw [List.mapM_cons, Option.bind_eq_bind, Option.bind_eq_some_iff]
    constructor
    · rintro ⟨result, hresult, h⟩
      obtain ⟨rest, hrest, h⟩ := Option.bind_eq_some_iff.mp h
      rw [← Option.some.inj h]
      exact List.Forall₂.cons hresult (ih.mp hrest)
    · intro h
      cases h with
      | cons hresult hrest => exact ⟨_, hresult, by rw [ih.mpr hrest]; rfl⟩

theorem exists_mapM {α β : Type} {f : α → Option β} {inputs : List α}
    (h : ∀ input ∈ inputs, ∃ result, f input = some result) :
    ∃ results, inputs.mapM f = some results := by
  induction inputs with
  | nil => exact ⟨[], rfl⟩
  | cons input inputs ih =>
    obtain ⟨result, hresult⟩ := h input List.mem_cons_self
    obtain ⟨results, hresults⟩ := ih fun other hother => h other (List.mem_cons_of_mem _ hother)
    refine ⟨result :: results, ?_⟩
    rw [mapM_eq_some_iff] at hresults ⊢
    exact List.Forall₂.cons hresult hresults

theorem mapM_eq_map {α β : Type} {f : α → Option β} {g : α → β} {inputs : List α}
    (h : ∀ input ∈ inputs, f input = some (g input)) : inputs.mapM f = some (inputs.map g) := by
  rw [mapM_eq_some_iff, List.forall₂_map_right_iff, List.forall₂_same]
  exact h

/-- What stands for related inputs is related. -/
theorem forall₂_of_inputs {α β : Type} {R : α → β → Prop} {S : α → α → Prop} {T : β → β → Prop}
    {inputs inputs' : List α} {results results' : List β}
    (h : List.Forall₂ R inputs results) (hinputs : List.Forall₂ S inputs inputs')
    (h' : List.Forall₂ R inputs' results') (himp : ∀ a a' b b', R a b → S a a' → R a' b' → T b b') :
    List.Forall₂ T results results' := by
  induction h generalizing inputs' results' with
  | nil =>
    cases hinputs
    cases h'
    exact List.Forall₂.nil
  | cons hfirst _ ih =>
    cases hinputs with
    | cons hS hinputs =>
      cases h' with
      | cons hfirst' h' =>
        exact List.Forall₂.cons (himp _ _ _ _ hfirst hS hfirst') (ih hinputs h')

end DevRelay.Lib
