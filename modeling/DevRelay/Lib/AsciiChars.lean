import Mathlib.Tactic.Common

/-!
# Letters and digits of ASCII

The tests of a character as bounds on its code.
-/

namespace DevRelay.Lib

variable {c : Char}

theorem isUpper_iff : c.isUpper = true ↔ 65 ≤ c.toNat ∧ c.toNat ≤ 90 := by
  show decide (_ ∧ _) = true ↔ _
  rw [decide_eq_true_eq]
  exact Iff.rfl

theorem isLower_iff : c.isLower = true ↔ 97 ≤ c.toNat ∧ c.toNat ≤ 122 := by
  show (decide _ && decide _) = true ↔ _
  rw [Bool.and_eq_true, decide_eq_true_eq, decide_eq_true_eq]
  exact Iff.rfl

theorem isDigit_iff : c.isDigit = true ↔ 48 ≤ c.toNat ∧ c.toNat ≤ 57 := by
  show (decide _ && decide _) = true ↔ _
  rw [Bool.and_eq_true, decide_eq_true_eq, decide_eq_true_eq]
  exact Iff.rfl

theorem isAlphanum_iff : c.isAlphanum = true ↔
    (c.isUpper = true ∨ c.isLower = true) ∨ c.isDigit = true := by
  show (c.isUpper || c.isLower || c.isDigit) = true ↔ _
  rw [Bool.or_eq_true, Bool.or_eq_true]

/-! ## Lower case -/

theorem toLower_of_not_isUpper (h : c.isUpper = false) : c.toLower = c := by
  apply dif_neg
  intro hupper
  exact absurd (isUpper_iff.mpr hupper) (by rw [h]; exact Bool.false_ne_true)

theorem toNat_toLower (h : c.isUpper = true) : c.toLower.toNat = c.toNat + 32 := by
  have hbounds := isUpper_iff.mp h
  have hval : c.toLower.val = c.val + 32 := by
    delta Char.toLower
    split
    · rfl
    · rename_i hnot
      exact absurd hbounds hnot
  show c.toLower.val.toNat = c.val.toNat + 32
  have hnat : c.toNat = c.val.toNat := rfl
  rw [hval, UInt32.toNat_add]
  show (c.val.toNat + 32) % 2 ^ 32 = _
  omega

theorem isLower_toLower (h : c.isUpper = true) : c.toLower.isLower = true := by
  have hbounds := isUpper_iff.mp h
  rw [isLower_iff, toNat_toLower h]
  omega

end DevRelay.Lib
