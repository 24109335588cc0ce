import Mathlib.Data.List.Basic
import Mathlib.Logic.Function.Basic
import Mathlib.Tactic.Common

/-!
# Numbered slots

A chain of slots in which entries grow old: new entries go to slot 0, and a slot
moves up by one number when there is room above it.  `joined` reads the chain
from its highest slot down to slot 0, the oldest entries first.
-/

namespace DevRelay.Lib

variable {α : Type}

/-- The entries of the slots `n, .., 1, 0`. -/
def joined (slots : ℕ → List α) : ℕ → List α
  | 0 => slots 0
  | n + 1 => slots (n + 1) ++ joined slots n

theorem joined_congr {slots slots' : ℕ → List α} {n : ℕ}
    (h : ∀ i, i ≤ n → slots i = slots' i) : joined slots n = joined slots' n := by
  induction n with
  | zero => exact h 0 (Nat.le_refl _)
  | succ n ih =>
    rw [joined, joined, h (n + 1) (Nat.le_refl _), ih fun i hi => h i (by omega)]

/-- Emptying the highest slot loses the oldest entries. -/
theorem joined_clear (slots : ℕ → List α) (n : ℕ) :
    joined (Function.update slots n []) n <:+ joined slots n := by
  cases n with
  | zero =>
    rw [joined, Function.update_self]
    exact List.nil_suffix
  | succ n =>
    have hrest : joined (Function.update slots (n + 1) []) n = joined slots n :=
      joined_congr fun i hi => Function.update_of_ne (by omega) _ _
    rw [joined, joined, Function.update_self, hrest, List.nil_append]
    exact List.suffix_append _ _

/-- Moving a slot up, behind what is there, keeps the order. -/
theorem joined_moveUp (slots : ℕ → List α) {i n : ℕ} (hi : i < n) :
    joined (Function.update (Function.update slots i []) (i + 1)
      (slots (i + 1) ++ slots i)) n = joined slots n := by
  induction n with
  | zero => omega
  | succ n ih =>
    by_cases heq : i = n
    · subst heq
      cases i with
      | zero => simp [joined]
      | succ i =>
        have hrest : joined (Function.update (Function.update slots (i + 1) [])
            (i + 1 + 1) (slots (i + 1 + 1) ++ slots (i + 1))) i = joined slots i :=
          joined_congr fun j hj => by
            rw [Function.update_of_ne (by omega), Function.update_of_ne (by omega)]
        rw [joined, joined, joined, joined, hrest]
        simp
    · rw [joined, joined, ih (by omega), Function.update_of_ne (by omega),
        Function.update_of_ne (by omega)]

/-- New entries are the last ones. -/
theorem joined_extend (slots : ℕ → List α) (entries : List α) (n : ℕ) :
    joined (Function.update slots 0 (slots 0 ++ entries)) n = joined slots n ++ entries := by
  induction n with
  | zero => simp [joined]
  | succ n ih =>
    rw [joined, joined, ih, Function.update_of_ne (by omega), List.append_assoc]

/-- After every slot moved up by one, the highest of them being empty. -/
theorem joined_shift {slots slots' : ℕ → List α} {n : ℕ} (hzero : slots' 0 = [])
    (hshift : ∀ i, i ≤ n → slots' (i + 1) = slots i) :
    joined slots' (n + 1) = joined slots n := by
  induction n with
  | zero => rw [joined, joined, joined, hzero, hshift 0 (Nat.le_refl _), List.append_nil]
  | succ n ih =>
    rw [joined, ih fun i hi => hshift i (by omega), hshift (n + 1) (Nat.le_refl _), joined]

end DevRelay.Lib
