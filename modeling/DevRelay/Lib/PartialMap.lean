import Mathlib.Logic.Function.Basic
import Mathlib.Tactic.Common

/-!
# Partial maps

A store seen through its keys: `κ → Option α`.  An insertion is
`Function.update` with a value; `alterAt` rewrites the value at one key, if it
has one.
-/

namespace DevRelay.Lib

variable {κ α : Type} [DecidableEq κ]

/-- Rewrite the value at `k`. -/
def alterAt (m : κ → Option α) (k : κ) (f : α → α) : κ → Option α :=
  Function.update m k ((m k).map f)

/-- Set the value at `k`. -/
def assign (m : κ → Option α) (k : κ) (v : α) : κ → Option α :=
  Function.update m k (some v)

theorem alterAt_eq_some {m : κ → Option α} {k k' : κ} {f : α → α} {v : α} :
    alterAt m k f k' = some v ↔
      (k' = k ∧ ∃ w, m k = some w ∧ f w = v) ∨ (k' ≠ k ∧ m k' = some v) := by
  unfold alterAt
  by_cases h : k' = k
  · subst h
    simp [Function.update_self]
  · simp [h]

theorem assign_eq_some {m : κ → Option α} {k k' : κ} {v w : α} :
    assign m k v k' = some w ↔ (k' = k ∧ v = w) ∨ (k' ≠ k ∧ m k' = some w) := by
  unfold assign
  by_cases h : k' = k
  · subst h
    simp [Function.update_self]
  · simp [h]

theorem alterAt_self {m : κ → Option α} {k : κ} {f : α → α} {v : α} (h : m k = some v) :
    alterAt m k f k = some (f v) := by
  rw [alterAt, Function.update_self, h, Option.map_some]

theorem alterAt_of_ne {m : κ → Option α} {k k' : κ} {f : α → α} (h : k' ≠ k) :
    alterAt m k f k' = m k' := Function.update_of_ne h _ _

theorem assign_self {m : κ → Option α} {k : κ} {v : α} : assign m k v k = some v :=
  Function.update_self ..

theorem assign_of_ne {m : κ → Option α} {k k' : κ} {v : α} (h : k' ≠ k) :
    assign m k v k' = m k' := Function.update_of_ne h _ _

theorem isSome_assign {m : κ → Option α} {k k' : κ} {v : α} (h : (m k').isSome) :
    (assign m k v k').isSome := by
  by_cases hne : k' = k
  · subst hne
    rw [assign_self]
    rfl
  · rwa [assign_of_ne hne]

/-- What a rewriting does not change can be read before it or after it. -/
theorem map_alterAt {β : Type} {m : κ → Option α} {k k' : κ} {f : α → α} {g : α → β}
    (h : ∀ v, g (f v) = g v) : (alterAt m k f k').map g = (m k').map g := by
  by_cases hne : k' = k
  · subst hne
    rw [alterAt, Function.update_self, Option.map_map]
    exact congrArg (fun f => (m k').map f) (funext h)
  · rw [alterAt_of_ne hne]

/-- A map given pointwise by a rewriting at one key. -/
theorem eq_alterAt {m n : κ → Option α} {k : κ} {f : α → α}
    (hself : n k = (m k).map f) (hother : ∀ k', k' ≠ k → n k' = m k') :
    n = alterAt m k f := by
  funext k'
  by_cases h : k' = k
  · subst h
    rw [hself, alterAt, Function.update_self]
  · rw [hother k' h, alterAt_of_ne h]

end DevRelay.Lib
