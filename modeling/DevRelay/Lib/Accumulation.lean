import Mathlib.Order.Basic
import Mathlib.Tactic.Common

/-!
# Collecting until taken

Events of a run are collected into one value, until the value is taken and the
collecting starts over.  The value of a place then stands for the events that
wait there: it is one of them when the combination picks one, and it is bounded
by each of them when every combination is.
-/

namespace DevRelay.Lib

variable {β : Type} {event : Nat → Option β} {taken : Nat → Prop}
  {combine : Option β → β → β} {value : Nat → Option β}

/-- A value and the event that may come to it. -/
def collect (combine : Option β → β → β) (value event : Option β) : Option β :=
  match event with
  | some b => some (combine value b)
  | none => value

/-- The value at each place of a run, event by event. -/
structure Accumulates (event : Nat → Option β) (taken : Nat → Prop)
    (combine : Option β → β → β) (value : Nat → Option β) : Prop where
  start : value 0 = none
  take : ∀ n, taken n → value (n + 1) = none
  add : ∀ n, ¬taken n → value (n + 1) = collect combine (value n) (event n)

/-- The event of place `i` has not been taken when place `n` is reached. -/
structure Waits (event : Nat → Option β) (taken : Nat → Prop) (b : β) (i n : Nat) : Prop where
  before : i < n
  event : event i = some b
  untaken : ∀ k, i ≤ k → k < n → ¬taken k

theorem Waits.succ {b : β} {i n : Nat} (h : Waits event taken b i n) (hn : ¬taken n) :
    Waits event taken b i (n + 1) where
  before := by have := h.before; omega
  event := h.event
  untaken k hik hkn := by
    by_cases hk : k = n
    · rw [hk]
      exact hn
    · exact h.untaken k hik (by omega)

/-- An event that still waits has just come, or waited before. -/
theorem Waits.of_succ {b : β} {i n : Nat} (h : Waits event taken b i (n + 1)) :
    ¬taken n ∧ (i = n ∨ Waits event taken b i n) := by
  have hle := h.before
  refine ⟨h.untaken n (by omega) (by omega), ?_⟩
  by_cases hi : i = n
  · exact Or.inl hi
  · exact Or.inr ⟨by omega, h.event, fun k hik hkn => h.untaken k hik (by omega)⟩

/-- The first of two values is one of them. -/
theorem getD_pick (o : Option β) (b : β) : o.getD b = b ∨ o = some (o.getD b) := by
  cases o with
  | none => exact Or.inl rfl
  | some _ => exact Or.inr rfl

namespace Accumulates

theorem add_some (h : Accumulates event taken combine value) {n : Nat} {b : β}
    (htaken : ¬taken n) (hevent : event n = some b) :
    value (n + 1) = some (combine (value n) b) := by
  rw [h.add n htaken, hevent]
  rfl

theorem add_none (h : Accumulates event taken combine value) {n : Nat}
    (htaken : ¬taken n) (hevent : event n = none) : value (n + 1) = value n := by
  rw [h.add n htaken, hevent]
  rfl

/-- A combination that picks one of its arguments leaves an event that waits. -/
theorem origin (h : Accumulates event taken combine value)
    (hpick : ∀ o b, combine o b = b ∨ o = some (combine o b)) {n : Nat} {a : β}
    (ha : value n = some a) : ∃ i, Waits event taken a i n := by
  induction n generalizing a with
  | zero =>
    rw [h.start] at ha
    cases ha
  | succ n ih =>
    by_cases htaken : taken n
    · rw [h.take n htaken] at ha
      cases ha
    · cases hevent : event n with
      | none =>
        rw [h.add_none htaken hevent] at ha
        obtain ⟨i, hwaits⟩ := ih ha
        exact ⟨i, hwaits.succ htaken⟩
      | some b =>
        rw [h.add_some htaken hevent] at ha
        have ha : combine (value n) b = a := Option.some.inj ha
        rcases hpick (value n) b with hnew | hold
        · refine ⟨n, by omega, ?_, ?_⟩
          · rw [hevent, ← hnew, ha]
          · intro k hik hkn
            rwa [show k = n by omega]
        · rw [ha] at hold
          obtain ⟨i, hwaits⟩ := ih hold
          exact ⟨i, hwaits.succ htaken⟩

/-- A relation to the new event that every combination has, and that later
combinations keep, holds to every event that waits. -/
theorem bound (h : Accumulates event taken combine value) {R : β → β → Prop}
    (hnew : ∀ n b, event n = some b → R (combine (value n) b) b)
    (hold : ∀ n b a c, event n = some b → value n = some a → R a c →
      R (combine (value n) b) c) {b : β} {i n : Nat} (hwaits : Waits event taken b i n) :
    ∃ a, value n = some a ∧ R a b := by
  induction n with
  | zero => exact absurd hwaits.before (Nat.not_lt_zero i)
  | succ n ih =>
    obtain ⟨htaken, rfl | hbefore⟩ := hwaits.of_succ
    · exact ⟨_, h.add_some htaken hwaits.event, hnew i b hwaits.event⟩
    · obtain ⟨a, ha, hR⟩ := ih hbefore
      cases hevent : event n with
      | none => exact ⟨a, (h.add_none htaken hevent).trans ha, hR⟩
      | some c => exact ⟨_, h.add_some htaken hevent, hold n c a b hevent ha hR⟩

/-- Of events that come in order the first one is kept, and comes before all that wait. -/
theorem first_le [Preorder β] (h : Accumulates event taken (fun o b => o.getD b) value)
    (horder : ∀ i j b c, i ≤ j → event i = some b → event j = some c → b ≤ c)
    {b : β} {i n : Nat} (hwaits : Waits event taken b i n) :
    ∃ a, value n = some a ∧ a ≤ b := by
  apply h.bound (R := fun a b => a ≤ b)
  · intro n b hb
    cases hvalue : value n with
    | none => exact le_refl b
    | some a =>
      obtain ⟨i, horigin⟩ := h.origin getD_pick hvalue
      exact horder i n a b (Nat.le_of_lt horigin.before) horigin.event hb
  · intro n b a c _ ha hle
    rw [ha]
    exact hle
  · exact hwaits

end Accumulates

end DevRelay.Lib
