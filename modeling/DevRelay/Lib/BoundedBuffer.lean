import Mathlib.Data.List.Infix
import Mathlib.Tactic.Common
import Mathlib.Algebra.Ring.Nat

/-!
# Bounded buffers

A buffer of weighted entries that gives up its oldest ones while it weighs more than
its limit.  What it holds is the end of everything that was put into it, and its
running weight is the weight of what it holds.
-/

namespace DevRelay.Lib

variable {α : Type} (weight : α → Nat) (limit : Nat)

/-- The weight of a list of entries. -/
def weightOf (entries : List α) : Nat := (entries.map weight).sum

theorem weightOf_cons (a : α) (entries : List α) :
    weightOf weight (a :: entries) = weight a + weightOf weight entries := by
  rw [weightOf, List.map_cons, List.sum_cons, weightOf]

theorem weightOf_append (entries later : List α) :
    weightOf weight (entries ++ later) = weightOf weight entries + weightOf weight later := by
  rw [weightOf, List.map_append, List.sum_append, weightOf, weightOf]

/-- Give up the oldest entries while the running weight is over the limit. -/
def evict : List α → Nat → List α × Nat
  | [], total => ([], total)
  | a :: rest, total =>
    if limit < total then evict rest (total - weight a) else (a :: rest, total)

theorem evict_suffix (entries : List α) (total : Nat) :
    (evict weight limit entries total).1 <:+ entries := by
  induction entries generalizing total with
  | nil => exact List.suffix_refl []
  | cons a rest ih =>
    rw [evict]
    by_cases hover : limit < total
    · rw [if_pos hover]
      exact (ih (total - weight a)).trans (List.suffix_cons a rest)
    · rw [if_neg hover]

/-- What is kept has the weight that is counted, within the limit. -/
theorem evict_weight (entries : List α) :
    (evict weight limit entries (weightOf weight entries)).2 =
        weightOf weight (evict weight limit entries (weightOf weight entries)).1 ∧
      weightOf weight (evict weight limit entries (weightOf weight entries)).1 ≤ limit := by
  induction entries with
  | nil => exact ⟨rfl, Nat.zero_le limit⟩
  | cons a rest ih =>
    have hrest : weightOf weight (a :: rest) - weight a = weightOf weight rest := by
      rw [weightOf_cons]
      omega
    rw [evict, hrest]
    by_cases hover : limit < weightOf weight (a :: rest)
    · rw [if_pos hover]
      exact ih
    · rw [if_neg hover]
      exact ⟨rfl, Nat.le_of_not_lt hover⟩

/-- A buffer with its running weight. -/
structure Buffer (α : Type) where
  entries : List α
  total : Nat
  deriving DecidableEq, Repr

variable {weight limit}

/-- The buffer holds the end of a history, and its running weight is right and within the
limit. -/
structure Buffer.Holds (weight : α → Nat) (limit : Nat) (b : Buffer α) (history : List α) :
    Prop where
  suffix : b.entries <:+ history
  total : b.total = weightOf weight b.entries
  bounded : weightOf weight b.entries ≤ limit

def Buffer.empty : Buffer α := ⟨[], 0⟩

theorem Buffer.holds_empty : (Buffer.empty : Buffer α).Holds weight limit [] :=
  ⟨List.suffix_refl [], rfl, Nat.zero_le limit⟩

variable (weight limit) in
/-- Put an entry at the end. -/
def Buffer.push (b : Buffer α) (a : α) : Buffer α :=
  let kept := evict weight limit (b.entries ++ [a]) (b.total + weight a)
  ⟨kept.1, kept.2⟩

theorem Buffer.Holds.push {b : Buffer α} {history : List α} (h : b.Holds weight limit history)
    (a : α) : (b.push weight limit a).Holds weight limit (history ++ [a]) := by
  have htotal : b.total + weight a = weightOf weight (b.entries ++ [a]) := by
    rw [weightOf_append, h.total]
    rfl
  obtain ⟨older, holder⟩ := h.suffix
  have hsuffix : b.entries ++ [a] <:+ history ++ [a] := by
    rw [← holder, List.append_assoc]
    exact List.suffix_append older _
  unfold Buffer.push
  rw [htotal]
  obtain ⟨hweight, hlimit⟩ := evict_weight weight limit (b.entries ++ [a])
  exact ⟨(evict_suffix weight limit _ _).trans hsuffix, hweight, hlimit⟩

end DevRelay.Lib
