import Mathlib.Data.List.Count

/-!
# Counting after a rewriting

A rewriting that keeps a property wherever it held, and brings it to a row that
did not have it, raises the number of rows that have it.
-/

namespace DevRelay.Lib

variable {α : Type}

theorem countP_le_countP_map {p : α → Bool} {f : α → α} {rows : List α}
    (hkeep : ∀ r ∈ rows, p r = true → p (f r) = true) :
    rows.countP p ≤ (rows.map f).countP p := by
  rw [List.countP_map]
  exact List.countP_mono_left hkeep

theorem countP_lt_countP_map {p : α → Bool} {f : α → α} {rows : List α}
    (hkeep : ∀ r ∈ rows, p r = true → p (f r) = true) {x : α} (hx : x ∈ rows)
    (hbefore : p x = false) (hafter : p (f x) = true) :
    rows.countP p < (rows.map f).countP p := by
  obtain ⟨front, back, rfl⟩ := List.append_of_mem hx
  have hfront := countP_le_countP_map fun r hr => hkeep r (List.mem_append_left _ hr)
  have hback := countP_le_countP_map fun r hr =>
    hkeep r (List.mem_append_right front (List.mem_cons_of_mem x hr))
  rw [List.map_append, List.map_cons, List.countP_append, List.countP_append,
    List.countP_cons_of_neg (by simp [hbefore]), List.countP_cons_of_pos hafter]
  omega

end DevRelay.Lib
