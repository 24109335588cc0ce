import Mathlib.Data.List.Basic
import Mathlib.Data.List.Nodup
import Mathlib.Data.List.Count

/-!
# Keyed tables

A table holds rows in insertion order.  Its primary key is a function of the
row, and no two rows have the same key: this is a field of the structure, so
an insertion has to be refused when the key is taken, and an update has to
leave the key alone.  Proofs about tables go through `lookup`.
-/

namespace DevRelay.Lib

/-- Rows with pairwise different keys. -/
@[ext]
structure Table {κ α : Type} (key : α → κ) where
  rows : List α
  nodup : (rows.map key).Nodup

namespace Table

variable {κ α : Type} {key : α → κ}

instance [DecidableEq α] : DecidableEq (Table key) := fun t u =>
  decidable_of_iff (t.rows = u.rows) (by cases t; cases u; simp)

instance : Membership α (Table key) := ⟨fun t r => r ∈ t.rows⟩

theorem mem_def {t : Table key} {r : α} : r ∈ t ↔ r ∈ t.rows := Iff.rfl

instance [DecidableEq α] (r : α) (t : Table key) : Decidable (r ∈ t) :=
  inferInstanceAs (Decidable (r ∈ t.rows))

def empty : Table key := ⟨[], List.nodup_nil⟩

@[simp] theorem not_mem_empty (r : α) : r ∉ (empty : Table key) := List.not_mem_nil

/-- Rewrite the rows that satisfy `p`. -/
def updateWhere (t : Table key) (p : α → Bool) (f : α → α)
    (hf : ∀ r, key (f r) = key r) : Table key :=
  ⟨t.rows.map fun r => if p r then f r else r, by
    have hkeys : (t.rows.map fun r => if p r then f r else r).map key = t.rows.map key := by
      rw [List.map_map]
      refine List.map_congr_left fun r _ => ?_
      by_cases hp : p r <;> simp [hp, hf]
    rw [hkeys]
    exact t.nodup⟩

/-- The number of rows an update with condition `p` changes. -/
def countWhere (t : Table key) (p : α → Bool) : Nat := t.rows.countP p

/-- Remove the rows that satisfy `p`. -/
def deleteWhere (t : Table key) (p : α → Bool) : Table key :=
  ⟨t.rows.filter fun r => !p r, (List.Nodup.of_map key t.nodup).filter _ |>.map_on
    fun _ hx _ hy h => List.inj_on_of_nodup_map t.nodup
      (List.mem_filter.mp hx).1 (List.mem_filter.mp hy).1 h⟩

theorem mem_deleteWhere {t : Table key} {p : α → Bool} {x : α} :
    x ∈ t.deleteWhere p ↔ x ∈ t ∧ p x = false := by
  simp [mem_def, deleteWhere]

/-! ## Access by primary key -/

variable [DecidableEq κ]

/-- The row with primary key `k`. -/
def lookup (t : Table key) (k : κ) : Option α := t.rows.find? fun r => key r = k

/-- Append a row, unless its primary key is taken. -/
def insert? (t : Table key) (r : α) : Option (Table key) :=
  if h : key r ∈ t.rows.map key then none
  else some ⟨t.rows ++ [r], by
    rw [List.map_append]
    exact List.Nodup.append t.nodup (List.nodup_singleton _)
      (by simpa [List.disjoint_singleton] using h)⟩

theorem lookup_eq_some {t : Table key} {k : κ} {r : α} :
    t.lookup k = some r ↔ r ∈ t ∧ key r = k := by
  constructor
  · intro h
    exact ⟨List.mem_of_find?_eq_some h, by simpa using List.find?_some h⟩
  · rintro ⟨hmem, rfl⟩
    unfold lookup
    cases hfind : t.rows.find? fun x => key x = key r with
    | none =>
      have := List.find?_eq_none.mp hfind r hmem
      simp at this
    | some x =>
      have hx : key x = key r := by simpa using List.find?_some hfind
      rw [List.inj_on_of_nodup_map t.nodup (List.mem_of_find?_eq_some hfind) hmem hx]

theorem lookup_key {t : Table key} {k : κ} {r : α} (h : t.lookup k = some r) :
    key r = k := (lookup_eq_some.mp h).2

theorem mem_of_lookup {t : Table key} {k : κ} {r : α} (h : t.lookup k = some r) :
    r ∈ t := (lookup_eq_some.mp h).1

theorem lookup_of_mem {t : Table key} {r : α} (h : r ∈ t) :
    t.lookup (key r) = some r := lookup_eq_some.mpr ⟨h, rfl⟩

theorem lookup_eq_none {t : Table key} {k : κ} : t.lookup k = none ↔ ∀ r ∈ t, key r ≠ k := by
  simp [lookup, List.find?_eq_none, mem_def]

@[simp] theorem lookup_empty (k : κ) : (empty : Table key).lookup k = none := rfl

theorem insert?_eq_some {t u : Table key} {r : α} :
    t.insert? r = some u ↔ t.lookup (key r) = none ∧ u.rows = t.rows ++ [r] := by
  unfold insert?
  split
  · rename_i h
    obtain ⟨x, hx, hkey⟩ := List.mem_map.mp h
    simp only [reduceCtorEq, false_iff, not_and]
    intro hnone
    exact absurd hkey (lookup_eq_none.mp hnone x hx)
  · rename_i h
    have hnone : t.lookup (key r) = none := by
      rw [lookup_eq_none]
      intro x hx hkey
      exact h (List.mem_map.mpr ⟨x, hx, hkey⟩)
    cases u
    simp [hnone, eq_comm]

theorem insert?_isSome {t : Table key} {r : α} (h : t.lookup (key r) = none) :
    ∃ u, t.insert? r = some u := by
  unfold insert?
  split
  · rename_i hmem
    obtain ⟨x, hx, hkey⟩ := List.mem_map.mp hmem
    exact absurd hkey (lookup_eq_none.mp h x hx)
  · exact ⟨_, rfl⟩

theorem mem_insert? {t u : Table key} {r x : α} (h : t.insert? r = some u) :
    x ∈ u ↔ x ∈ t ∨ x = r := by
  simp [mem_def, (insert?_eq_some.mp h).2]

theorem lookup_insert? {t u : Table key} {r : α} (h : t.insert? r = some u) (k : κ) :
    u.lookup k = if key r = k then some r else t.lookup k := by
  obtain ⟨hnone, hrows⟩ := insert?_eq_some.mp h
  split
  · rename_i hkey
    subst hkey
    exact lookup_of_mem ((mem_insert? h).mpr (Or.inr rfl))
  · rename_i hkey
    unfold lookup
    rw [hrows, List.find?_append]
    simp [hkey]

@[simp] theorem lookup_updateWhere (t : Table key) (p : α → Bool) (f : α → α)
    (hf : ∀ r, key (f r) = key r) (k : κ) :
    (t.updateWhere p f hf).lookup k = (t.lookup k).map fun r => if p r then f r else r := by
  have hkeys : ((fun x => decide (key x = k)) ∘ fun r => if p r then f r else r) =
      fun x => decide (key x = k) := by
    funext r
    by_cases hp : p r <;> simp [hp, hf]
  simp only [lookup, updateWhere, List.find?_map, hkeys]

/-- The same, for a table given by its rows. -/
theorem lookup_of_rows {t u : Table key} {p : α → Bool} {f : α → α} (hf : ∀ r, key (f r) = key r)
    (hrows : u.rows = t.rows.map fun r => if p r then f r else r) (k : κ) :
    u.lookup k = (t.lookup k).map fun r => if p r then f r else r := by
  have hu : u = t.updateWhere p f hf := Table.ext hrows
  rw [hu, lookup_updateWhere]

/-- An update that selects the row of one key leaves the others. -/
theorem lookup_updateWhere_of_ne {t : Table key} {p : α → Bool} {f : α → α}
    (hf : ∀ r, key (f r) = key r) {k k' : κ} (hp : ∀ r, p r = true → key r = k)
    (hne : k' ≠ k) : (t.updateWhere p f hf).lookup k' = t.lookup k' := by
  rw [lookup_updateWhere]
  cases hrow : t.lookup k' with
  | none => rfl
  | some r =>
    have hr : p r = false := by
      by_contra htrue
      exact hne ((lookup_key hrow).symm.trans (hp r (by simpa using htrue)))
    simp [hr]

/-- A column that an update does not write is what it was. -/
theorem map_lookup_updateWhere {β : Type} {t : Table key} {p : α → Bool} {f : α → α}
    (hf : ∀ r, key (f r) = key r) {column : α → β}
    (hcolumn : ∀ r, column (f r) = column r) (k : κ) :
    ((t.updateWhere p f hf).lookup k).map column = (t.lookup k).map column := by
  rw [lookup_updateWhere, Option.map_map]
  refine congrArg (fun g => (t.lookup k).map g) (funext fun r => ?_)
  by_cases hp : p r
  · simp [hp, hcolumn]
  · simp [hp]

/-- A condition that fixes the primary key selects at most one row. -/
theorem countWhere_of_key (t : Table key) (p : α → Bool) (k : κ)
    (hp : ∀ r, p r = true → key r = k) :
    t.countWhere p = if (t.lookup k).any p then 1 else 0 := by
  obtain ⟨rows, nodup⟩ := t
  change rows.countP p =
    if (rows.find? fun r => decide (key r = k)).any p then 1 else 0
  induction rows with
  | nil => rfl
  | cons r rows ih =>
    rw [List.map_cons, List.nodup_cons] at nodup
    by_cases hkey : key r = k
    · have hrest : rows.countP p = 0 := by
        rw [List.countP_eq_zero]
        intro x hx hpx
        exact nodup.1 (List.mem_map.mpr ⟨x, hx, (hp x hpx).trans hkey.symm⟩)
      simp [List.countP_cons, hkey, hrest]
    · have hpr : p r = false := by
        by_contra hne
        exact hkey (hp r (by simpa using hne))
      simp [hkey, hpr, ih nodup.2]

theorem lookup_deleteWhere (t : Table key) (p : α → Bool) (k : κ) :
    (t.deleteWhere p).lookup k = (t.lookup k).filter fun r => !p r := by
  ext r
  rw [lookup_eq_some, mem_deleteWhere, Option.filter_eq_some_iff, lookup_eq_some]
  simp only [Bool.not_eq_eq_eq_not, Bool.not_true]
  tauto

end Table

end DevRelay.Lib
