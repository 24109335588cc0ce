import Mathlib.Data.List.Basic
import Mathlib.Data.List.MinMax
import Mathlib.Data.List.Pairwise
import Mathlib.Order.Defs.LinearOrder
import Mathlib.Tactic.Common

/-!
# Ordered maps

A map that is iterated in the order of its keys: the entries are stored with
strictly increasing keys.
-/

namespace DevRelay.Lib

structure SortedMap (κ α : Type) [LT κ] where
  entries : List (κ × α)
  sorted : entries.Pairwise fun a b => a.1 < b.1
  deriving DecidableEq

namespace SortedMap

variable {κ α : Type} [LT κ]

def empty : SortedMap κ α := ⟨[], List.Pairwise.nil⟩

def singleton (k : κ) (v : α) : SortedMap κ α := ⟨[(k, v)], List.pairwise_singleton _ _⟩

def containsKey [DecidableEq κ] (m : SortedMap κ α) (k : κ) : Bool :=
  m.entries.any fun entry => entry.1 = k

@[simp] theorem entries_empty : (empty : SortedMap κ α).entries = [] := rfl

@[simp] theorem entries_singleton (k : κ) (v : α) : (singleton k v).entries = [(k, v)] := rfl

/-- A map with an entry holds some key. -/
theorem entries_ne_nil_of_containsKey [DecidableEq κ] {m : SortedMap κ α} {k : κ}
    (h : m.containsKey k = true) : m.entries ≠ [] := by
  intro hnil
  rw [containsKey, hnil] at h
  cases h

/-! ## Lookup and insertion -/

section ordered

variable {κ α : Type} [LinearOrder κ]

/-- The value under a key. -/
def find? (m : SortedMap κ α) (k : κ) : Option α := m.entries.lookup k

/-- Put a value in its place among sorted entries, over the one under the same key. -/
def insertEntry (k : κ) (v : α) : List (κ × α) → List (κ × α)
  | [] => [(k, v)]
  | (k', v') :: rest =>
    if k < k' then (k, v) :: (k', v') :: rest
    else if k = k' then (k, v) :: rest
    else (k', v') :: insertEntry k v rest

theorem mem_insertEntry {k : κ} {v : α} {entry : κ × α} {entries : List (κ × α)}
    (h : entry ∈ insertEntry k v entries) : entry = (k, v) ∨ entry ∈ entries := by
  induction entries with
  | nil => exact Or.inl (List.mem_singleton.mp h)
  | cons first rest ih =>
    rw [insertEntry] at h
    split_ifs at h with hlt heq
    · exact List.mem_cons.mp h
    · rcases List.mem_cons.mp h with hnew | hrest
      · exact Or.inl hnew
      · exact Or.inr (List.mem_cons_of_mem _ hrest)
    · rcases List.mem_cons.mp h with hfirst | hrest
      · exact Or.inr (List.mem_cons.mpr (Or.inl hfirst))
      · exact (ih hrest).imp_right (List.mem_cons_of_mem _)

theorem sorted_insertEntry {k : κ} {v : α} {entries : List (κ × α)}
    (h : entries.Pairwise fun a b => a.1 < b.1) :
    (insertEntry k v entries).Pairwise fun a b => a.1 < b.1 := by
  induction entries with
  | nil => exact List.pairwise_singleton _ _
  | cons first rest ih =>
    have hfirst := (List.pairwise_cons.mp h).1
    have hrest := (List.pairwise_cons.mp h).2
    rw [insertEntry]
    split_ifs with hlt heq
    · refine List.pairwise_cons.mpr ⟨?_, h⟩
      intro entry hentry
      rcases List.mem_cons.mp hentry with heq | hmem
      · rw [heq]
        exact hlt
      · exact lt_trans hlt (hfirst entry hmem)
    · refine List.pairwise_cons.mpr ⟨?_, hrest⟩
      intro entry hentry
      rw [heq]
      exact hfirst entry hentry
    · refine List.pairwise_cons.mpr ⟨?_, ih hrest⟩
      intro entry hentry
      rcases mem_insertEntry hentry with hnew | hmem
      · rw [hnew]
        exact lt_of_le_of_ne (not_lt.mp hlt) (Ne.symm heq)
      · exact hfirst entry hmem

def insert (m : SortedMap κ α) (k : κ) (v : α) : SortedMap κ α :=
  ⟨insertEntry k v m.entries, sorted_insertEntry m.sorted⟩

/-- Change the value under a key in place; a key that is not there starts from `default`. -/
def modify (m : SortedMap κ α) (k : κ) (default : α) (f : α → α) : SortedMap κ α :=
  m.insert k (f ((m.find? k).getD default))

def keys (m : SortedMap κ α) : List κ := m.entries.map Prod.fst

def values (m : SortedMap κ α) : List α := m.entries.map Prod.snd

theorem nodup_keys (m : SortedMap κ α) : m.keys.Nodup :=
  List.pairwise_map.mpr (m.sorted.imp fun h => ne_of_lt h)

theorem find?_eq_none_of_not_mem_keys {m : SortedMap κ α} {k : κ} (h : k ∉ m.keys) :
    m.find? k = none := by
  rw [find?, List.lookup_eq_none_iff]
  intro entry hentry
  rw [bne_iff_ne]
  rintro rfl
  exact h (List.mem_map_of_mem hentry)

@[simp] theorem find?_empty (k : κ) : (empty : SortedMap κ α).find? k = none := rfl

theorem lookup_cons_eq (k : κ) (entry : κ × α) (rest : List (κ × α)) :
    (entry :: rest).lookup k = if k = entry.1 then some entry.2 else rest.lookup k := by
  have hlookup : (entry :: rest).lookup k =
      match k == entry.1 with
      | true => some entry.2
      | false => rest.lookup k := List.lookup_cons
  rw [hlookup]
  by_cases h : k = entry.1
  · simp [h]
  · rw [if_neg h, beq_false_of_ne h]

theorem lookup_insertEntry (k k' : κ) (v : α) (entries : List (κ × α)) :
    (insertEntry k v entries).lookup k' = if k' = k then some v else entries.lookup k' := by
  induction entries with
  | nil => rw [insertEntry, lookup_cons_eq]
  | cons first rest ih =>
    rw [insertEntry]
    by_cases hlt : k < first.1
    · rw [if_pos hlt, lookup_cons_eq]
    · rw [if_neg hlt]
      by_cases heq : k = first.1
      · rw [if_pos heq, lookup_cons_eq, lookup_cons_eq, ← heq]
        split_ifs with hself
        · rfl
        · rfl
      · rw [if_neg heq, lookup_cons_eq, lookup_cons_eq, ih]
        split_ifs with hfirst hself
        · exact absurd (hself.symm.trans hfirst) heq
        · rfl
        · rfl
        · rfl

theorem find?_insert (m : SortedMap κ α) (k k' : κ) (v : α) :
    (m.insert k v).find? k' = if k' = k then some v else m.find? k' :=
  lookup_insertEntry k k' v m.entries

@[simp] theorem find?_insert_self (m : SortedMap κ α) (k : κ) (v : α) :
    (m.insert k v).find? k = some v := by
  rw [find?_insert, if_pos rfl]

theorem find?_insert_of_ne {m : SortedMap κ α} {k k' : κ} {v : α} (h : k' ≠ k) :
    (m.insert k v).find? k' = m.find? k' := by
  rw [find?_insert, if_neg h]

theorem find?_modify_self (m : SortedMap κ α) (k : κ) (default : α) (f : α → α) :
    (m.modify k default f).find? k = some (f ((m.find? k).getD default)) :=
  find?_insert_self m k _

theorem find?_modify_of_ne {m : SortedMap κ α} {k k' : κ} {default : α} {f : α → α}
    (h : k' ≠ k) : (m.modify k default f).find? k' = m.find? k' :=
  find?_insert_of_ne h

/-- Insertion keeps what holds of every entry, if it holds of the new one. -/
theorem forall_entries_insert {P : κ × α → Prop} {m : SortedMap κ α} {k : κ} {v : α}
    (hm : ∀ entry ∈ m.entries, P entry) (hnew : P (k, v)) :
    ∀ entry ∈ (m.insert k v).entries, P entry := by
  intro entry hentry
  rcases mem_insertEntry hentry with heq | hmem
  · rw [heq]
    exact hnew
  · exact hm entry hmem

theorem mem_entries_of_find? {m : SortedMap κ α} {k : κ} {v : α} (h : m.find? k = some v) :
    (k, v) ∈ m.entries := by
  obtain ⟨before, after, hentries, -⟩ := List.lookup_eq_some_iff.mp h
  rw [hentries]
  exact List.mem_append_right before (List.mem_cons_self ..)

theorem lookup_eq_none_of_lt {k : κ} {entries : List (κ × α)}
    (h : ∀ entry ∈ entries, k < entry.1) : entries.lookup k = none := by
  induction entries with
  | nil => rfl
  | cons first rest ih =>
    have hne : k ≠ first.1 := ne_of_lt (h first List.mem_cons_self)
    rw [lookup_cons_eq, if_neg hne]
    exact ih fun entry hentry => h entry (List.mem_cons_of_mem _ hentry)

theorem mem_entries {m : SortedMap κ α} {k : κ} {v : α} :
    (k, v) ∈ m.entries ↔ m.find? k = some v := by
  refine ⟨?_, mem_entries_of_find?⟩
  obtain ⟨entries, hsorted⟩ := m
  change (k, v) ∈ entries → entries.lookup k = some v
  induction entries with
  | nil =>
    intro h
    cases h
  | cons first rest ih =>
    intro h
    have hfirst := (List.pairwise_cons.mp hsorted).1
    rw [lookup_cons_eq]
    rcases List.mem_cons.mp h with heq | hmem
    · rw [← heq, if_pos rfl]
    · rw [if_neg (ne_of_gt (hfirst _ hmem))]
      exact ih (List.pairwise_cons.mp hsorted).2 hmem

theorem mem_keys {m : SortedMap κ α} {k : κ} : k ∈ m.keys ↔ (m.find? k).isSome := by
  unfold keys
  rw [List.mem_map, Option.isSome_iff_exists]
  constructor
  · rintro ⟨entry, hentry, rfl⟩
    exact ⟨entry.2, mem_entries.mp hentry⟩
  · rintro ⟨v, hv⟩
    exact ⟨(k, v), mem_entries.mpr hv, rfl⟩

/-- Maps with the same values under all keys are equal. -/
theorem ext {m n : SortedMap κ α} (h : ∀ k, m.find? k = n.find? k) : m = n := by
  have hnodup : ∀ t : SortedMap κ α, t.entries.Nodup := by
    intro t
    apply t.sorted.imp
    intro a b hlt heq
    rw [heq] at hlt
    exact lt_irrefl _ hlt
  have hperm : m.entries.Perm n.entries := by
    apply (List.perm_ext_iff_of_nodup (hnodup m) (hnodup n)).mpr
    intro entry
    rw [mem_entries, mem_entries, h]
  have hentries : m.entries = n.entries := by
    apply hperm.eq_of_pairwise ?_ m.sorted n.sorted
    intro a b _ _ hab hba
    exact absurd (lt_trans hab hba) (lt_irrefl _)
  cases m
  cases n
  cases hentries
  rfl

/-! ## Groups -/

/-- The values under each key, in the order in which they came. -/
def groupBy {β : Type} (keyFor : β → κ) (value : β → α) (items : List β) : SortedMap κ (List α) :=
  items.foldl (fun groups item =>
    groups.modify (keyFor item) [] fun group => group ++ [value item]) empty

theorem find?_groupBy {β : Type} (keyFor : β → κ) (value : β → α) (items : List β) (k : κ) :
    (groupBy keyFor value items).find? k =
      if items.filter (fun item => keyFor item = k) = [] then none
      else some ((items.filter fun item => keyFor item = k).map value) := by
  suffices h : ∀ (before : List β) (groups : SortedMap κ (List α)),
      (∀ k, groups.find? k = if before.filter (fun item => keyFor item = k) = [] then none
        else some ((before.filter fun item => keyFor item = k).map value)) →
      (items.foldl (fun groups item =>
        groups.modify (keyFor item) [] fun group => group ++ [value item]) groups).find? k =
        if (before ++ items).filter (fun item => keyFor item = k) = [] then none
        else some (((before ++ items).filter fun item => keyFor item = k).map value) by
    exact h [] empty (fun _ => rfl)
  induction items with
  | nil =>
    intro before groups hgroups
    rw [List.append_nil]
    exact hgroups k
  | cons item rest ih =>
    intro before groups hgroups
    rw [List.foldl_cons, show before ++ item :: rest = (before ++ [item]) ++ rest by simp]
    apply ih (before ++ [item])
    intro k'
    rw [List.filter_append]
    by_cases hk : keyFor item = k'
    · subst hk
      rw [find?_modify_self, hgroups]
      by_cases hempty : before.filter (fun other => keyFor other = keyFor item) = []
      · simp [hempty]
      · simp [hempty]
    · rw [find?_modify_of_ne (fun h => hk h.symm), hgroups]
      simp [hk]

/-! ## Selecting and covering -/

/-- The entries that `f` keeps, with the values it gives them. -/
def filterMap {β : Type} (m : SortedMap κ α) (f : κ → α → Option β) : SortedMap κ β where
  entries := m.entries.filterMap fun entry => (f entry.1 entry.2).map (Prod.mk entry.1)
  sorted := by
    rw [List.pairwise_filterMap]
    apply m.sorted.imp
    intro a b hlt x hx y hy
    obtain ⟨_, -, rfl⟩ := Option.map_eq_some_iff.mp hx
    obtain ⟨_, -, rfl⟩ := Option.map_eq_some_iff.mp hy
    exact hlt

theorem find?_filterMap {β : Type} (m : SortedMap κ α) (f : κ → α → Option β) (k : κ) :
    (m.filterMap f).find? k = (m.find? k).bind (f k) := by
  obtain ⟨entries, hsorted⟩ := m
  change (entries.filterMap fun entry => (f entry.1 entry.2).map (Prod.mk entry.1)).lookup k =
    (entries.lookup k).bind (f k)
  induction entries with
  | nil => rfl
  | cons first rest ih =>
    obtain ⟨hfirst, hrest⟩ := List.pairwise_cons.mp hsorted
    rw [lookup_cons_eq]
    by_cases hk : k = first.1
    · have hnone : rest.lookup k = none := by
        apply lookup_eq_none_of_lt
        rw [hk]
        exact hfirst
      rw [if_pos hk, Option.bind_some, List.filterMap_cons]
      cases hf : f first.1 first.2 with
      | none =>
        simp only [Option.map_none]
        rw [ih hrest, hnone, hk, hf]
        rfl
      | some w =>
        simp only [Option.map_some]
        rw [lookup_cons_eq, if_pos hk, hk, hf]
    · rw [if_neg hk, List.filterMap_cons]
      cases hf : f first.1 first.2 with
      | none =>
        simp only [Option.map_none]
        exact ih hrest
      | some w =>
        simp only [Option.map_some]
        rw [lookup_cons_eq, if_neg hk]
        exact ih hrest

def remove (m : SortedMap κ α) (k : κ) : SortedMap κ α :=
  m.filterMap fun k' v => if k' = k then none else some v

theorem find?_remove (m : SortedMap κ α) (k k' : κ) :
    (m.remove k).find? k' = if k' = k then none else m.find? k' := by
  rw [remove, find?_filterMap]
  by_cases h : k' = k
  · simp [h]
  · simp [h]

/-- The entries of `m`, and those of `n` under the other keys. -/
def covering (m n : SortedMap κ α) : SortedMap κ α :=
  m.entries.foldl (fun acc entry => acc.insert entry.1 entry.2) n

theorem find?_covering (m n : SortedMap κ α) (k : κ) :
    (m.covering n).find? k = (m.find? k).or (n.find? k) := by
  obtain ⟨entries, hsorted⟩ := m
  change (entries.foldl (fun acc entry => acc.insert entry.1 entry.2) n).find? k =
    (entries.lookup k).or (n.find? k)
  induction entries generalizing n with
  | nil => rfl
  | cons first rest ih =>
    obtain ⟨hfirst, hrest⟩ := List.pairwise_cons.mp hsorted
    rw [List.foldl_cons, ih _ hrest, lookup_cons_eq, find?_insert]
    by_cases hk : k = first.1
    · have hnone : rest.lookup k = none := by
        apply lookup_eq_none_of_lt
        rw [hk]
        exact hfirst
      rw [if_pos hk, if_pos hk, hnone]
      rfl
    · rw [if_neg hk, if_neg hk]

end ordered

end SortedMap

/-- The maximum that `argmax` finds stands before every other maximum. -/
theorem argmax_first {α β : Type} [LinearOrder β] {f : α → β} {r : α → α → Prop} {l : List α}
    (hl : l.Pairwise r) {best a : α} (hbest : best ∈ l.argmax f) (ha : a ∈ l) :
    f a < f best ∨ (f a = f best ∧ (best = a ∨ r best a)) := by
  classical
  obtain ⟨hmem, hmax, hfirst⟩ := List.mem_argmax_iff.mp hbest
  rcases lt_or_eq_of_le (hmax a ha) with hlt | heq
  · exact Or.inl hlt
  · refine Or.inr ⟨heq, ?_⟩
    rcases Nat.lt_or_eq_of_le (hfirst a ha heq.ge) with hbefore | hsame
    · have hpair := List.pairwise_iff_getElem.mp hl _ _
        (List.idxOf_lt_length_of_mem hmem) (List.idxOf_lt_length_of_mem ha) hbefore
      rw [List.getElem_idxOf, List.getElem_idxOf] at hpair
      exact Or.inr hpair
    · exact Or.inl ((List.idxOf_inj hmem).mp hsame)

end DevRelay.Lib
