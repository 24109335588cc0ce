import Mathlib.Data.List.Infix
import Mathlib.Tactic.Common

/-!
# Fields behind a marker

A text is read from the left for a marker with a field of fixed width behind it, and goes on
behind the field.  What is found depends on where the marker occurs: in front of a field, in
it, or behind it.
-/

namespace DevRelay.Lib

variable {α : Type} (marker : List α) (width : Nat)

/-- The marker stands at this place, with room for a field behind it. -/
def OccursAt (text : List α) (i : Nat) : Prop :=
  marker <+: text.drop i ∧ i + (marker.length + width) ≤ text.length

instance [DecidableEq α] (text : List α) (i : Nat) : Decidable (OccursAt marker width text i) :=
  inferInstanceAs (Decidable (_ ∧ _))

/-- The fields, from the left. -/
def markedFields [DecidableEq α] (text : List α) : List (List α) :=
  match text with
  | [] => []
  | c :: rest =>
    if OccursAt marker width (c :: rest) 0 then
      ((c :: rest).drop marker.length).take width ::
        markedFields (rest.drop (marker.length + width - 1))
    else markedFields rest
termination_by text.length
decreasing_by
  · simp only [List.length_drop, List.length_cons]
    omega
  · simp only [List.length_cons]
    omega

/-- The field stands behind the first occurrence of the marker, and behind the field the marker
does not occur again. -/
def SoleField (text field : List α) : Prop :=
  ∃ before after, text = before ++ (marker ++ field) ++ after ∧ field.length = width ∧
    (∀ i < before.length, ¬OccursAt marker width text i) ∧
      ∀ i, before.length + (marker.length + width) ≤ i → ¬OccursAt marker width text i

variable {marker width}

/-! ## Occurrences -/

theorem occursAt_drop {text : List α} {n i : Nat} :
    OccursAt marker width (text.drop n) i ↔ OccursAt marker width text (n + i) ∨
      OccursAt marker width (text.drop n) i ∧ text.length < n := by
  unfold OccursAt
  rw [List.drop_drop, List.length_drop]
  constructor
  · rintro ⟨hmarker, hroom⟩
    by_cases hlong : text.length < n
    · exact Or.inr ⟨⟨hmarker, hroom⟩, hlong⟩
    · exact Or.inl ⟨hmarker, by omega⟩
  · rintro (⟨hmarker, hroom⟩ | ⟨h, -⟩)
    · exact ⟨hmarker, by omega⟩
    · exact h

theorem occursAt_drop_of_le {text : List α} {n i : Nat} (h : n ≤ text.length) :
    OccursAt marker width (text.drop n) i ↔ OccursAt marker width text (n + i) := by
  rw [occursAt_drop]
  constructor
  · rintro (h' | ⟨-, hlong⟩)
    · exact h'
    · omega
  · exact Or.inl

theorem occursAt_cons {c : α} {rest : List α} {i : Nat} :
    OccursAt marker width (c :: rest) (i + 1) ↔ OccursAt marker width rest i := by
  have hone : 1 ≤ (c :: rest).length := by
    rw [List.length_cons]
    omega
  have hdrop : OccursAt marker width ((c :: rest).drop 1) i ↔
      OccursAt marker width (c :: rest) (1 + i) := occursAt_drop_of_le hone
  rw [List.drop_one, List.tail_cons, Nat.add_comm 1 i] at hdrop
  exact hdrop.symm

theorem not_occursAt_nil (hpos : 0 < marker.length + width) (i : Nat) :
    ¬OccursAt marker width ([] : List α) i := by
  rintro ⟨-, hroom⟩
  simp only [List.length_nil] at hroom
  omega

/-- Behind a place where the marker does not stand any more. -/
theorem not_occursAt_of_notInfix {text : List α} {n i : Nat} (h : ¬marker <:+: text.drop n)
    (hi : n ≤ i) : ¬OccursAt marker width text i := by
  rintro ⟨hmarker, -⟩
  rw [← Nat.add_sub_cancel' hi, ← List.drop_drop] at hmarker
  exact h (hmarker.isInfix.trans (List.drop_suffix _ _).isInfix)

/-- A field at the front of a text. -/
theorem eq_append_of_occursAt {text : List α} (h : OccursAt marker width text 0) :
    text = marker ++ (text.drop marker.length).take width ++
      text.drop (marker.length + width) := by
  obtain ⟨⟨rest, hrest⟩, -⟩ := h
  rw [List.drop_zero] at hrest
  have hfield : text.drop marker.length = rest := by
    rw [← hrest, List.drop_left]
  rw [← List.drop_drop, hfield, List.append_assoc, List.take_append_drop, hrest]

/-! ## What is read -/

section Read

variable [DecidableEq α]

theorem markedFields_of_occursAt (hpos : 0 < marker.length + width) {text : List α}
    (h : OccursAt marker width text 0) :
    markedFields marker width text = (text.drop marker.length).take width ::
      markedFields marker width (text.drop (marker.length + width)) := by
  cases text with
  | nil => exact absurd h (not_occursAt_nil hpos 0)
  | cons c rest =>
    rw [markedFields, if_pos h]
    obtain ⟨n, hn⟩ : ∃ n, marker.length + width = n + 1 := ⟨_, (Nat.sub_add_cancel hpos).symm⟩
    rw [hn, List.drop_succ_cons, Nat.add_sub_cancel]

theorem markedFields_of_not_occursAt {c : α} {rest : List α}
    (h : ¬OccursAt marker width (c :: rest) 0) :
    markedFields marker width (c :: rest) = markedFields marker width rest := by
  rw [markedFields, if_neg h]

theorem markedFields_eq_nil_iff (hpos : 0 < marker.length + width) {text : List α} :
    markedFields marker width text = [] ↔ ∀ i, ¬OccursAt marker width text i := by
  induction text with
  | nil =>
    rw [markedFields]
    exact iff_of_true rfl (not_occursAt_nil hpos)
  | cons c rest ih =>
    by_cases hhere : OccursAt marker width (c :: rest) 0
    · rw [markedFields_of_occursAt hpos hhere]
      exact iff_of_false (List.cons_ne_nil _ _) fun h => h 0 hhere
    · rw [markedFields_of_not_occursAt hhere, ih]
      constructor
      · intro h i
        cases i with
        | zero => exact hhere
        | succ i => exact fun hi => h i (occursAt_cons.mp hi)
      · exact fun h i hi => h (i + 1) (occursAt_cons.mpr hi)

/-- Exactly one field is read when it is the sole one. -/
theorem markedFields_eq_singleton_iff (hpos : 0 < marker.length + width) {text field : List α} :
    markedFields marker width text = [field] ↔ SoleField marker width text field := by
  induction text with
  | nil =>
    rw [markedFields]
    refine iff_of_false (by rintro ⟨⟩) ?_
    rintro ⟨before, after, heq, hfield, -, -⟩
    have hlength := congrArg List.length heq
    simp only [List.length_nil, List.length_append] at hlength
    omega
  | cons c rest ih =>
    by_cases hhere : OccursAt marker width (c :: rest) 0
    · rw [markedFields_of_occursAt hpos hhere, List.cons.injEq, markedFields_eq_nil_iff hpos]
      have hroom : marker.length + width ≤ (c :: rest).length := by
        have h := hhere.2
        omega
      constructor
      · rintro ⟨rfl, hafter⟩
        refine ⟨[], (c :: rest).drop (marker.length + width), eq_append_of_occursAt hhere, ?_,
          fun i hi => absurd hi (Nat.not_lt_zero i), fun i hi => ?_⟩
        · rw [List.length_take, List.length_drop]
          omega
        · intro hoccurs
          apply hafter (i - (marker.length + width))
          rw [occursAt_drop_of_le hroom]
          rw [List.length_nil, Nat.zero_add] at hi
          rw [Nat.add_sub_cancel' hi]
          exact hoccurs
      · rintro ⟨before, after, heq, hfield, hfirst, hlater⟩
        have hbefore : before = [] := by
          by_contra hne
          exact hfirst 0 (List.length_pos_iff.mpr hne) hhere
        subst hbefore
        rw [List.nil_append] at heq
        constructor
        · rw [heq, List.append_assoc, List.drop_left, List.take_left' hfield]
        · intro i hoccurs
          rw [occursAt_drop_of_le hroom] at hoccurs
          exact hlater _ (by rw [List.length_nil]; omega) hoccurs
    · rw [markedFields_of_not_occursAt hhere, ih]
      constructor
      · rintro ⟨before, after, heq, hfield, hfirst, hlater⟩
        refine ⟨c :: before, after, by rw [heq]; rfl, hfield, fun i hi => ?_, fun i hi => ?_⟩
        · cases i with
          | zero => exact hhere
          | succ i =>
            rw [occursAt_cons]
            exact hfirst i (Nat.lt_of_succ_lt_succ hi)
        · rw [List.length_cons] at hi
          obtain ⟨j, rfl⟩ : ∃ j, i = j + 1 := ⟨i - 1, by omega⟩
          rw [occursAt_cons]
          exact hlater j (by omega)
      · rintro ⟨before, after, heq, hfield, hfirst, hlater⟩
        cases before with
        | nil =>
          exfalso
          apply hhere
          rw [heq]
          constructor
          · rw [List.nil_append, List.drop_zero, List.append_assoc]
            exact List.prefix_append _ _
          · simp only [List.nil_append, List.length_append]
            omega
        | cons b before =>
          rw [List.cons_append, List.cons_append, List.cons.injEq] at heq
          obtain ⟨rfl, heq⟩ := heq
          refine ⟨before, after, heq, hfield, fun i hi => ?_, fun i hi => ?_⟩
          · rw [← occursAt_cons]
            exact hfirst (i + 1) (Nat.succ_lt_succ hi)
          · rw [← occursAt_cons]
            exact hlater (i + 1) (by rw [List.length_cons]; omega)

end Read

/-! ## Where a field is the sole one -/

/-- No proper suffix of the marker begins it. -/
def Unbordered (marker : List α) : Prop :=
  ∀ k < marker.length, 0 < k → ¬marker.drop k <+: marker

instance [DecidableEq α] : Decidable (Unbordered marker) := inferInstanceAs (Decidable (∀ k < _, _))

/-- A marker that is nowhere around the field marks it alone. -/
theorem soleField_of_notInfix {before after field : List α} (hunbordered : Unbordered marker)
    (hfield : field.length = width) (hbefore : ¬marker <:+: before) (hafter : ¬marker <:+: after) :
    SoleField marker width (before ++ (marker ++ field) ++ after) field := by
  refine ⟨before, after, rfl, hfield, fun i hi hoccurs => ?_, fun i hi hoccurs => ?_⟩
  · obtain ⟨hmarker, -⟩ := hoccurs
    rw [List.append_assoc, List.drop_append_of_le_length (Nat.le_of_lt hi), List.append_assoc]
      at hmarker
    by_cases hinside : marker.length ≤ (before.drop i).length
    · apply hbefore
      have hshort := List.prefix_of_prefix_length_le hmarker (List.prefix_append _ _) hinside
      exact hshort.isInfix.trans (List.drop_suffix i before).isInfix
    · -- the marker would overlap the one of the field
      have hoverlap : marker.drop (before.drop i).length <+: marker := by
        have hrest := hmarker.drop (before.drop i).length
        rw [List.drop_left] at hrest
        exact List.prefix_of_prefix_length_le hrest (List.prefix_append _ _)
          (by rw [List.length_drop]; omega)
      rw [List.length_drop] at hoverlap hinside
      exact hunbordered (before.length - i) (by omega) (by omega) hoverlap
  · obtain ⟨hmarker, -⟩ := hoccurs
    have hlength : (before ++ (marker ++ field)).length ≤ i := by
      simp only [List.length_append]
      omega
    rw [List.drop_append, List.drop_eq_nil_of_le hlength, List.nil_append] at hmarker
    exact hafter (hmarker.isInfix.trans (List.drop_suffix _ after).isInfix)

end DevRelay.Lib
