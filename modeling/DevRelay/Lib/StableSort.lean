import Mathlib.Data.List.Sort

/-!
# Sorting by a part of the entries

A stable sort leaves entries that the order does not tell apart as they came.  What is
written from the sorted list is independent of the order of the list exactly when the
codes of such entries commute.
-/

namespace DevRelay.Lib

variable {α β : Type} (le : α → α → Prop)

/-- Neither comes before the other. -/
def Tied (a b : α) : Prop := le a b ∧ le b a

/-- The codes of the sorted entries, one after the other. -/
def sortedCode [DecidableRel le] (code : α → List β) (xs : List α) : List β :=
  (xs.insertionSort le).flatMap code

variable {le} {code : α → List β}

/-- Tied entries go to the same place, the one that came first in front. -/
theorem orderedInsert_tied [DecidableRel le] [IsTrans α le] {a b : α} (h : Tied le a b)
    (xs : List α) :
    ∃ front back, (xs.orderedInsert le b).orderedInsert le a = front ++ a :: b :: back ∧
      (xs.orderedInsert le a).orderedInsert le b = front ++ b :: a :: back := by
  induction xs with
  | nil => exact ⟨[], [], by simp [h.1], by simp [h.2]⟩
  | cons x xs ih =>
    by_cases hx : le a x
    · have hbx : le b x := IsTrans.trans b a x h.2 hx
      exact ⟨[], x :: xs, by simp [hbx, h.1], by simp [hx, h.2]⟩
    · have hbx : ¬le b x := fun hle => hx (IsTrans.trans a b x h.1 hle)
      obtain ⟨front, back, ha, hb⟩ := ih
      refine ⟨x :: front, back, ?_, ?_⟩
      · rw [List.orderedInsert_of_not_le _ _ hbx, List.orderedInsert_of_not_le _ _ hx, ha]
        rfl
      · rw [List.orderedInsert_of_not_le _ _ hx, List.orderedInsert_of_not_le _ _ hbx, hb]
        rfl

/-- Two sorted lists of the same entries have the same code when tied entries commute. -/
theorem flatMap_eq_of_pairwise {xs ys : List α} (hperm : xs.Perm ys) (hxs : xs.Pairwise le)
    (hys : ys.Pairwise le)
    (hcomm : ∀ a ∈ xs, ∀ b ∈ xs, Tied le a b → code a ++ code b = code b ++ code a) :
    xs.flatMap code = ys.flatMap code := by
  induction xs generalizing ys with
  | nil => rw [List.nil_perm.mp hperm]
  | cons x xs ih =>
    obtain ⟨front, back, rfl⟩ := List.append_of_mem (hperm.mem_iff.mp List.mem_cons_self)
    have hrest : xs.Perm (front ++ back) :=
      (hperm.trans List.perm_middle).cons_inv
    have hsorted : (front ++ back).Pairwise le :=
      hys.sublist ((List.sublist_cons_self x back).append_left front)
    -- what stands in front of `x` there is behind it here, so it is tied with it
    have hfront : ∀ a ∈ front, Tied le x a := by
      intro a ha
      have hmem : a ∈ xs := hrest.mem_iff.mpr (List.mem_append_left back ha)
      exact ⟨List.rel_of_pairwise_cons hxs hmem,
        (List.pairwise_append.mp hys).2.2 a ha x List.mem_cons_self⟩
    have hpass : ∀ zs : List α, (∀ a ∈ zs, a ∈ xs ∧ Tied le x a) →
        zs.flatMap code ++ code x = code x ++ zs.flatMap code := by
      intro zs hzs
      induction zs with
      | nil => simp
      | cons z zs ihz =>
        have hz := hzs z List.mem_cons_self
        rw [List.flatMap_cons, List.append_assoc,
          ihz fun a ha => hzs a (List.mem_cons_of_mem z ha), ← List.append_assoc,
          ← hcomm x List.mem_cons_self z (List.mem_cons_of_mem x hz.1) hz.2,
          List.append_assoc]
    have htail := ih hrest (List.Pairwise.of_cons hxs) hsorted fun a ha b hb =>
      hcomm a (List.mem_cons_of_mem x ha) b (List.mem_cons_of_mem x hb)
    calc
      (x :: xs).flatMap code = code x ++ (front.flatMap code ++ back.flatMap code) := by
        rw [List.flatMap_cons, htail, List.flatMap_append]
      _ = front.flatMap code ++ code x ++ back.flatMap code := by
        rw [← List.append_assoc, hpass front fun a ha =>
          ⟨hrest.mem_iff.mpr (List.mem_append_left back ha), hfront a ha⟩]
      _ = (front ++ x :: back).flatMap code := by
        rw [List.flatMap_append, List.flatMap_cons, List.append_assoc]

/-- The code does not depend on the order of the list exactly when the codes of any two tied
entries commute. -/
theorem sortedCode_perm_iff (le : α → α → Prop) [DecidableRel le] [DecidableEq α] [IsTrans α le]
    [Std.Total le] {xs : List α} :
    (∀ ys, xs.Perm ys → sortedCode le code ys = sortedCode le code xs) ↔
      ∀ a ∈ xs, ∀ b ∈ xs, Tied le a b → code a ++ code b = code b ++ code a := by
  constructor
  · intro h a ha b hb htied
    by_cases hab : a = b
    · rw [hab]
    · have hb' : b ∈ xs.erase a := (List.mem_erase_of_ne (Ne.symm hab)).mpr hb
      have hperm : xs.Perm (a :: b :: (xs.erase a).erase b) :=
        (List.perm_cons_erase ha).trans ((List.perm_cons_erase hb').cons a)
      have heq : sortedCode le code (a :: b :: (xs.erase a).erase b) =
          sortedCode le code (b :: a :: (xs.erase a).erase b) :=
        (h _ hperm).trans (h _ (hperm.trans (List.Perm.swap b a _))).symm
      obtain ⟨front, back, hfirst, hsecond⟩ :=
        orderedInsert_tied htied (((xs.erase a).erase b).insertionSort le)
      simp only [sortedCode, List.insertionSort_cons, hfirst, hsecond, List.flatMap_append,
        List.flatMap_cons, ← List.append_assoc] at heq
      have hpair := List.append_cancel_right heq
      rw [List.append_assoc, List.append_assoc] at hpair
      exact List.append_cancel_left hpair
  · intro hcomm ys hperm
    refine (flatMap_eq_of_pairwise ?_ (List.pairwise_insertionSort le xs)
      (List.pairwise_insertionSort le ys) ?_).symm
    · exact ((List.perm_insertionSort le xs).trans hperm).trans
        (List.perm_insertionSort le ys).symm
    · intro a ha b hb
      exact hcomm a ((List.mem_insertionSort le).mp ha) b ((List.mem_insertionSort le).mp hb)

/-! ## What is sorted to the front -/

section Front

variable [DecidableRel le]

variable (le) in
/-- What comes first of two entries, if there are two. -/
def sooner : Option α → Option α → Option α
  | none, y => y
  | some x, none => some x
  | some x, some y => if le x y then some x else some y

theorem head?_orderedInsert (a : α) (xs : List α) :
    (xs.orderedInsert le a).head? = sooner le (some a) xs.head? := by
  cases xs with
  | nil => rfl
  | cons x xs =>
    rw [List.orderedInsert_cons, List.head?_cons, sooner]
    split <;> rfl

variable [IsTrans α le] [Std.Total le]

theorem sooner_assoc (x y z : Option α) :
    sooner le (sooner le x y) z = sooner le x (sooner le y z) := by
  cases x with
  | none => rfl
  | some x =>
    cases y with
    | none => cases z <;> rfl
    | some y =>
      cases z with
      | none => by_cases hxy : le x y <;> simp [sooner, hxy]
      | some z =>
        by_cases hxy : le x y
        · by_cases hyz : le y z
          · have hxz : le x z := IsTrans.trans x y z hxy hyz
            simp [sooner, hxy, hyz, hxz]
          · simp [sooner, hxy, hyz]
        · by_cases hyz : le y z
          · simp [sooner, hxy, hyz]
          · have hyx : le y x := (Std.Total.total x y).resolve_left hxy
            have hxz : ¬le x z := fun hle => hyz (IsTrans.trans y x z hyx hle)
            simp [sooner, hxy, hyz, hxz]

theorem head?_insertionSort_append (xs ys : List α) :
    ((xs ++ ys).insertionSort le).head? =
      sooner le (xs.insertionSort le).head? (ys.insertionSort le).head? := by
  induction xs with
  | nil => rfl
  | cons x xs ih =>
    rw [List.cons_append, List.insertionSort_cons, List.insertionSort_cons,
      head?_orderedInsert, head?_orderedInsert, ih, sooner_assoc]

/-- Of lists that are sorted already the first of the foremost entries comes to the front. -/
theorem head?_insertionSort_flatMap {γ : Type} {f : γ → List α} {parts : List γ}
    (hsorted : ∀ part ∈ parts, (f part).Pairwise le) {a : α} :
    ((parts.flatMap f).insertionSort le).head? = some a ↔
      ∃ before part after, parts = before ++ part :: after ∧ (f part).head? = some a ∧
        (∀ other ∈ before, ∀ b, (f other).head? = some b → ¬le b a) ∧
        ∀ other ∈ after, ∀ b, (f other).head? = some b → le a b := by
  induction parts generalizing a with
  | nil =>
    constructor
    · intro h
      cases h
    · rintro ⟨before, part, after, hnil, -⟩
      simp at hnil
  | cons first parts ih =>
    obtain ⟨hsortedFirst, hsortedRest⟩ := List.forall_mem_cons.mp hsorted
    replace ih := fun {a : α} => ih hsortedRest (a := a)
    rw [List.flatMap_cons, head?_insertionSort_append, hsortedFirst.insertionSort_eq]
    cases hfirst : (f first).head? with
    | none =>
      rw [sooner, ih]
      constructor
      · rintro ⟨before, part, after, rfl, hpart, hbefore, hafter⟩
        refine ⟨first :: before, part, after, rfl, hpart, ?_, hafter⟩
        intro other hother b hb
        rcases List.mem_cons.mp hother with rfl | hother
        · rw [hfirst] at hb
          cases hb
        · exact hbefore other hother b hb
      · rintro ⟨before, part, after, hparts, hpart, hbefore, hafter⟩
        cases before with
        | nil =>
          cases hparts
          rw [hfirst] at hpart
          cases hpart
        | cons skipped before =>
          cases hparts
          exact ⟨before, part, after, rfl, hpart,
            fun other hother => hbefore other (List.mem_cons_of_mem _ hother), hafter⟩
    | some x =>
      constructor
      · intro h
        cases hrest : ((parts.flatMap f).insertionSort le).head? with
        | none =>
          rw [hrest] at h
          cases h
          refine ⟨[], first, parts, rfl, hfirst, fun _ hmem => (nomatch hmem), ?_⟩
          intro other hother b hb
          have hmem : b ∈ parts.flatMap f :=
            List.mem_flatMap.mpr ⟨other, hother, List.mem_of_mem_head? hb⟩
          rw [List.head?_eq_none_iff] at hrest
          have hnil := (List.mem_insertionSort le).mpr hmem
          rw [hrest] at hnil
          cases hnil
        | some y =>
          obtain ⟨before, part, after, hparts, hpart, hbefore, hafter⟩ := ih.mp hrest
          rw [hrest, sooner] at h
          split_ifs at h with hle
          · cases h
            refine ⟨[], first, parts, rfl, hfirst, fun _ hmem => (nomatch hmem), ?_⟩
            intro other hother b hb
            apply IsTrans.trans _ y b hle
            rw [hparts] at hother
            rcases List.mem_append.mp hother with hother | hother
            · exact (Std.Total.total b y).resolve_left (hbefore other hother b hb)
            · rcases List.mem_cons.mp hother with rfl | hother
              · rw [hpart] at hb
                cases hb
                exact (Std.Total.total y y).elim id id
              · exact hafter other hother b hb
          · cases h
            refine ⟨first :: before, part, after, by rw [hparts]; rfl, hpart, ?_, hafter⟩
            intro other hother b hb
            rcases List.mem_cons.mp hother with rfl | hother
            · rw [hfirst] at hb
              cases hb
              exact hle
            · exact hbefore other hother b hb
      · rintro ⟨before, part, after, hparts, hpart, hbefore, hafter⟩
        cases before with
        | nil =>
          cases hparts
          rw [hfirst] at hpart
          cases hpart
          cases hrest : ((parts.flatMap f).insertionSort le).head? with
          | none => rfl
          | some y =>
            obtain ⟨skipped, other, later, hsplit, hother, -⟩ := ih.mp hrest
            have hmem : other ∈ parts := by
              rw [hsplit]
              exact List.mem_append_right _ List.mem_cons_self
            rw [sooner, if_pos (hafter other hmem y hother)]
        | cons skipped before =>
          cases hparts
          have hrest := ih.mpr ⟨before, part, after, rfl, hpart,
            fun other hother => hbefore other (List.mem_cons_of_mem _ hother), hafter⟩
          rw [hrest, sooner, if_neg (hbefore first List.mem_cons_self x hfirst)]

end Front

end DevRelay.Lib
