import Mathlib.Data.List.Basic
import Mathlib.Tactic.Common

/-!
# Lists between separators

A text made of lists with a separator between every two neighbours.  The text can
be read in one way only exactly when no separator stands at a second place in the
two lists that it separates.
-/

namespace DevRelay.Lib

variable {α : Type}

/-- The texts of a separator.  Two of them in one text are the same or do not overlap. -/
structure Separator (α : Type) where
  Is : List α → Prop
  ne_nil : ∀ s, Is s → s ≠ []
  apart : ∀ {x s t x' s' t' : List α}, Is s → Is s' → x ++ (s ++ t) = x' ++ (s' ++ t') →
    (x = x' ∧ s = s' ∧ t = t') ∨
      (∃ w, x = x' ++ (s' ++ w) ∧ t' = w ++ (s ++ t)) ∨
      ∃ w, x' = x ++ (s ++ w) ∧ t = w ++ (s' ++ t')

/-- Two texts with a tag at their front, when the first ends before the second or the tag of
the second is behind it. -/
theorem append_tag_cases {tag : α} {r r' x t x' t' : List α} (hr : tag ∉ r)
    (hlength : r.length = r'.length) (h : x ++ (tag :: r ++ t) = x' ++ (tag :: r' ++ t'))
    (hle : x.length ≤ x'.length) :
    (x = x' ∧ r = r' ∧ t = t') ∨ ∃ w, x' = x ++ (tag :: r ++ w) ∧ t = w ++ (tag :: r' ++ t') := by
  obtain ⟨d, rfl⟩ : ∃ d, x' = x ++ d := by
    have hprefix := List.prefix_of_prefix_length_le (List.prefix_append x _)
      (h ▸ List.prefix_append x' _) hle
    obtain ⟨d, hd⟩ := hprefix
    exact ⟨d, hd.symm⟩
  rw [List.append_assoc, List.append_cancel_left_eq] at h
  cases d with
  | nil =>
    obtain ⟨-, htail⟩ := List.cons.inj h
    obtain ⟨hsame, hrest⟩ := List.append_inj htail hlength
    exact Or.inl ⟨(List.append_nil x).symm, hsame, hrest⟩
  | cons a e =>
    obtain ⟨rfl, htail⟩ := List.cons.inj h
    change r ++ t = e ++ (tag :: r' ++ t') at htail
    rcases List.append_eq_append_iff.mp htail with ⟨f, he, ht⟩ | ⟨f, hrf, hf⟩
    · refine Or.inr ⟨f, ?_, ht⟩
      rw [he, List.cons_append]
    · cases f with
      | nil =>
        rw [List.append_nil] at hrf
        refine Or.inr ⟨[], ?_, hf.symm⟩
        rw [hrf, List.append_nil]
      | cons b f =>
        obtain ⟨rfl, -⟩ := List.cons.inj hf
        rw [hrf] at hr
        exact absurd (List.mem_append_right e List.mem_cons_self) hr

/-- A tag, followed by one of some texts of the same length without the tag. -/
def Separator.tagged (tag : α) (size : ℕ) (Fields : List α → Prop)
    (hsize : ∀ r, Fields r → r.length = size) (htag : ∀ r, Fields r → tag ∉ r) :
    Separator α where
  Is s := ∃ r, Fields r ∧ s = tag :: r
  ne_nil := by
    rintro s ⟨r, -, rfl⟩
    exact List.cons_ne_nil tag r
  apart := by
    rintro x s t x' s' t' ⟨r, hr, rfl⟩ ⟨r', hr', rfl⟩ h
    have hlength : r.length = r'.length := by rw [hsize r hr, hsize r' hr']
    rcases Nat.le_total x.length x'.length with hle | hle
    · rcases append_tag_cases (htag r hr) hlength h hle with ⟨hx, hsame, ht⟩ | hlater
      · exact Or.inl ⟨hx, by rw [hsame], ht⟩
      · exact Or.inr (Or.inr hlater)
    · rcases append_tag_cases (htag r' hr') hlength.symm h.symm hle with
        ⟨hx, hsame, ht⟩ | hlater
      · exact Or.inl ⟨hx.symm, by rw [hsame], ht.symm⟩
      · exact Or.inr (Or.inl hlater)

/-- A separator and the list after it.  A valid list stays valid with a separator and
anything else in front. -/
structure Slot (α : Type) where
  sep : Separator α
  Valid : List α → Prop
  absorbs : ∀ w s x, sep.Is s → Valid x → Valid (w ++ (s ++ x))

/-- The text of a first list and of separators with the lists after them. -/
def spell (x : List α) : List (List α × List α) → List α
  | [] => x
  | (s, y) :: parts => x ++ (s ++ spell y parts)

/-- The lists are valid and what stands between them are the separators. -/
def Reads (V : List α → Prop) : List (Slot α) → List α → List (List α × List α) → Prop
  | [], x, [] => V x
  | slot :: slots, x, (s, y) :: parts => V x ∧ slot.sep.Is s ∧ Reads slot.Valid slots y parts
  | _, _, _ => False

/-- The separator between `x` and `y` stands at a second place in the text of the three, with
valid lists before and after it. -/
def SecondPlace (V : List α → Prop) (slot : Slot α) (x s y : List α) : Prop :=
  ∃ u s' w, slot.sep.Is s' ∧ V u ∧ slot.Valid w ∧ u ≠ x ∧ u ++ (s' ++ w) = x ++ (s ++ y)

/-- No separator stands at a second place in the lists on both sides of it. -/
def Steady (V : List α → Prop) : List (Slot α) → List α → List (List α × List α) → Prop
  | slot :: slots, x, (s, y) :: parts =>
    ¬SecondPlace V slot x s y ∧ Steady slot.Valid slots y parts
  | _, _, _ => True

variable {V : List α → Prop} {slots : List (Slot α)} {x x' : List α}
  {parts parts' : List (List α × List α)}

theorem Reads.of_nil (h : Reads V [] x parts) : V x ∧ parts = [] := by
  cases parts with
  | nil => exact ⟨h, rfl⟩
  | cons part parts => exact h.elim

theorem Reads.of_cons {slot : Slot α} (h : Reads V (slot :: slots) x parts) :
    ∃ s y rest, parts = (s, y) :: rest ∧ V x ∧ slot.sep.Is s ∧ Reads slot.Valid slots y rest := by
  cases parts with
  | nil => exact h.elim
  | cons part parts => exact ⟨part.1, part.2, parts, rfl, h⟩

theorem Reads.head (h : Reads V slots x parts) : V x := by
  cases slots with
  | nil =>
    cases parts with
    | nil => exact h
    | cons part parts => exact h.elim
  | cons slot slots =>
    cases parts with
    | nil => exact h.elim
    | cons part parts => exact h.1

/-- The separator is also found in the list before it. -/
theorem secondPlace_before {slot : Slot α} {s y s' w : List α} (hs : slot.sep.Is s)
    (hs' : slot.sep.Is s') (hx' : V x') (hy : slot.Valid y) (hx : x = x' ++ (s' ++ w)) :
    SecondPlace V slot x s y := by
  refine ⟨x', s', w ++ (s ++ y), hs', hx', slot.absorbs w s y hs hy, ?_, ?_⟩
  · intro hsame
    have hlength := congrArg List.length hx
    have hpos := List.length_pos_iff.mpr (slot.sep.ne_nil s' hs')
    rw [hsame, List.length_append, List.length_append] at hlength
    omega
  · rw [hx]
    simp only [List.append_assoc]

/-- The separator is also found in the list after it. -/
theorem secondPlace_after {slot : Slot α} {s y s' y' w : List α} (hs : slot.sep.Is s)
    (hs' : slot.sep.Is s') (hx' : V x') (hy' : slot.Valid y') (hx : x' = x ++ (s ++ w))
    (hy : y = (w ++ s') ++ y') : SecondPlace V slot x s y := by
  refine ⟨x', s', y', hs', hx', hy', ?_, ?_⟩
  · intro hsame
    have hlength := congrArg List.length hx
    have hpos := List.length_pos_iff.mpr (slot.sep.ne_nil s hs)
    rw [hsame, List.length_append, List.length_append] at hlength
    omega
  · rw [hx, hy]
    simp only [List.append_assoc]

/-- A tag that is in neither of the two lists has no second place. -/
theorem not_secondPlace_of_notMem {slot : Slot α} {s y : List α} {tag : α}
    (hs : slot.sep.Is s) (htag : ∀ s', slot.sep.Is s' → tag ∈ s') (hx : tag ∉ x)
    (hy : tag ∉ y) : ¬SecondPlace V slot x s y := by
  rintro ⟨u, s', w, hs', -, -, hne, heq⟩
  have hmem := htag s' hs'
  rcases slot.sep.apart hs' hs heq with ⟨hsame, -, -⟩ | ⟨v, -, hy'⟩ | ⟨v, hx', -⟩
  · exact hne hsame
  · rw [hy'] at hy
    exact hy (List.mem_append_right v (List.mem_append_left w hmem))
  · rw [hx'] at hx
    exact hx (List.mem_append_right u (List.mem_append_left v hmem))

/-- A text is steady when no list holds one of the tags that the separators are known by. -/
theorem steady_of_notMem {IsTag : α → Prop} (h : Reads V slots x parts)
    (hslots : ∀ slot ∈ slots, ∃ tag, IsTag tag ∧ ∀ s, slot.sep.Is s → tag ∈ s)
    (hx : ∀ tag, IsTag tag → tag ∉ x)
    (hparts : ∀ part ∈ parts, ∀ tag, IsTag tag → tag ∉ part.2) : Steady V slots x parts := by
  induction slots generalizing V x parts with
  | nil => cases parts <;> trivial
  | cons slot slots ih =>
    obtain ⟨s, y, rest, rfl, -, hs, hrest⟩ := h.of_cons
    have hy : ∀ tag, IsTag tag → tag ∉ y := hparts (s, y) List.mem_cons_self
    obtain ⟨tag, htag, hsep⟩ := hslots slot List.mem_cons_self
    constructor
    · exact not_secondPlace_of_notMem hs hsep (hx tag htag) (hy tag htag)
    · exact ih hrest (fun slot' hmem => hslots slot' (List.mem_cons_of_mem _ hmem)) hy
        (fun part hmem => hparts part (List.mem_cons_of_mem _ hmem))

/-- A reading of a proper end of a steady text ends its first list where the text does.  The
induction is on the separators: the next one of the end cannot stand before the next one of
the text, and if it stands behind, the list after it ends where the text's does. -/
theorem append_of_reads_end {o : List α} (h : Reads V slots x parts)
    (h' : Reads V slots x' parts') (hsteady : Steady V slots x parts) (ho : o ≠ [])
    (habsorb : ∀ y, V y → V (o ++ y)) (heq : spell x parts = o ++ spell x' parts') :
    x = o ++ x' := by
  induction slots generalizing V x x' parts parts' o with
  | nil =>
    cases parts with
    | cons part parts => exact h.elim
    | nil =>
      cases parts' with
      | cons part parts' => exact h'.elim
      | nil => exact heq
  | cons slot slots ih =>
    cases parts with
    | nil => exact h.elim
    | cons part parts =>
      cases parts' with
      | nil => exact h'.elim
      | cons part' parts' =>
        obtain ⟨s, y⟩ := part
        obtain ⟨s', y'⟩ := part'
        obtain ⟨-, hs, hy⟩ := h
        obtain ⟨hx', hs', hy'⟩ := h'
        obtain ⟨hplace, hrest⟩ := hsteady
        have htext : x ++ (s ++ spell y parts) = (o ++ x') ++ (s' ++ spell y' parts') := by
          rw [List.append_assoc]
          exact heq
        rcases slot.sep.apart hs hs' htext with ⟨hsame, -, -⟩ | ⟨w, hw, hw'⟩ | ⟨w, hw, hw'⟩
        · exact hsame
        · exact absurd (secondPlace_before hs hs' (habsorb x' hx') hy.head hw) hplace
        · have hend : y = (w ++ s') ++ y' := by
            refine ih hy hy' hrest ?_ ?_ ?_
            · exact List.append_ne_nil_of_right_ne_nil w (slot.sep.ne_nil s' hs')
            · intro z hz
              rw [List.append_assoc]
              exact slot.absorbs w s' z hs' hz
            · rw [List.append_assoc]
              exact hw'
          exact absurd (secondPlace_after hs hs' (habsorb x' hx') hy'.head hw hend)
            hplace

/-- A steady text has one reading. -/
theorem reads_unique (h : Reads V slots x parts) (h' : Reads V slots x' parts')
    (hsteady : Steady V slots x parts) (heq : spell x parts = spell x' parts') :
    x = x' ∧ parts = parts' := by
  induction slots generalizing V x x' parts parts' with
  | nil =>
    cases parts with
    | cons part parts => exact h.elim
    | nil =>
      cases parts' with
      | cons part parts' => exact h'.elim
      | nil => exact ⟨heq, rfl⟩
  | cons slot slots ih =>
    cases parts with
    | nil => exact h.elim
    | cons part parts =>
      cases parts' with
      | nil => exact h'.elim
      | cons part' parts' =>
        obtain ⟨s, y⟩ := part
        obtain ⟨s', y'⟩ := part'
        obtain ⟨-, hs, hy⟩ := h
        obtain ⟨hx', hs', hy'⟩ := h'
        obtain ⟨hplace, hrest⟩ := hsteady
        rcases slot.sep.apart hs hs' heq with ⟨hsame, hsep, htail⟩ | ⟨w, hw, hw'⟩ |
          ⟨w, hw, hw'⟩
        · obtain ⟨hyy, hparts⟩ := ih hy hy' hrest htail
          exact ⟨hsame, by rw [hsep, hyy, hparts]⟩
        · exact absurd (secondPlace_before hs hs' hx' hy.head hw) hplace
        · have hend : y = (w ++ s') ++ y' := by
            refine append_of_reads_end hy hy' hrest ?_ ?_ ?_
            · exact List.append_ne_nil_of_right_ne_nil w (slot.sep.ne_nil s' hs')
            · intro z hz
              rw [List.append_assoc]
              exact slot.absorbs w s' z hs' hz
            · rw [List.append_assoc]
              exact hw'
          exact absurd (secondPlace_after hs hs' hx' hy'.head hw hend) hplace

/-- A text that is not steady has a reading with other lists behind the first. -/
theorem exists_reads_of_not_steady (h : Reads V slots x parts) (hsteady : ¬Steady V slots x parts) :
    ∃ x' parts', Reads V slots x' parts' ∧ spell x' parts' = spell x parts ∧
      parts'.map Prod.snd ≠ parts.map Prod.snd := by
  induction slots generalizing V x parts with
  | nil => exact absurd (by cases parts <;> trivial) hsteady
  | cons slot slots ih =>
    cases parts with
    | nil => exact h.elim
    | cons part parts =>
      obtain ⟨s, y⟩ := part
      obtain ⟨hx, hs, hy⟩ := h
      by_cases hplace : SecondPlace V slot x s y
      · obtain ⟨u, s', w, hs', hu, hw, hne, htext⟩ := hplace
        have hlists : w ≠ y := by
          rintro rfl
          rcases slot.sep.apart hs' hs htext with ⟨hsame, -, -⟩ | ⟨v, -, hv⟩ | ⟨v, -, hv⟩
          · exact hne hsame
          · have hlength := congrArg List.length hv
            have hpos := List.length_pos_iff.mpr (slot.sep.ne_nil s' hs')
            rw [List.length_append, List.length_append] at hlength
            omega
          · have hlength := congrArg List.length hv
            have hpos := List.length_pos_iff.mpr (slot.sep.ne_nil s hs)
            rw [List.length_append, List.length_append] at hlength
            omega
        cases parts with
        | nil =>
          cases slots with
          | cons next slots => exact hy.elim
          | nil =>
            refine ⟨u, [(s', w)], ⟨hu, hs', hw⟩, htext, ?_⟩
            intro heq
            exact hlists (List.cons.inj heq).1
        | cons next parts =>
          cases slots with
          | nil => exact hy.elim
          | cons slot' slots =>
            obtain ⟨t, z⟩ := next
            obtain ⟨-, ht, hz⟩ := hy
            refine ⟨u, (s', w) :: (t, z) :: parts, ⟨hu, hs', hw, ht, hz⟩, ?_, ?_⟩
            · have hspell := congrArg (fun v => v ++ (t ++ spell z parts)) htext
              simpa only [spell, List.append_assoc] using hspell
            · intro heq
              exact hlists (List.cons.inj heq).1
      · have hrest : ¬Steady slot.Valid slots y parts := fun hrest => hsteady ⟨hplace, hrest⟩
        obtain ⟨y', parts', hreads, hspell, hne⟩ := ih hy hrest
        refine ⟨x, (s, y') :: parts', ⟨hx, hs, hreads⟩, ?_, ?_⟩
        · rw [spell, spell, hspell]
        · intro heq
          exact hne (List.cons.inj heq).2

end DevRelay.Lib
