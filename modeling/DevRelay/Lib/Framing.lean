import Mathlib.Data.List.Basic
import Mathlib.Data.List.Infix

/-!
# Terminated fields

A list of fields written one after the other, each followed by a terminator.
The encoding is injective on fields that do not contain the terminator.  Without
that restriction a marker, a fixed word between two terminators, can be found
inside a field as well.
-/

namespace DevRelay.Lib

variable {α : Type}

/-- Every field followed by the terminator `z`. -/
def frame (z : α) (fields : List (List α)) : List α := fields.flatMap fun f => f ++ [z]

variable {z : α}

@[simp] theorem frame_nil : frame z [] = [] := rfl

@[simp] theorem frame_cons (f : List α) (fields : List (List α)) :
    frame z (f :: fields) = f ++ z :: frame z fields := by
  simp [frame]

@[simp] theorem frame_append (xs ys : List (List α)) :
    frame z (xs ++ ys) = frame z xs ++ frame z ys :=
  List.flatMap_append

/-- A non-empty list of fields that starts with a non-empty field takes at least two
symbols. -/
theorem two_le_length_frame {f : List α} {fields : List (List α)} (hf : f ≠ []) :
    2 ≤ (frame z (f :: fields)).length := by
  have hpos := List.length_pos_iff.mpr hf
  rw [frame_cons, List.length_append, List.length_cons]
  omega

/-- The text up to the first terminator, when one of the two sides has none in it. -/
theorem append_terminator_cases {w t e s : List α} (hw : z ∉ w) (h : w ++ z :: t = e ++ z :: s) :
    (e = w ∧ t = s) ∨ ∃ u, e = w ++ z :: u ∧ t = u ++ z :: s := by
  rcases List.append_eq_append_iff.mp h with ⟨d, he, ht⟩ | ⟨d, hwd, hs⟩
  · cases d with
    | nil =>
      rw [List.nil_append] at ht
      rw [List.append_nil] at he
      exact Or.inl ⟨he, (List.cons.inj ht).2⟩
    | cons x u =>
      obtain ⟨rfl, htail⟩ := List.cons.inj ht
      exact Or.inr ⟨u, he, htail⟩
  · cases d with
    | nil =>
      rw [List.append_nil] at hwd
      exact Or.inl ⟨hwd.symm, (List.cons.inj hs).2.symm⟩
    | cons x u =>
      obtain ⟨rfl, -⟩ := List.cons.inj hs
      exact absurd (hwd ▸ List.mem_append_right e List.mem_cons_self) hw

/-- Two texts up to the first terminator, when neither has one in it. -/
theorem append_terminator_inj {f g xs ys : List α} (hf : z ∉ f) (hg : z ∉ g)
    (h : f ++ z :: xs = g ++ z :: ys) : f = g ∧ xs = ys := by
  rcases append_terminator_cases hf h with ⟨heq, hrest⟩ | ⟨u, heq, -⟩
  · exact ⟨heq.symm, hrest⟩
  · rw [heq] at hg
    exact absurd (List.mem_append_right f List.mem_cons_self) hg

/-- Fields without the terminator can be told apart. -/
theorem frame_injective {xs ys : List (List α)} (hxs : ∀ f ∈ xs, z ∉ f)
    (hys : ∀ f ∈ ys, z ∉ f) (h : frame z xs = frame z ys) : xs = ys := by
  induction xs generalizing ys with
  | nil =>
    cases ys with
    | nil => rfl
    | cons g ys => simp at h
  | cons f xs ih =>
    cases ys with
    | nil => simp at h
    | cons g ys =>
      rw [frame_cons, frame_cons] at h
      rcases append_terminator_cases (hxs f List.mem_cons_self) h with
        ⟨rfl, hrest⟩ | ⟨u, hg, -⟩
      · rw [ih (fun f hf => hxs f (List.mem_cons_of_mem _ hf))
          (fun f hf => hys f (List.mem_cons_of_mem _ hf)) hrest]
      · refine absurd ?_ (hys g List.mem_cons_self)
        rw [hg]
        exact List.mem_append_right f List.mem_cons_self

/-- A terminator with symbols on both sides of it. -/
theorem mem_tail_dropLast_iff {xs : List α} :
    z ∈ xs.tail.dropLast ↔ ∃ x y, x ≠ [] ∧ y ≠ [] ∧ xs = x ++ z :: y := by
  constructor
  · intro h
    cases xs with
    | nil => cases h
    | cons a xs =>
      have hne : xs ≠ [] := by
        rintro rfl
        cases h
      obtain ⟨x, y, hxy⟩ := List.append_of_mem h
      refine ⟨a :: x, y ++ [xs.getLast hne], List.cons_ne_nil _ _, by simp, ?_⟩
      calc a :: xs = a :: (xs.dropLast ++ [xs.getLast hne]) := by
            rw [List.dropLast_concat_getLast]
        _ = a :: x ++ z :: (y ++ [xs.getLast hne]) := by
            change xs.dropLast = x ++ z :: y at hxy
            rw [hxy]
            simp
  · rintro ⟨x, y, hx, hy, rfl⟩
    cases x with
    | nil => exact absurd rfl hx
    | cons a x =>
      change z ∈ (x ++ z :: y).dropLast
      rw [List.dropLast_append_of_ne_nil (List.cons_ne_nil z y), List.dropLast_cons_of_ne_nil hy]
      exact List.mem_append_right x List.mem_cons_self

/-- A field that contains no inner terminator is read back whole, when what follows a
shorter reading has at least two symbols. -/
theorem eq_of_append_terminator {f g rest : List α} (hf : z ∉ f.tail.dropLast)
    (hg : g ≠ []) (hrest : rest = [] ∨ 2 ≤ rest.length)
    (h : f ++ [z] = g ++ z :: rest) : f = g ∧ rest = [] := by
  rcases hrest with rfl | hlong
  · exact ⟨List.append_cancel_right h, rfl⟩
  · exfalso
    have hne : rest ≠ [] := List.ne_nil_of_length_pos (by omega)
    have hlast : f ++ [z] = (g ++ z :: rest.dropLast) ++ [rest.getLast hne] := by
      rw [h, List.append_assoc, List.cons_append, List.dropLast_concat_getLast]
    have hinit := congrArg List.dropLast hlast
    rw [List.dropLast_concat, List.dropLast_concat] at hinit
    refine hf (mem_tail_dropLast_iff.mpr ⟨g, rest.dropLast, hg, ?_, hinit⟩)
    apply List.ne_nil_of_length_pos
    rw [List.length_dropLast]
    omega

/-- The frame of some field is a text with a terminator at its end. -/
theorem dropLast_frame_append {fields : List (List α)} (h : fields ≠ []) :
    (frame z fields).dropLast ++ [z] = frame z fields := by
  obtain ⟨init, last, rfl⟩ := List.eq_nil_or_concat fields |>.resolve_left h
  rw [List.concat_eq_append, frame_append, frame_cons, frame_nil, ← List.append_assoc,
    List.dropLast_concat]

/-- The fixed word `w` between two terminators. -/
def marker (z : α) (w : List α) : List α := z :: (w ++ [z])

theorem marker_append (w t : List α) : marker z w ++ t = z :: (w ++ z :: t) := by
  simp [marker]

/-- Two readings of a text as a prefix, a marker and the rest: they agree, or the marker
also occurs in the longer of the two prefixes, its last terminator counted. -/
theorem append_marker_cases {w n n' t t' : List α} (hw : z ∉ w)
    (h : n ++ (marker z w ++ t) = n' ++ (marker z w ++ t')) :
    (n = n' ∧ t = t') ∨
      (∃ u, n ++ [z] = n' ++ marker z w ++ u ∧ t' = u ++ w ++ z :: t) ∨
      ∃ u, n' ++ [z] = n ++ marker z w ++ u ∧ t = u ++ w ++ z :: t' := by
  -- the difference of the prefixes is empty, or starts with the marker's terminator
  have hdiff : ∀ d s s' : List α, marker z w ++ s = d ++ (marker z w ++ s') → d ≠ [] →
      ∃ u, d ++ [z] = marker z w ++ u ∧ s = u ++ w ++ z :: s' := by
    intro d s s' hd hne
    cases d with
    | nil => exact absurd rfl hne
    | cons x e =>
      rw [marker_append, marker_append, List.cons_append] at hd
      obtain ⟨rfl, htail⟩ := List.cons.inj hd
      rcases append_terminator_cases hw htail with ⟨rfl, hs⟩ | ⟨u, rfl, hs⟩
      · refine ⟨[], ?_, ?_⟩
        · simp [marker]
        · rw [hs, List.nil_append]
      · refine ⟨u ++ [z], ?_, ?_⟩
        · simp [marker]
        · simp [hs]
  rcases List.append_eq_append_iff.mp h with ⟨d, hn, hX⟩ | ⟨d, hn, hX⟩
  · rcases eq_or_ne d [] with rfl | hd
    · rw [List.append_nil] at hn
      exact Or.inl ⟨hn.symm, List.append_cancel_left hX⟩
    · obtain ⟨u, hu, ht⟩ := hdiff d t t' hX hd
      refine Or.inr (Or.inr ⟨u, ?_, ht⟩)
      rw [hn, List.append_assoc, hu, List.append_assoc]
  · rcases eq_or_ne d [] with rfl | hd
    · rw [List.append_nil] at hn
      exact Or.inl ⟨hn, (List.append_cancel_left hX).symm⟩
    · obtain ⟨u, hu, ht⟩ := hdiff d t' t hX hd
      refine Or.inr (Or.inl ⟨u, ?_, ht⟩)
      rw [hn, List.append_assoc, hu, List.append_assoc]

/-- A text up to the first of the stop words, read twice. -/
theorem append_inj_of_stop {stop : α → Prop} {xs ys r s : List α}
    (hxs : ∀ x ∈ xs, ¬stop x) (hys : ∀ y ∈ ys, ¬stop y) (hr : ∀ x ∈ r.head?, stop x)
    (hs : ∀ y ∈ s.head?, stop y) (h : xs ++ r = ys ++ s) : xs = ys ∧ r = s := by
  induction xs generalizing ys with
  | nil =>
    cases ys with
    | nil => exact ⟨rfl, h⟩
    | cons y ys =>
      rw [List.nil_append] at h
      refine absurd (hr y ?_) (hys y List.mem_cons_self)
      rw [h]
      rfl
  | cons x xs ih =>
    cases ys with
    | nil =>
      rw [List.nil_append] at h
      refine absurd (hs x ?_) (hxs x List.mem_cons_self)
      rw [← h]
      rfl
    | cons y ys =>
      obtain ⟨rfl, htail⟩ := List.cons.inj h
      obtain ⟨rfl, hrest⟩ := ih (fun x hx => hxs x (List.mem_cons_of_mem _ hx))
        (fun y hy => hys y (List.mem_cons_of_mem _ hy)) htail
      exact ⟨rfl, hrest⟩

/-! ## Pieces -/

/-- A field that does not contain the terminator. -/
@[ext]
structure Piece (z : α) where
  word : List α
  free : z ∉ word
  deriving DecidableEq

theorem notMem_of_mem_splitOn [DecidableEq α] {f p : List α} (h : p ∈ f.splitOn z) : z ∉ p := by
  induction f generalizing p with
  | nil =>
    rw [List.splitOn_nil, List.mem_singleton] at h
    rw [h]
    exact List.not_mem_nil
  | cons x f ih =>
    rw [List.splitOn_cons_eq_if_modifyHead] at h
    split at h
    · rcases List.mem_cons.mp h with hnil | htail
      · rw [hnil]
        exact List.not_mem_nil
      · exact ih htail
    · rename_i hx
      have hne := List.splitOn_ne_nil z f
      cases hsplit : f.splitOn z with
      | nil => exact absurd hsplit hne
      | cons q qs =>
        rw [hsplit] at h ih
        rcases List.mem_cons.mp h with hhead | htail
        · rw [hhead]
          intro hmem
          rcases List.mem_cons.mp hmem with heq | hq
          · exact hx (beq_iff_eq.mpr heq.symm)
          · exact ih List.mem_cons_self hq
        · exact ih (List.mem_cons_of_mem _ htail)

/-- A part of a text is within the text. -/
theorem sublist_of_mem_splitOn [DecidableEq α] {text part : List α}
    (h : part ∈ text.splitOn z) : part.Sublist text := by
  induction text generalizing part with
  | nil =>
    rw [List.splitOn_nil, List.mem_singleton] at h
    rw [h]
  | cons c rest ih =>
    rw [List.splitOn_cons_eq_if_modifyHead] at h
    split at h
    · rcases List.mem_cons.mp h with rfl | hrest
      · exact List.nil_sublist _
      · exact (ih hrest).cons c
    · cases hparts : rest.splitOn z with
      | nil => exact absurd hparts (List.splitOn_ne_nil z rest)
      | cons first others =>
        rw [hparts, List.modifyHead_cons] at h
        rcases List.mem_cons.mp h with rfl | hmem
        · exact (ih (by rw [hparts]; exact List.mem_cons_self)).cons_cons c
        · exact (ih (by rw [hparts]; exact List.mem_cons_of_mem _ hmem)).cons c

theorem mem_intercalate {x : α} {parts : List (List α)} (h : x ∈ [z].intercalate parts) :
    x = z ∨ ∃ part ∈ parts, x ∈ part := by
  induction parts with
  | nil => simp at h
  | cons first rest ih =>
    cases rest with
    | nil => simpa using Or.inr h
    | cons second rest =>
      rw [List.intercalate_cons_cons, List.mem_append, List.mem_append, List.mem_singleton] at h
      rcases h with (hfirst | hsep) | hrest
      · exact Or.inr ⟨first, List.mem_cons_self, hfirst⟩
      · exact Or.inl hsep
      · rcases ih hrest with hsep | ⟨part, hpart, hin⟩
        · exact Or.inl hsep
        · exact Or.inr ⟨part, List.mem_cons_of_mem _ hpart, hin⟩

theorem map_word_injective {ps qs : List (Piece z)}
    (h : ps.map Piece.word = qs.map Piece.word) : ps = qs :=
  List.map_injective_iff.mpr (fun _ _ heq => Piece.ext heq) h

theorem free_of_mem_map_word {ps : List (Piece z)} {f : List α}
    (h : f ∈ ps.map Piece.word) : z ∉ f := by
  obtain ⟨p, -, rfl⟩ := List.mem_map.mp h
  exact p.free

/-- The field with the given parts. -/
def joinPieces (ps : List (Piece z)) : List α := [z].intercalate (ps.map Piece.word)

section pieces

variable [DecidableEq α]

/-- The parts of a field between terminators. -/
def pieces (z : α) (f : List α) : List (Piece z) :=
  (f.splitOn z).attach.map fun p => ⟨p.1, notMem_of_mem_splitOn p.2⟩

theorem map_word_pieces (f : List α) : (pieces z f).map Piece.word = f.splitOn z := by
  rw [pieces, List.map_map]
  exact List.attach_map_subtype_val _

theorem pieces_ne_nil (f : List α) : pieces z f ≠ [] := by
  intro h
  have hval := map_word_pieces (z := z) f
  rw [h, List.map_nil] at hval
  exact List.splitOn_ne_nil z f hval.symm

@[simp] theorem joinPieces_pieces (f : List α) : joinPieces (pieces z f) = f := by
  rw [joinPieces, map_word_pieces, List.intercalate_splitOn]

theorem pieces_joinPieces {ps : List (Piece z)} (h : ps ≠ []) : pieces z (joinPieces ps) = ps := by
  have hne : ps.map Piece.word ≠ [] := by
    intro hnil
    exact h (List.map_eq_nil_iff.mp hnil)
  apply map_word_injective
  rw [map_word_pieces, joinPieces, List.splitOn_intercalate z (fun f hf => free_of_mem_map_word hf)
      hne]

theorem pieces_injective {f g : List α} (h : pieces z f = pieces z g) : f = g := by
  rw [← joinPieces_pieces (z := z) f, h, joinPieces_pieces]

theorem pieces_of_notMem {f : List α} (h : z ∉ f) : pieces z f = [⟨f, h⟩] := by
  apply map_word_injective
  rw [map_word_pieces, List.splitOn_eq_singleton h]
  rfl

theorem pieces_append_cons (f g : List α) : pieces z (f ++ z :: g) = pieces z f ++ pieces z g := by
  apply map_word_injective
  rw [List.map_append, map_word_pieces, map_word_pieces, map_word_pieces,
    List.splitOn_append_cons_self]

/-- Cutting the fields into pieces does not change the text. -/
theorem frame_pieces (f : List α) : frame z ((pieces z f).map Piece.word) = f ++ [z] := by
  have hjoin : ∀ ps : List (Piece z), ps ≠ [] →
      frame z (ps.map Piece.word) = joinPieces ps ++ [z] := by
    intro ps
    induction ps with
    | nil => exact fun hne => absurd rfl hne
    | cons p ps ih =>
      intro _
      cases ps with
      | nil => simp [joinPieces]
      | cons q qs =>
        have htail := ih (List.cons_ne_nil q qs)
        rw [List.map_cons, frame_cons, htail]
        simp [joinPieces, List.intercalate_cons_cons]
  rw [hjoin _ (pieces_ne_nil f), joinPieces_pieces]

/-- Two texts are the same exactly when the fields have the same pieces. -/
theorem frame_eq_iff {xs ys : List (List α)} :
    frame z xs = frame z ys ↔ xs.flatMap (pieces z) = ys.flatMap (pieces z) := by
  have hframe : ∀ fields : List (List α),
      frame z fields = frame z ((fields.flatMap (pieces z)).map Piece.word) := by
    intro fields
    induction fields with
    | nil => rfl
    | cons f fields ih =>
      rw [List.flatMap_cons, List.map_append, frame_append, frame_pieces, frame_cons, ih,
        List.append_assoc]
      rfl
  constructor
  · intro h
    rw [hframe xs, hframe ys] at h
    exact map_word_injective (frame_injective (fun f hf => free_of_mem_map_word hf)
      (fun f hf => free_of_mem_map_word hf) h)
  · intro h
    rw [hframe xs, hframe ys, h]

end pieces

/-! ## Blocks of one length -/

/-- Codes of one length behind each other are read back. -/
theorem flatMap_injective_of_width {β γ : Type} {width : Nat} {code : γ → List β}
    (hpos : 0 < width) (hwidth : ∀ c, (code c).length = width) (hcode : Function.Injective code) :
    Function.Injective fun entries : List γ => entries.flatMap code := by
  have hcons : ∀ (c : γ) (entries : List γ), (c :: entries).flatMap code ≠ [] := by
    intro c entries hnil
    have hlength := congrArg List.length hnil
    rw [List.flatMap_cons, List.length_append, hwidth, List.length_nil] at hlength
    omega
  intro xs ys h
  change xs.flatMap code = ys.flatMap code at h
  induction xs generalizing ys with
  | nil =>
    cases ys with
    | nil => rfl
    | cons y ys => exact absurd h.symm (hcons y ys)
  | cons x xs ih =>
    cases ys with
    | nil => exact absurd h (hcons x xs)
    | cons y ys =>
      rw [List.flatMap_cons, List.flatMap_cons] at h
      obtain ⟨hhead, htail⟩ := List.append_inj h (by rw [hwidth, hwidth])
      rw [hcode hhead, ih htail]

end DevRelay.Lib
