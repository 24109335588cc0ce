import DevRelay.Lib.TextBytes
import Mathlib.Algebra.Ring.Nat

/-!
# Lossy text in pieces

Bytes that are cut in two and read as text piece by piece give the text of the whole, unless the
cut goes through the bytes of one character: then they give more characters than the whole.
-/

namespace DevRelay.Lib

/-! ## The bytes of a character -/

theorem isContinuation_iff {b : UInt8} :
    isContinuation b = true ↔ 0x80 ≤ b.toNat ∧ b.toNat ≤ 0xBF := by
  simp only [isContinuation, Bool.and_eq_true, decide_eq_true_eq, UInt8.le_iff_toNat_le,
    UInt8.reduceToNat]

theorem beginsThree_iff {a b : UInt8} : beginsThree a b = true ↔
    (a.toNat = 0xE0 ∧ 0xA0 ≤ b.toNat ∧ b.toNat ≤ 0xBF) ∨
      (0xE1 ≤ a.toNat ∧ a.toNat ≤ 0xEC ∧ 0x80 ≤ b.toNat ∧ b.toNat ≤ 0xBF) ∨
      (a.toNat = 0xED ∧ 0x80 ≤ b.toNat ∧ b.toNat ≤ 0x9F) ∨
      (0xEE ≤ a.toNat ∧ a.toNat ≤ 0xEF ∧ 0x80 ≤ b.toNat ∧ b.toNat ≤ 0xBF) := by
  simp only [beginsThree, isContinuation, Bool.or_eq_true, Bool.and_eq_true, decide_eq_true_eq,
    UInt8.le_iff_toNat_le, ← UInt8.toNat_inj, UInt8.reduceToNat, or_assoc, and_assoc]

theorem beginsFour_iff {a b : UInt8} : beginsFour a b = true ↔
    (a.toNat = 0xF0 ∧ 0x90 ≤ b.toNat ∧ b.toNat ≤ 0xBF) ∨
      (0xF1 ≤ a.toNat ∧ a.toNat ≤ 0xF3 ∧ 0x80 ≤ b.toNat ∧ b.toNat ≤ 0xBF) ∨
      (a.toNat = 0xF4 ∧ 0x80 ≤ b.toNat ∧ b.toNat ≤ 0x8F) := by
  simp only [beginsFour, isContinuation, Bool.or_eq_true, Bool.and_eq_true, decide_eq_true_eq,
    UInt8.le_iff_toNat_le, ← UInt8.toNat_inj, UInt8.reduceToNat, or_assoc, and_assoc]

/-- The forms of an encoded character. -/
inductive EncodedForm : List UInt8 → Prop where
  | one {a : UInt8} : a.toNat < 0x80 → EncodedForm [a]
  | two {a b : UInt8} : 0xC2 ≤ a.toNat → a.toNat ≤ 0xDF → isContinuation b = true →
      EncodedForm [a, b]
  | three {a b c : UInt8} : beginsThree a b = true → isContinuation c = true →
      EncodedForm [a, b, c]
  | four {a b c d : UInt8} : beginsFour a b = true → isContinuation c = true →
      isContinuation d = true → EncodedForm [a, b, c, d]

theorem encodedForm_encodeChar (c : Char) : EncodedForm (String.utf8EncodeChar c) := by
  have hvalid : c.val.toNat < 0xD800 ∨ 0xDFFF < c.val.toNat ∧ c.val.toNat < 0x110000 := c.valid
  unfold String.utf8EncodeChar
  generalize c.val.toNat = v at hvalid
  dsimp only
  split_ifs with hone htwo hthree
  · apply EncodedForm.one
    rw [UInt8.toNat_ofNat']
    omega
  · apply EncodedForm.two
    · rw [UInt8.toNat_ofNat']
      omega
    · rw [UInt8.toNat_ofNat']
      omega
    · rw [isContinuation_iff, UInt8.toNat_ofNat']
      omega
  · apply EncodedForm.three
    · rw [beginsThree_iff, UInt8.toNat_ofNat', UInt8.toNat_ofNat']
      omega
    · rw [isContinuation_iff, UInt8.toNat_ofNat']
      omega
  · apply EncodedForm.four
    · rw [beginsFour_iff, UInt8.toNat_ofNat', UInt8.toNat_ofNat']
      omega
    · rw [isContinuation_iff, UInt8.toNat_ofNat']
      omega
    · rw [isContinuation_iff, UInt8.toNat_ofNat']
      omega

theorem exists_char (v : Nat) (h : v < 0xD800 ∨ 0xDFFF < v ∧ v < 0x110000) :
    ∃ c : Char, c.val.toNat = v :=
  ⟨Char.ofNatAux v h, rfl⟩

theorem ofNat_eq {n : Nat} {b : UInt8} (h : n % 2 ^ 8 = b.toNat) : UInt8.ofNat n = b := by
  apply UInt8.toNat_inj.mp
  rw [UInt8.toNat_ofNat']
  exact h

/-- Two bytes that can begin a character of three do. -/
theorem encodes_three {a b : UInt8} (h : beginsThree a b = true) :
    ∃ c d, String.utf8EncodeChar c = [a, b, d] := by
  rw [beginsThree_iff] at h
  obtain ⟨c, hc⟩ := exists_char ((a.toNat - 0xE0) * 4096 + (b.toNat - 0x80) * 64) (by omega)
  have hbyte := b.toNat_lt
  refine ⟨c, UInt8.ofNat (c.val.toNat % 64 + 0x80), ?_⟩
  unfold String.utf8EncodeChar
  rw [hc]
  dsimp only
  rw [if_neg (by omega), if_neg (by omega), if_pos (by omega)]
  refine congrArg₂ List.cons (ofNat_eq ?_) (congrArg₂ List.cons (ofNat_eq ?_) rfl)
  · omega
  · omega

/-- Three bytes that can begin a character of four do. -/
theorem encodes_four {a b c : UInt8} (h : beginsFour a b = true) (hc : isContinuation c = true) :
    ∃ char d, String.utf8EncodeChar char = [a, b, c, d] := by
  rw [beginsFour_iff] at h
  rw [isContinuation_iff] at hc
  obtain ⟨char, hchar⟩ := exists_char ((a.toNat - 0xF0) * 262144 + (b.toNat - 0x80) * 4096 +
    (c.toNat - 0x80) * 64) (by omega)
  refine ⟨char, UInt8.ofNat (char.val.toNat % 64 + 0x80), ?_⟩
  unfold String.utf8EncodeChar
  rw [hchar]
  dsimp only
  rw [if_neg (by omega), if_neg (by omega), if_neg (by omega)]
  refine congrArg₂ List.cons (ofNat_eq ?_) (congrArg₂ List.cons (ofNat_eq ?_)
    (congrArg₂ List.cons (ofNat_eq ?_) rfl))
  · omega
  · omega
  · omega

theorem continuation_of_beginsThree {a b : UInt8} (h : beginsThree a b = true) :
    isContinuation b = true := by
  rw [beginsThree_iff] at h
  rw [isContinuation_iff]
  omega

theorem continuation_of_beginsFour {a b : UInt8} (h : beginsFour a b = true) :
    isContinuation b = true := by
  rw [beginsFour_iff] at h
  rw [isContinuation_iff]
  omega

theorem EncodedForm.ne_nil {bytes : List UInt8} (h : EncodedForm bytes) : bytes ≠ [] := by
  cases h <;> exact List.cons_ne_nil _ _

theorem EncodedForm.length_le {bytes : List UInt8} (h : EncodedForm bytes) :
    bytes.length ≤ 4 := by
  cases h <;> simp

theorem EncodedForm.tail {bytes : List UInt8} (h : EncodedForm bytes) :
    ∀ b ∈ bytes.tail, isContinuation b = true := by
  cases h with
  | one ha => exact fun _ hb => nomatch hb
  | two _ _ hb =>
    intro y hy
    rw [List.mem_singleton.mp hy]
    exact hb
  | three hab hc =>
    intro y hy
    rcases List.mem_cons.mp hy with rfl | hy
    · exact continuation_of_beginsThree hab
    · rw [List.mem_singleton.mp hy]
      exact hc
  | four hab hc hd =>
    intro y hy
    rcases List.mem_cons.mp hy with rfl | hy
    · exact continuation_of_beginsFour hab
    · rcases List.mem_cons.mp hy with rfl | hy
      · exact hc
      · rw [List.mem_singleton.mp hy]
        exact hd

/-- No continuation byte begins a character. -/
theorem EncodedForm.head {a : UInt8} {rest : List UInt8} (h : EncodedForm (a :: rest)) :
    isContinuation a ≠ true := by
  rw [Ne, isContinuation_iff]
  cases h with
  | one ha => omega
  | two hlow _ _ => omega
  | three hab _ =>
    have h := beginsThree_iff.mp hab
    omega
  | four hab _ _ =>
    have h := beginsFour_iff.mp hab
    omega

/-! ## One step -/

theorem firstChar?_eq_some_iff {content : List UInt8} {c : Char} :
    firstChar? content = some c ↔ String.utf8EncodeChar c <+: content := by
  constructor
  · intro h
    obtain ⟨rest, hrest⟩ := ByteArray.exists_of_utf8DecodeChar?_eq_some h
    have hlist := congrArg (fun bytes : ByteArray => bytes.data.toList) hrest
    simp only [List.data_toByteArray, ByteArray.data_append, Array.toList_append] at hlist
    exact ⟨rest.data.toList, hlist.symm⟩
  · rintro ⟨rest, rfl⟩
    exact firstChar?_encode c rest

/-- What the front of some bytes is read as, and how many of them. -/
def lossyStep (content : List UInt8) : Char × Nat :=
  match firstChar? content with
  | some c => (c, c.utf8Size)
  | none => ('\uFFFD', invalidLength content)

theorem invalidLength_pos (content : List UInt8) : 0 < invalidLength content := by
  unfold invalidLength
  split
  · split_ifs <;> decide
  · split_ifs <;> decide
  · decide

theorem lossyStep_pos (content : List UInt8) : 0 < (lossyStep content).2 := by
  unfold lossyStep
  split
  · exact Char.utf8Size_pos _
  · exact invalidLength_pos content

theorem lossyChars_fuel {fuel : Nat} {content : List UInt8} (h : content.length ≤ fuel) :
    lossyChars fuel content = fromUtf8Lossy content := by
  unfold fromUtf8Lossy
  induction hn : content.length using Nat.strong_induction_on generalizing fuel content with
  | _ n ih =>
    cases content with
    | nil =>
      subst hn
      cases fuel <;> rfl
    | cons b rest =>
      subst hn
      cases fuel with
      | zero => cases h
      | succ fuel =>
        have hstep : ∀ count, 0 < count →
            lossyChars fuel ((b :: rest).drop count) =
              lossyChars rest.length ((b :: rest).drop count) := by
          intro count hcount
          rw [List.length_cons] at h
          have hshort : ((b :: rest).drop count).length ≤ rest.length := by
            rw [List.length_drop, List.length_cons]
            omega
          rw [ih _ (by rw [List.length_cons]; omega) (by omega) rfl,
            ih _ (by rw [List.length_cons]; omega) hshort rfl]
        rw [List.length_cons, lossyChars, lossyChars]
        cases firstChar? (b :: rest) with
        | some c =>
          dsimp only
          rw [hstep _ c.utf8Size_pos]
        | none =>
          dsimp only
          rw [hstep _ (invalidLength_pos _)]

@[simp] theorem fromUtf8Lossy_nil : fromUtf8Lossy [] = [] := rfl

theorem fromUtf8Lossy_of_ne_nil {content : List UInt8} (h : content ≠ []) :
    fromUtf8Lossy content =
      (lossyStep content).1 :: fromUtf8Lossy (content.drop (lossyStep content).2) := by
  cases content with
  | nil => exact absurd rfl h
  | cons b rest =>
    have hshort : ∀ count, 0 < count → ((b :: rest).drop count).length ≤ rest.length := by
      intro count hcount
      rw [List.length_drop, List.length_cons]
      omega
    rw [fromUtf8Lossy, List.length_cons, lossyChars, lossyStep]
    cases firstChar? (b :: rest) with
    | some c => exact congrArg _ (lossyChars_fuel (hshort _ c.utf8Size_pos))
    | none => exact congrArg _ (lossyChars_fuel (hshort _ (invalidLength_pos _)))

/-- The bytes that one step reads are there, and all but the first are continuation bytes. -/
theorem lossyStep_read {content : List UInt8} (h : content ≠ []) :
    (lossyStep content).2 ≤ content.length ∧
      ∀ b ∈ (content.take (lossyStep content).2).tail, isContinuation b = true := by
  unfold lossyStep
  cases hfirst : firstChar? content with
  | some c =>
    have hencoded := firstChar?_eq_some_iff.mp hfirst
    have hlength := hencoded.length_le
    rw [String.length_utf8EncodeChar] at hlength
    refine ⟨hlength, ?_⟩
    have htake : content.take c.utf8Size = String.utf8EncodeChar c := by
      rw [← String.length_utf8EncodeChar c]
      exact (List.prefix_iff_eq_take.mp hencoded).symm
    rw [htake]
    exact (encodedForm_encodeChar c).tail
  | none =>
    have hsecond : ∀ {a b : UInt8} (rest : List UInt8),
        (beginsFour a b || beginsThree a b) = true →
          ∀ y ∈ ((a :: b :: rest).take 2).tail, isContinuation y = true := by
      intro a b rest htwo y hy
      rw [List.mem_singleton.mp hy]
      rcases Bool.or_eq_true _ _ |>.mp htwo with hfour | hthree
      · exact continuation_of_beginsFour hfour
      · exact continuation_of_beginsThree hthree
    dsimp only
    unfold invalidLength
    split
    · rename_i a b c rest
      split_ifs with hthree htwo
      · rw [Bool.and_eq_true] at hthree
        refine ⟨by simp, ?_⟩
        intro y hy
        simp only [List.take_succ_cons, List.take_zero, List.tail_cons, List.mem_cons,
          List.not_mem_nil, or_false] at hy
        rcases hy with rfl | rfl
        · exact continuation_of_beginsFour hthree.1
        · exact hthree.2
      · exact ⟨by simp, hsecond _ htwo⟩
      · exact ⟨by simp, fun y hy => by simp at hy⟩
    · rename_i a b
      split_ifs with htwo
      · exact ⟨by simp, hsecond _ htwo⟩
      · exact ⟨by simp, fun y hy => by simp at hy⟩
    · have hone : 1 ≤ content.length := List.length_pos_iff.mpr h
      refine ⟨hone, ?_⟩
      intro y hy
      cases content with
      | nil => cases hy
      | cons b rest => simp at hy

/-- A continuation byte is read alone. -/
theorem lossyStep_continuation {b : UInt8} {rest : List UInt8} (h : isContinuation b = true) :
    lossyStep (b :: rest) = ('\uFFFD', 1) := by
  have hnone : firstChar? (b :: rest) = none := by
    rw [Option.eq_none_iff_forall_not_mem]
    intro c hc
    have hencoded := firstChar?_eq_some_iff.mp hc
    have hform := encodedForm_encodeChar c
    cases hbytes : String.utf8EncodeChar c with
    | nil => exact hform.ne_nil hbytes
    | cons first others =>
      rw [hbytes] at hform hencoded
      rw [List.cons_prefix_cons] at hencoded
      rw [hencoded.1] at hform
      exact hform.head h
  rw [isContinuation_iff] at h
  have hfour : ∀ other, beginsFour b other = false := by
    intro other
    rw [← Bool.not_eq_true, beginsFour_iff]
    omega
  have hthree : ∀ other, beginsThree b other = false := by
    intro other
    rw [← Bool.not_eq_true, beginsThree_iff]
    omega
  have hlength : invalidLength (b :: rest) = 1 := by
    unfold invalidLength
    split
    · rename_i heq
      cases heq
      simp [hfour, hthree]
    · rename_i heq
      cases heq
      simp [hfour, hthree]
    · rfl
  rw [lossyStep, hnone, hlength]

/-- Each of some continuation bytes in front is one character. -/
theorem length_lossy_continuations (k : Nat) {content : List UInt8} (hk : k ≤ content.length)
    (h : ∀ b ∈ content.take k, isContinuation b = true) :
    (fromUtf8Lossy content).length = k + (fromUtf8Lossy (content.drop k)).length := by
  induction k generalizing content with
  | zero => rw [List.drop_zero, Nat.zero_add]
  | succ k ih =>
    cases content with
    | nil => cases hk
    | cons b rest =>
      rw [List.take_succ_cons] at h
      rw [List.length_cons] at hk
      have hrest := ih (Nat.le_of_succ_le_succ hk) fun y hy => h y (List.mem_cons_of_mem b hy)
      rw [fromUtf8Lossy_of_ne_nil (List.cons_ne_nil b rest),
        lossyStep_continuation (h b List.mem_cons_self), List.length_cons,
        List.drop_succ_cons, List.drop_succ_cons, List.drop_zero, hrest]
      omega

/-! ## A cut -/

/-- The end of the first bytes and the first of the others begin one character. -/
def CutsCharacter (left right : List UInt8) : Prop :=
  ∃ part next c, part ≠ [] ∧ part <:+ left ∧ right.head? = some next ∧
    part ++ [next] <+: String.utf8EncodeChar c

section Cut

variable {left right : List UInt8}

/-- The bytes in front of the cut are all in the character. -/
def CutsFirst (left right : List UInt8) : Prop :=
  ∃ next c, right.head? = some next ∧ left ++ [next] <+: String.utf8EncodeChar c

theorem CutsFirst.cutsCharacter (hleft : left ≠ []) (h : CutsFirst left right) :
    CutsCharacter left right := by
  obtain ⟨next, c, hnext, hencoded⟩ := h
  exact ⟨left, next, c, hleft, List.suffix_refl left, hnext, hencoded⟩

/-- A part of a character is not a character. -/
theorem firstChar?_of_part {part more : List UInt8} {c : Char} (hmore : more ≠ [])
    (h : part ++ more = String.utf8EncodeChar c) : firstChar? part = none := by
  rw [Option.eq_none_iff_forall_not_mem]
  intro other hother
  have hencoded := firstChar?_eq_some_iff.mp hother
  have hwhole : String.utf8EncodeChar other <+: String.utf8EncodeChar c ++ [] := by
    rw [List.append_nil, ← h]
    exact hencoded.trans (List.prefix_append part more)
  have hsame := firstChar?_eq_some_iff.mpr hwhole
  rw [firstChar?_encode c [], Option.some_inj] at hsame
  subst hsame
  have hlength := hencoded.length_le
  rw [← h, List.length_append] at hlength
  exact hmore (List.length_eq_zero_iff.mp (by omega))

/-- Beyond a cut the first step reads as it did, and reads no more. -/
theorem lossyStep_append (hleft : left ≠ []) (h : ¬CutsFirst left right) :
    lossyStep (left ++ right) = lossyStep left := by
  unfold lossyStep
  cases hfirst : firstChar? left with
  | some c =>
    have hencoded := firstChar?_eq_some_iff.mp hfirst
    have hwhole := firstChar?_eq_some_iff.mpr
      (hencoded.trans (List.prefix_append left right))
    rw [hwhole]
  | none =>
    cases hboth : firstChar? (left ++ right) with
    | some c =>
      exfalso
      have hencoded := firstChar?_eq_some_iff.mp hboth
      by_cases hshort : (String.utf8EncodeChar c).length ≤ left.length
      · have hin : String.utf8EncodeChar c <+: left :=
          List.prefix_of_prefix_length_le hencoded (List.prefix_append left right) hshort
        rw [firstChar?_eq_some_iff.mpr hin] at hfirst
        cases hfirst
      · have hover : left <+: String.utf8EncodeChar c :=
          List.prefix_of_prefix_length_le (List.prefix_append left right) hencoded
            (Nat.le_of_not_le hshort)
        obtain ⟨more, hmore⟩ := hover
        cases more with
        | nil =>
          apply hshort
          rw [← hmore, List.append_nil]
        | cons next more =>
          apply h
          rw [← hmore, List.prefix_append_right_inj] at hencoded
          obtain ⟨rest, hrest⟩ := hencoded
          refine ⟨next, c, by rw [← hrest]; rfl, more, ?_⟩
          rw [← hmore, List.append_assoc]
          rfl
    | none =>
      have hlength : invalidLength (left ++ right) = invalidLength left := by
        match left, hleft with
        | [a], _ =>
          cases right with
          | nil => rfl
          | cons b right =>
            have hfour : beginsFour a b = false := by
              rw [← Bool.not_eq_true]
              intro hfour
              obtain ⟨c, d, hc⟩ := encodes_four hfour
                (show isContinuation 0x80 = true from rfl)
              exact h ⟨b, c, rfl, by rw [hc]; exact ⟨[0x80, d], rfl⟩⟩
            have hthree : beginsThree a b = false := by
              rw [← Bool.not_eq_true]
              intro hthree
              obtain ⟨c, d, hc⟩ := encodes_three hthree
              exact h ⟨b, c, rfl, by rw [hc]; exact ⟨[d], rfl⟩⟩
            cases right with
            | nil => simp [invalidLength, hfour, hthree]
            | cons c right => simp [invalidLength, hfour, hthree]
        | [a, b], _ =>
          cases right with
          | nil => rfl
          | cons c right =>
            have hcontinued : (beginsFour a b && isContinuation c) = false := by
              rw [← Bool.not_eq_true, Bool.and_eq_true]
              rintro ⟨hfour, hc⟩
              obtain ⟨char, d, hchar⟩ := encodes_four hfour hc
              exact h ⟨c, char, rfl, by rw [hchar]; exact ⟨[d], rfl⟩⟩
            simp only [List.cons_append, List.nil_append, invalidLength, hcontinued,
              Bool.false_eq_true, if_false]
        | a :: b :: c :: rest, _ => rfl
      simp only [hlength]

/-- A cut part is read as one character by itself, and further with what follows. -/
theorem lossyStep_of_cutsFirst (hleft : left ≠ []) (h : CutsFirst left right) :
    lossyStep left = ('\uFFFD', left.length) ∧ left.length < (lossyStep (left ++ right)).2 := by
  obtain ⟨next, c, hnext, more, hmore⟩ := h
  obtain ⟨rest, rfl⟩ : ∃ rest, right = next :: rest := by
    cases right with
    | nil => cases hnext
    | cons first rest =>
      cases hnext
      exact ⟨rest, rfl⟩
  have hnone : firstChar? left = none := by
    apply firstChar?_of_part (List.cons_ne_nil next more)
    rw [← hmore, List.append_assoc]
    rfl
  have hwhole : more = [] → firstChar? (left ++ next :: rest) = some c := by
    rintro rfl
    rw [firstChar?_eq_some_iff, ← hmore, List.append_nil]
    exact ⟨rest, by rw [List.append_assoc]; rfl⟩
  have hover : ∀ other, firstChar? (left ++ next :: rest) = some other →
      left.length < other.utf8Size := by
    intro other hother
    have hencoded := firstChar?_eq_some_iff.mp hother
    rw [← String.length_utf8EncodeChar other]
    by_contra hshort
    have hin : String.utf8EncodeChar other <+: left :=
      List.prefix_of_prefix_length_le hencoded (List.prefix_append left _)
        (Nat.le_of_not_lt hshort)
    rw [firstChar?_eq_some_iff.mpr hin] at hnone
    cases hnone
  have hform := encodedForm_encodeChar c
  rw [← hmore] at hform
  -- how much of a form is in front of the cut
  have hlengths : invalidLength left = left.length ∧
      (more ≠ [] → left.length < invalidLength (left ++ next :: rest)) := by
    match left, hleft with
    | [a], _ =>
      refine ⟨rfl, fun hne => ?_⟩
      match more, hne with
      | [d], _ =>
        cases hform with
        | three hab _ =>
          cases rest with
          | nil => simp [invalidLength, hab]
          | cons e rest =>
            simp only [List.cons_append, List.nil_append, invalidLength, hab,
              Bool.or_true, if_true, List.length_singleton]
            split_ifs <;> omega
      | [d, e], _ =>
        cases hform with
        | four hab _ _ =>
          cases rest with
          | nil => simp [invalidLength, hab]
          | cons e rest =>
            simp only [List.cons_append, List.nil_append, invalidLength, hab,
              Bool.true_or, if_true, List.length_singleton]
            split_ifs <;> omega
      | d :: e :: f :: others, _ => cases hform
    | [a, b], _ =>
      match more with
      | [] =>
        cases hform with
        | three hab _ => exact ⟨by simp [invalidLength, hab], fun hne => absurd rfl hne⟩
      | [d] =>
        cases hform with
        | four hab hc _ =>
          exact ⟨by simp [invalidLength, hab], fun _ => by simp [invalidLength, hab, hc]⟩
      | d :: e :: others => cases hform
    | [a, b, d], _ =>
      match more with
      | [] =>
        cases hform with
        | four hab hc _ =>
          exact ⟨by simp [invalidLength, hab, hc], fun hne => absurd rfl hne⟩
      | d :: others => cases hform
    | a :: b :: d :: e :: others, _ =>
      have hfour := hform.length_le
      simp only [List.length_append, List.length_cons, List.length_nil] at hfour
      omega
  constructor
  · unfold lossyStep
    rw [hnone, hlengths.1]
  · unfold lossyStep
    cases hboth : firstChar? (left ++ next :: rest) with
    | some other => exact hover other hboth
    | none =>
      apply hlengths.2
      intro hnil
      rw [hwhole hnil] at hboth
      cases hboth

/-- Behind the first step the cut is what it was. -/
theorem cutsCharacter_drop (hleft : left ≠ []) (h : ¬CutsFirst left right) :
    CutsCharacter left right ↔ CutsCharacter (left.drop (lossyStep left).2) right := by
  constructor
  · rintro ⟨part, next, c, hpart, hsuffix, hnext, hencoded⟩
    refine ⟨part, next, c, hpart, ?_, hnext, hencoded⟩
    by_contra hlonger
    -- the part would begin inside the first step
    obtain ⟨front, hfront⟩ := hsuffix
    have hinside : front.length < (lossyStep left).2 := by
      by_contra houtside
      apply hlonger
      rw [← hfront, List.drop_append_of_le_length (by rw [hfront]; omega)]
      exact List.suffix_append _ _
    cases front with
    | nil =>
      rw [List.nil_append] at hfront
      subst hfront
      exact h ⟨next, c, hnext, hencoded⟩
    | cons first front =>
      cases part with
      | nil => exact hpart rfl
      | cons start part =>
        have hmem : start ∈ (left.take (lossyStep left).2).tail := by
          obtain ⟨m, hm⟩ := Nat.exists_eq_add_of_lt hinside
          have htake : left.take (lossyStep left).2 =
              first :: (front ++ (start :: part).take (m + 1)) := by
            rw [hm, ← hfront, Nat.add_assoc, List.take_length_add_append]
            rfl
          rw [htake, List.tail_cons, List.take_succ_cons]
          exact List.mem_append_right front List.mem_cons_self
        have hcontinuation := (lossyStep_read hleft).2 start hmem
        obtain ⟨more, hmore⟩ := hencoded
        have hform := encodedForm_encodeChar c
        rw [← hmore] at hform
        exact hform.head hcontinuation
  · rintro ⟨part, next, c, hpart, hsuffix, hnext, hencoded⟩
    exact ⟨part, next, c, hpart, hsuffix.trans (List.drop_suffix _ left), hnext, hencoded⟩

/-- The text of the whole is the text of the pieces, unless a character is cut: then it is
shorter. -/
theorem fromUtf8Lossy_append (left right : List UInt8) :
    (¬CutsCharacter left right →
      fromUtf8Lossy (left ++ right) = fromUtf8Lossy left ++ fromUtf8Lossy right) ∧
    (CutsCharacter left right → (fromUtf8Lossy (left ++ right)).length <
      (fromUtf8Lossy left).length + (fromUtf8Lossy right).length) := by
  induction hn : left.length using Nat.strong_induction_on generalizing left with
  | _ n ih =>
    by_cases hleft : left = []
    · subst hleft
      refine ⟨fun _ => rfl, ?_⟩
      rintro ⟨part, next, c, hpart, hsuffix, -, -⟩
      exact absurd (List.suffix_nil.mp hsuffix) hpart
    · have hboth : left ++ right ≠ [] := by
        intro hnil
        exact hleft (List.append_eq_nil_iff.mp hnil).1
      by_cases hfirst : CutsFirst left right
      · refine ⟨fun h => absurd (hfirst.cutsCharacter hleft) h, fun _ => ?_⟩
        obtain ⟨halone, hmore⟩ := lossyStep_of_cutsFirst hleft hfirst
        obtain ⟨hread, hcontinued⟩ := lossyStep_read hboth
        obtain ⟨k, hk⟩ := Nat.exists_eq_add_of_lt hmore
        rw [hk, List.length_append] at hread
        have hrun : ∀ b ∈ right.take (k + 1), isContinuation b = true := by
          intro b hb
          apply hcontinued
          cases left with
          | nil => exact absurd rfl hleft
          | cons a left =>
            rw [hk, Nat.add_assoc, List.take_length_add_append]
            exact List.mem_append_right left hb
        have hright := length_lossy_continuations (k + 1) (by omega) hrun
        rw [fromUtf8Lossy_of_ne_nil hboth, fromUtf8Lossy_of_ne_nil hleft, halone, hright,
          List.drop_length, hk, List.length_cons, List.length_cons, fromUtf8Lossy_nil]
        have hdrop : (left ++ right).drop (left.length + k + 1) = right.drop (k + 1) := by
          rw [Nat.add_assoc, List.drop_append, List.drop_eq_nil_of_le (by omega)]
          simp
        rw [hdrop, List.length_nil]
        omega
      · have hstep := lossyStep_append hleft hfirst
        obtain ⟨hread, -⟩ := lossyStep_read hleft
        have hpos := lossyStep_pos left
        have hshort : (left.drop (lossyStep left).2).length < n := by
          rw [List.length_drop]
          have hlength := List.length_pos_iff.mpr hleft
          omega
        obtain ⟨hsame, hless⟩ := ih _ hshort _ rfl
        rw [cutsCharacter_drop hleft hfirst, fromUtf8Lossy_of_ne_nil hboth,
          fromUtf8Lossy_of_ne_nil hleft, hstep, List.drop_append_of_le_length hread]
        constructor
        · intro h
          rw [hsame h]
          rfl
        · intro h
          have hlt := hless h
          rw [List.length_cons, List.length_cons]
          omega

end Cut

/-! ## Many pieces -/

/-- No character is cut between two pieces. -/
def KeepsCharacters : List (List UInt8) → Prop
  | [] => True
  | piece :: pieces => ¬CutsCharacter piece pieces.flatten ∧ KeepsCharacters pieces

theorem length_lossy_flatten_le (pieces : List (List UInt8)) :
    (fromUtf8Lossy pieces.flatten).length ≤ (pieces.flatMap fromUtf8Lossy).length := by
  induction pieces with
  | nil => exact Nat.le_refl _
  | cons piece pieces ih =>
    rw [List.flatten_cons, List.flatMap_cons, List.length_append]
    by_cases hcut : CutsCharacter piece pieces.flatten
    · have hlt := (fromUtf8Lossy_append piece pieces.flatten).2 hcut
      omega
    · rw [(fromUtf8Lossy_append piece pieces.flatten).1 hcut, List.length_append]
      omega

/-- The texts of the pieces are the text of the whole exactly if no character is cut. -/
theorem flatMap_fromUtf8Lossy_iff (pieces : List (List UInt8)) :
    pieces.flatMap fromUtf8Lossy = fromUtf8Lossy pieces.flatten ↔ KeepsCharacters pieces := by
  induction pieces with
  | nil => exact iff_of_true rfl trivial
  | cons piece pieces ih =>
    have hle := length_lossy_flatten_le pieces
    rw [KeepsCharacters, ← ih, List.flatten_cons, List.flatMap_cons]
    constructor
    · intro h
      by_cases hcut : CutsCharacter piece pieces.flatten
      · have hlt := (fromUtf8Lossy_append piece pieces.flatten).2 hcut
        have hlength := congrArg List.length h
        rw [List.length_append] at hlength
        omega
      · rw [(fromUtf8Lossy_append piece pieces.flatten).1 hcut] at h
        exact ⟨hcut, List.append_cancel_left h⟩
    · rintro ⟨hcut, h⟩
      rw [(fromUtf8Lossy_append piece pieces.flatten).1 hcut, h]

end DevRelay.Lib
