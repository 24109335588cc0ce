import DevRelay.Lib.Framing
import Mathlib.Tactic.Common

/-!
# Texts as bytes

The UTF-8 bytes of a text.  A zero byte in them comes from a zero character, so a text
without one can be ended by a zero byte.
-/

namespace DevRelay.Lib

def utf8 (text : String) : List UInt8 := text.toUTF8.data.toList

theorem utf8_injective : Function.Injective utf8 := by
  intro s t h
  apply String.toByteArray_inj.mp
  apply ByteArray.ext
  exact Array.toList_inj.mp h

theorem zero_notMem_utf8EncodeChar {c : Char} (h : c ≠ '\x00') :
    (0 : UInt8) ∉ String.utf8EncodeChar c := by
  have hpos : c.val.toNat ≠ 0 := by
    intro hzero
    apply h
    apply Char.ext
    apply UInt32.toNat_inj.mp
    rw [hzero]
    rfl
  have hne : ∀ n : Nat, n % 256 ≠ 0 → (0 : UInt8) ≠ UInt8.ofNat n := by
    intro n hn heq
    apply hn
    have hval := congrArg UInt8.toNat heq
    rw [UInt8.toNat_ofNat'] at hval
    exact hval.symm
  unfold String.utf8EncodeChar
  dsimp only
  -- the leading byte and the continuation bytes have their upper bits set
  split_ifs with hone htwo hthree
  · simp only [List.mem_singleton]
    exact hne _ (by omega)
  · simp only [List.mem_cons, List.not_mem_nil, or_false, not_or]
    exact ⟨hne _ (by omega), hne _ (by omega)⟩
  · simp only [List.mem_cons, List.not_mem_nil, or_false, not_or]
    exact ⟨hne _ (by omega), hne _ (by omega), hne _ (by omega)⟩
  · simp only [List.mem_cons, List.not_mem_nil, or_false, not_or]
    exact ⟨hne _ (by omega), hne _ (by omega), hne _ (by omega), hne _ (by omega)⟩

/-- Free of the zero character. -/
def NulFree (text : String) : Prop := '\x00' ∉ text.toList

instance (text : String) : Decidable (NulFree text) :=
  inferInstanceAs (Decidable ('\x00' ∉ text.toList))

theorem utf8_eq_flatMap (text : String) : utf8 text =
    text.toList.flatMap String.utf8EncodeChar := by
  have hbytes : text.toUTF8 = text.toList.utf8Encode := String.utf8Encode_toList.symm
  rw [utf8, hbytes, List.utf8Encode, List.data_toByteArray]

theorem zero_notMem_utf8 {text : String} (h : NulFree text) : (0 : UInt8) ∉ utf8 text := by
  rw [utf8_eq_flatMap, List.mem_flatMap]
  rintro ⟨c, hc, hzero⟩
  refine zero_notMem_utf8EncodeChar ?_ hzero
  intro heq
  exact h (heq ▸ hc)

theorem byte_ge_of_mem_encodeChar {c : Char} (hc : 32 ≤ c.toNat) {b : UInt8}
    (hb : b ∈ String.utf8EncodeChar c) : 32 ≤ b.toNat := by
  have hval : 32 ≤ c.val.toNat := hc
  unfold String.utf8EncodeChar at hb
  generalize c.val.toNat = v at hval hb
  dsimp only at hb
  -- one case for each length of the encoding
  repeat' split at hb
  all_goals
    simp only [List.mem_cons, List.not_mem_nil, or_false] at hb
    rcases hb with rfl | rfl | rfl | rfl
  all_goals
    rw [UInt8.toNat_ofNat']
    omega

/-- An ASCII byte comes from its own character only. -/
theorem toNat_of_mem_encodeChar {c : Char} {b : UInt8} (hb : b.toNat < 128)
    (h : b ∈ String.utf8EncodeChar c) : c.toNat = b.toNat := by
  have hval : c.toNat = c.val.toNat := rfl
  rw [hval]
  unfold String.utf8EncodeChar at h
  generalize c.val.toNat = v at h
  dsimp only at h
  -- the leading byte and the continuation bytes have their upper bits set
  repeat' split at h
  all_goals
    simp only [List.mem_cons, List.not_mem_nil, or_false] at h
    rcases h with rfl | rfl | rfl | rfl
  all_goals
    rw [UInt8.toNat_ofNat'] at hb ⊢
    omega

/-! ## Texts between separators -/

/-- The bytes of characters. -/
def encodeText (text : List Char) : List UInt8 := text.flatMap String.utf8EncodeChar

theorem utf8_ofList (text : List Char) : utf8 (String.ofList text) = encodeText text := by
  rw [utf8_eq_flatMap, String.toList_ofList, encodeText]

@[simp] theorem encodeText_append (first second : List Char) :
    encodeText (first ++ second) = encodeText first ++ encodeText second := List.flatMap_append

theorem encodeText_intercalate {separator : Char} {byte : UInt8}
    (h : String.utf8EncodeChar separator = [byte]) (parts : List (List Char)) :
    encodeText ([separator].intercalate parts) = [byte].intercalate (parts.map encodeText) := by
  have hseparator : encodeText [separator] = [byte] := by
    rw [encodeText, List.flatMap_singleton, h]
  induction parts with
  | nil => rfl
  | cons first rest ih =>
    cases rest with
    | nil => simp
    | cons second rest =>
      rw [List.intercalate_cons_cons, encodeText_append, encodeText_append, ih, hseparator]
      simp only [List.map_cons, List.intercalate_cons_cons]

/-- A text that is cut at an ASCII character is cut at its byte. -/
theorem splitOn_encodeText {separator : Char} {byte : UInt8}
    (h : String.utf8EncodeChar separator = [byte]) (hbyte : byte.toNat < 128) (text : List Char) :
    (encodeText text).splitOn byte = (text.splitOn separator).map encodeText := by
  have hfree : ∀ part ∈ (text.splitOn separator).map encodeText, byte ∉ part := by
    intro part hpart hmem
    obtain ⟨chars, hchars, rfl⟩ := List.mem_map.mp hpart
    obtain ⟨c, hc, hin⟩ := List.mem_flatMap.mp hmem
    have hvalue : c.toNat = separator.toNat := by
      rw [toNat_of_mem_encodeChar hbyte hin,
        toNat_of_mem_encodeChar hbyte (h ▸ List.mem_singleton_self byte)]
    rw [Char.toNat_inj.mp hvalue] at hc
    exact notMem_of_mem_splitOn hchars hc
  have hne : (text.splitOn separator).map encodeText ≠ [] := by
    simp [List.splitOn_ne_nil]
  calc (encodeText text).splitOn byte
      = (encodeText ([separator].intercalate (text.splitOn separator))).splitOn byte := by
        rw [List.intercalate_splitOn]
    _ = ([byte].intercalate ((text.splitOn separator).map encodeText)).splitOn byte := by
        rw [encodeText_intercalate h]
    _ = (text.splitOn separator).map encodeText := List.splitOn_intercalate byte hfree hne

/-! ## Decimal numbers -/

theorem nulFree_toString (n : Nat) : NulFree (toString n) := by
  intro hmem
  rw [Nat.toString_eq_ofList_toDigits, String.toList_ofList] at hmem
  exact absurd (Nat.isDigit_of_mem_toDigits (by decide) (by decide) hmem) (by decide)

theorem toString_nat_injective {m n : Nat} (h : toString m = toString n) : m = n := by
  rw [Nat.toString_eq_ofList_toDigits, Nat.toString_eq_ofList_toDigits, String.ofList_inj] at h
  calc
    m = Nat.ofDigitChars 10 (Nat.toDigits 10 m) 0 := Nat.ofDigitChars_ten_toDigits.symm
    _ = Nat.ofDigitChars 10 (Nat.toDigits 10 n) 0 := by rw [h]
    _ = n := Nat.ofDigitChars_ten_toDigits

end DevRelay.Lib

/-!
## Bytes read as text

`String::from_utf8` and `String::from_utf8_lossy`.  The second replaces each part that is
not UTF-8, as long as it could still have been the beginning of a character, by the
replacement character.  The bytes of a text are read back by both.
-/

namespace DevRelay.Lib

/-- `std::str::from_utf8` -/
def fromUtf8 (content : List UInt8) : Option (List Char) :=
  (String.fromUTF8? ⟨content.toArray⟩).map String.toList

theorem fromUtf8_utf8 (text : String) : fromUtf8 (utf8 text) = some text.toList := by
  have htext : String.fromUTF8? ⟨(utf8 text).toArray⟩ = some text := by
    rw [utf8, Array.toArray_toList, String.fromUTF8?]
    exact dif_pos text.isValidUTF8
  rw [fromUtf8, htext]
  rfl

theorem utf8_of_fromUtf8 {content : List UInt8} {text : List Char}
    (h : fromUtf8 content = some text) : utf8 (String.ofList text) = content := by
  obtain ⟨s, hs, htext⟩ := Option.map_eq_some_iff.mp h
  rw [← htext, String.ofList_toList]
  unfold String.fromUTF8? at hs
  split at hs
  · cases hs
    rfl
  · cases hs

/-- The first character of the bytes. -/
def firstChar? (content : List UInt8) : Option Char := content.toByteArray.utf8DecodeChar? 0

theorem firstChar?_encode (c : Char) (rest : List UInt8) :
    firstChar? (String.utf8EncodeChar c ++ rest) = some c := by
  rw [firstChar?, List.toByteArray_append]
  exact ByteArray.utf8DecodeChar?_utf8EncodeChar_append

def isContinuation (b : UInt8) : Bool := 0x80 ≤ b && b ≤ 0xBF

/-- The first two bytes of a character of three bytes. -/
def beginsThree (a b : UInt8) : Bool :=
  (a = 0xE0 && 0xA0 ≤ b && b ≤ 0xBF) || (0xE1 ≤ a && a ≤ 0xEC && isContinuation b) ||
    (a = 0xED && 0x80 ≤ b && b ≤ 0x9F) || (0xEE ≤ a && a ≤ 0xEF && isContinuation b)

/-- The first two bytes of a character of four bytes. -/
def beginsFour (a b : UInt8) : Bool :=
  (a = 0xF0 && 0x90 ≤ b && b ≤ 0xBF) || (0xF1 ≤ a && a ≤ 0xF3 && isContinuation b) ||
    (a = 0xF4 && 0x80 ≤ b && b ≤ 0x8F)

/-- How many bytes that do not begin with a character are replaced by one. -/
def invalidLength : List UInt8 → Nat
  | a :: b :: c :: _ =>
    if beginsFour a b && isContinuation c then 3
    else if beginsFour a b || beginsThree a b then 2
    else 1
  | [a, b] => if beginsFour a b || beginsThree a b then 2 else 1
  | _ => 1

def lossyChars : Nat → List UInt8 → List Char
  | 0, _ => []
  | _, [] => []
  | fuel + 1, b :: rest =>
    match firstChar? (b :: rest) with
    | some c => c :: lossyChars fuel ((b :: rest).drop c.utf8Size)
    | none => '\uFFFD' :: lossyChars fuel ((b :: rest).drop (invalidLength (b :: rest)))

/-- `String::from_utf8_lossy` -/
def fromUtf8Lossy (content : List UInt8) : List Char := lossyChars content.length content

theorem lossyChars_encode (text : List Char) {fuel : Nat}
    (hfuel : (text.flatMap String.utf8EncodeChar).length ≤ fuel) :
    lossyChars fuel (text.flatMap String.utf8EncodeChar) = text := by
  induction text generalizing fuel with
  | nil => cases fuel <;> rfl
  | cons c text ih =>
    have hsize : (String.utf8EncodeChar c).length = c.utf8Size := String.length_utf8EncodeChar c
    have hpos := c.utf8Size_pos
    rw [List.flatMap_cons, List.length_append] at hfuel
    rw [List.flatMap_cons]
    have hfirst := firstChar?_encode c (text.flatMap String.utf8EncodeChar)
    have hdrop : (String.utf8EncodeChar c ++ text.flatMap String.utf8EncodeChar).drop
        c.utf8Size = text.flatMap String.utf8EncodeChar := by
      rw [← hsize, List.drop_left]
    generalize hcontent : String.utf8EncodeChar c ++ text.flatMap String.utf8EncodeChar =
      content at hfirst hdrop
    have hlength : 0 < content.length := by
      rw [← hcontent, List.length_append]
      omega
    cases content with
    | nil => exact absurd hlength (Nat.lt_irrefl 0)
    | cons b rest =>
      cases fuel with
      | zero => omega
      | succ fuel =>
        rw [lossyChars, hfirst]
        simp only [hdrop]
        rw [ih (by omega)]

theorem fromUtf8Lossy_utf8 (text : String) : fromUtf8Lossy (utf8 text) = text.toList := by
  rw [fromUtf8Lossy, utf8_eq_flatMap]
  exact lossyChars_encode text.toList le_rfl

/-- Where the bytes are a text, both readings agree. -/
theorem fromUtf8Lossy_of_fromUtf8 {content : List UInt8} {text : List Char}
    (h : fromUtf8 content = some text) : fromUtf8Lossy content = text := by
  rw [← utf8_of_fromUtf8 h, fromUtf8Lossy_utf8, String.toList_ofList]

end DevRelay.Lib
