import DevRelay.Backup.Generation
import DevRelay.Lib.FlatJson
import DevRelay.Lib.TextBytes
import DevRelay.Trust.Pairing

/-!
# Keys as texts

Keys and signatures travel as hexadecimal texts.  They are written in lower case and read in
either case, so a text that was read need not be the text that is written for the same bytes.
-/

namespace DevRelay.Trust

open DevRelay.Backup DevRelay.Core DevRelay.Lib

/-- The two digits of a byte. -/
def byteDigits (byte : UInt8) : List Char :=
  [lowerHexDigit (byte.toNat / 16), lowerHexDigit (byte.toNat % 16)]

def hexEncode (bytes : List UInt8) : String := String.ofList (bytes.flatMap byteDigits)

/-- `decode_hex_array::<N>` -/
def decodeHexArray (n : Nat) (field value : String) : Except DevRelayError (List UInt8) :=
  decodeFixedHex n field value

def decodeKeyHex (field value : String) : Except DevRelayError (List UInt8) :=
  decodeFixedHex 32 field value

/-- All digits in lower case. -/
def IsLowerHex (value : String) : Prop := value.toList.all isLowerHexdigit = true

instance (value : String) : Decidable (IsLowerHex value) := inferInstanceAs (Decidable (_ = true))

/-! ## Digits -/

/-- The byte of an ASCII character. -/
def asciiByte (c : Char) : UInt8 := UInt8.ofNat c.toNat

theorem ofNat_toNat_lt {c : Char} (h : c.toNat < 128) : ∃ n : Fin 128, c = Char.ofNat n.val :=
  ⟨⟨c.toNat, h⟩, (Char.ofNat_toNat c).symm⟩

theorem toNat_lt_of_isHexDigit {c : Char} (h : isHexDigit c = true) : c.toNat < 128 := by
  simp only [isHexDigit, Bool.or_eq_true, Bool.and_eq_true, decide_eq_true_eq, Char.le_def,
    UInt32.le_iff_toNat_le] at h
  have hnat : c.toNat = c.val.toNat := rfl
  have hnine : '9'.val.toNat = 57 := rfl
  have hf : 'f'.val.toNat = 102 := rfl
  have hF : 'F'.val.toNat = 70 := rfl
  omega

theorem isHexDigit_of_isLowerHexdigit {c : Char} (h : isLowerHexdigit c = true) :
    isHexDigit c = true := by
  rw [isLowerHexdigit] at h
  rw [isHexDigit, h, Bool.true_or]

/-- A digit is read in either case. -/
theorem hexDigit?_isSome {c : Char} (h : isHexDigit c = true) :
    ∃ d, hexDigit? (asciiByte c) = some d ∧ d.toNat < 16 ∧
      (isLowerHexdigit c = true → lowerHexDigit d.toNat = c) := by
  obtain ⟨n, rfl⟩ := ofNat_toNat_lt (toNat_lt_of_isHexDigit h)
  have hall : ∀ n : Fin 128, isHexDigit (Char.ofNat n.val) = true →
      (hexDigit? (asciiByte (Char.ofNat n.val))).any (fun d => d.toNat < 16 &&
        (!isLowerHexdigit (Char.ofNat n.val) || lowerHexDigit d.toNat = Char.ofNat n.val)) =
          true := by decide
  obtain ⟨d, hd, hvalue⟩ := (Option.any_eq_true _ _).mp (hall n h)
  simp only [Bool.and_eq_true, decide_eq_true_eq, Bool.or_eq_true, Bool.not_eq_true'] at hvalue
  refine ⟨d, hd, hvalue.1, fun hlower => ?_⟩
  rcases hvalue.2 with hupper | hsame
  · rw [hlower] at hupper
    cases hupper
  · exact hsame

theorem lowerHexDigit_spec {d : Nat} (h : d < 16) :
    isLowerHexdigit (lowerHexDigit d) = true ∧
      hexDigit? (asciiByte (lowerHexDigit d)) = some (UInt8.ofNat d) := by
  have hall : ∀ d : Fin 16, isLowerHexdigit (lowerHexDigit d.val) = true ∧
      hexDigit? (asciiByte (lowerHexDigit d.val)) = some (UInt8.ofNat d.val) := by decide
  exact hall ⟨d, h⟩

/-- Two digits make a byte. -/
theorem toNat_digits {high low : UInt8} (hhigh : high.toNat < 16) (hlow : low.toNat < 16) :
    (high <<< 4 ||| low).toNat = 16 * high.toNat + low.toNat := by
  have hall : ∀ h l : Fin 16, (UInt8.ofNat h.val <<< 4 ||| UInt8.ofNat l.val).toNat =
      16 * h.val + l.val := by decide
  have h := hall ⟨high.toNat, hhigh⟩ ⟨low.toNat, hlow⟩
  simp only [UInt8.ofNat_toNat] at h
  exact h

/-! ## Texts -/

/-- The bytes of an ASCII text are its characters. -/
theorem utf8_of_ascii {value : String} (h : ∀ c ∈ value.toList, c.toNat < 128) :
    value.toByteArray.data.toList = value.toList.map asciiByte := by
  have hbytes : value.toByteArray.data.toList = utf8 value := rfl
  rw [hbytes, utf8_eq_flatMap]
  generalize value.toList = chars at h
  induction chars with
  | nil => rfl
  | cons c chars ih =>
    obtain ⟨hc, hrest⟩ := List.forall_mem_cons.mp h
    rw [List.flatMap_cons, List.map_cons, ih hrest]
    have hone : String.utf8EncodeChar c = [asciiByte c] := by
      unfold String.utf8EncodeChar
      dsimp only
      rw [if_pos (show c.val.toNat ≤ 127 from Nat.le_of_lt_succ hc)]
      rfl
    rw [hone]
    rfl

theorem utf8ByteSize_of_ascii {value : String} (h : ∀ c ∈ value.toList, c.toNat < 128) :
    value.utf8ByteSize = value.toList.length := by
  have hsize : value.utf8ByteSize = value.toByteArray.data.toList.length := rfl
  rw [hsize, utf8_of_ascii h, List.length_map]

theorem ascii_of_hexDigits {chars : List Char} (h : chars.all isHexDigit = true) :
    ∀ c ∈ chars, c.toNat < 128 := fun c hc =>
  toNat_lt_of_isHexDigit (List.all_eq_true.mp h c hc)

/-- Pairs of digits are read, and written back in lower case. -/
theorem decodeHexPairs_digits (n : Nat) : ∀ {chars : List Char}, chars.length = 2 * n →
    chars.all isHexDigit = true →
    ∃ bytes, decodeHexPairs (chars.map asciiByte) = some bytes ∧ bytes.length = n ∧
      (chars.all isLowerHexdigit = true → bytes.flatMap byteDigits = chars) := by
  induction n with
  | zero =>
    intro chars hlength _
    have hnil : chars = [] := List.length_eq_zero_iff.mp hlength
    subst hnil
    exact ⟨[], rfl, rfl, fun _ => rfl⟩
  | succ n ih =>
    intro chars hlength hdigits
    match chars, hlength with
    | a :: b :: rest, hlength =>
      simp only [List.all_cons, Bool.and_eq_true] at hdigits
      obtain ⟨ha, hb, hrest⟩ := hdigits
      have hrestLength : rest.length = 2 * n := by
        simp only [List.length_cons] at hlength
        omega
      obtain ⟨high, hhigh, hhighLt, hhighLower⟩ := hexDigit?_isSome ha
      obtain ⟨low, hlow, hlowLt, hlowLower⟩ := hexDigit?_isSome hb
      obtain ⟨bytes, hbytes, hcount, hback⟩ := ih hrestLength hrest
      refine ⟨(high <<< 4 ||| low) :: bytes, ?_, by rw [List.length_cons, hcount], ?_⟩
      · rw [List.map_cons, List.map_cons, decodeHexPairs, hhigh, hlow, hbytes]
        rfl
      · intro hlower
        simp only [List.all_cons, Bool.and_eq_true] at hlower
        obtain ⟨haLower, hbLower, hrestLower⟩ := hlower
        have hvalue := toNat_digits hhighLt hlowLt
        have hhighPart : (high <<< 4 ||| low).toNat / 16 = high.toNat := by omega
        have hlowPart : (high <<< 4 ||| low).toNat % 16 = low.toNat := by omega
        rw [List.flatMap_cons, hback hrestLower, byteDigits, hhighPart, hlowPart,
          hhighLower haLower, hlowLower hbLower]
        rfl

theorem all_isLowerHexdigit_digits (bytes : List UInt8) :
    (bytes.flatMap byteDigits).all isLowerHexdigit = true := by
  rw [List.all_eq_true]
  intro c hc
  obtain ⟨byte, -, hdigit⟩ := List.mem_flatMap.mp hc
  have hlt := byte.toNat_lt
  rcases List.mem_cons.mp hdigit with rfl | hlow
  · exact (lowerHexDigit_spec (by omega)).1
  · cases List.mem_singleton.mp hlow
    exact (lowerHexDigit_spec (by omega)).1

theorem length_digits (bytes : List UInt8) :
    (bytes.flatMap byteDigits).length = 2 * bytes.length := by
  induction bytes with
  | nil => rfl
  | cons byte bytes ih =>
    rw [List.flatMap_cons, List.length_append, ih, List.length_cons]
    show 2 + 2 * bytes.length = 2 * (bytes.length + 1)
    omega

/-- What is written is read back. -/
theorem decodeHexPairs_byteDigits (bytes : List UInt8) :
    decodeHexPairs ((bytes.flatMap byteDigits).map asciiByte) = some bytes := by
  induction bytes with
  | nil => rfl
  | cons byte bytes ih =>
    have hlt := byte.toNat_lt
    have hhigh := (lowerHexDigit_spec (d := byte.toNat / 16) (by omega)).2
    have hlow := (lowerHexDigit_spec (d := byte.toNat % 16) (by omega)).2
    have hbyte : UInt8.ofNat (byte.toNat / 16) <<< 4 ||| UInt8.ofNat (byte.toNat % 16) = byte := by
      apply UInt8.toNat_inj.mp
      have hdiv : (UInt8.ofNat (byte.toNat / 16)).toNat = byte.toNat / 16 := by
        rw [UInt8.toNat_ofNat']
        omega
      have hmod : (UInt8.ofNat (byte.toNat % 16)).toNat = byte.toNat % 16 := by
        rw [UInt8.toNat_ofNat']
        omega
      rw [toNat_digits (by omega) (by omega), hdiv, hmod]
      omega
    rw [List.flatMap_cons, byteDigits, List.cons_append, List.cons_append, List.nil_append,
      List.map_cons, List.map_cons, decodeHexPairs, hhigh, hlow, ih]
    show some ((UInt8.ofNat (byte.toNat / 16) <<< 4 ||| UInt8.ofNat (byte.toNat % 16)) :: bytes) =
      some (byte :: bytes)
    rw [hbyte]

theorem hexEncode_injective : Function.Injective hexEncode := by
  intro a b h
  have hdigits := congrArg (fun text => decodeHexPairs (text.map asciiByte))
    (String.ofList_inj.mp h)
  simp only [decodeHexPairs_byteDigits] at hdigits
  exact Option.some.inj hdigits

theorem isLowerHex_hexEncode (bytes : List UInt8) : IsLowerHex (hexEncode bytes) := by
  rw [IsLowerHex, hexEncode, String.toList_ofList]
  exact all_isLowerHexdigit_digits bytes

/-- A text that the pairing accepts is a key for the other readers too; it is the text of its
bytes exactly when it is in lower case. -/
theorem decodeFixedHex_of_hexDigits {n : Nat} (field : String) {value : String}
    (hsize : value.utf8ByteSize = n * 2) (hdigits : value.toList.all isHexDigit = true) :
    ∃ bytes, decodeFixedHex n field value = .ok bytes ∧ bytes.length = n ∧
      (hexEncode bytes = value ↔ IsLowerHex value) := by
  have hascii := ascii_of_hexDigits hdigits
  have hlength : value.toList.length = 2 * n := by
    rw [← utf8ByteSize_of_ascii hascii, hsize, Nat.mul_comm]
  obtain ⟨bytes, hbytes, hcount, hback⟩ := decodeHexPairs_digits n hlength hdigits
  refine ⟨bytes, ?_, hcount, ?_, ?_⟩
  · rw [decodeFixedHex, if_neg (not_not.mpr hsize), utf8_of_ascii hascii, hbytes]
  · intro hsame
    rw [← hsame]
    exact isLowerHex_hexEncode bytes
  · intro hlower
    rw [hexEncode, hback hlower, String.ofList_toList]

theorem validateKeyHex_of_digits (name : String) {value : String}
    (hlength : value.toList.length = 64) (hdigits : value.toList.all isHexDigit = true) :
    validateKeyHex name value = .ok () := by
  have hsize : value.utf8ByteSize = 64 := by
    rw [utf8ByteSize_of_ascii (ascii_of_hexDigits hdigits), hlength]
  unfold validateKeyHex
  rw [if_neg (by rw [not_or, not_not, not_not]; exact ⟨hsize, hdigits⟩)]

theorem decodeFixedHex_of_validateKeyHex {name value : String} (field : String)
    (h : validateKeyHex name value = .ok ()) :
    ∃ bytes, decodeFixedHex 32 field value = .ok bytes ∧ bytes.length = 32 ∧
      (hexEncode bytes = value ↔ IsLowerHex value) := by
  unfold validateKeyHex at h
  split at h
  · cases h
  · rename_i hchecks
    rw [not_or, not_not, not_not] at hchecks
    exact decodeFixedHex_of_hexDigits field hchecks.1 hchecks.2

theorem all_isHexDigit_hexEncode (bytes : List UInt8) :
    (hexEncode bytes).toList.all isHexDigit = true := by
  rw [List.all_eq_true]
  intro c hc
  exact isHexDigit_of_isLowerHexdigit
    (List.all_eq_true.mp (isLowerHex_hexEncode bytes) c hc)

theorem decodeFixedHex_hexEncode (field : String) (bytes : List UInt8) :
    decodeFixedHex bytes.length field (hexEncode bytes) = .ok bytes := by
  have hascii := ascii_of_hexDigits (all_isHexDigit_hexEncode bytes)
  have hsize : (hexEncode bytes).utf8ByteSize = bytes.length * 2 := by
    rw [utf8ByteSize_of_ascii hascii, hexEncode, String.toList_ofList, length_digits, Nat.mul_comm]
  rw [decodeFixedHex, if_neg (not_not.mpr hsize), utf8_of_ascii hascii, hexEncode,
    String.toList_ofList, decodeHexPairs_byteDigits]

end DevRelay.Trust
