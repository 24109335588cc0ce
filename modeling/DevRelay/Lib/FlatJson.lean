import Mathlib.Data.Char
import Mathlib.Data.List.Basic
import Mathlib.Tactic.Common
import Mathlib.Tactic.IntervalCases

/-!
# Flat JSON objects

The compact text of an object whose values are strings, natural numbers and
nulls, and a reader for exactly these texts.  Reading gives back the fields and
what stands behind the closing brace, so the texts are prefix-free; every
control character is escaped, so a text fits on a line.
-/

namespace DevRelay.Lib

inductive JsonScalar where
  | null
  | number (n : Nat)
  | text (s : List Char)
  deriving DecidableEq, Repr

/-! ## Writing -/

def lowerHexDigit (n : Nat) : Char :=
  if n < 10 then Char.ofNat (48 + n) else Char.ofNat (87 + n)

def escapeChar (c : Char) : List Char :=
  if c = '"' then ['\\', '"']
  else if c = '\\' then ['\\', '\\']
  else if c = '\x08' then ['\\', 'b']
  else if c = '\x0c' then ['\\', 'f']
  else if c = '\n' then ['\\', 'n']
  else if c = '\r' then ['\\', 'r']
  else if c = '\t' then ['\\', 't']
  else if c.toNat < 32 then
    ['\\', 'u', '0', '0', lowerHexDigit (c.toNat / 16), lowerHexDigit (c.toNat % 16)]
  else [c]

def writeText (s : List Char) : List Char := '"' :: (s.flatMap escapeChar ++ ['"'])

def writeScalar : JsonScalar → List Char
  | .null => ['n', 'u', 'l', 'l']
  | .number n => Nat.toDigits 10 n
  | .text s => writeText s

abbrev JsonField := List Char × JsonScalar

def writeField (field : JsonField) : List Char :=
  writeText field.1 ++ ':' :: writeScalar field.2

/-- The fields behind the first one, and the closing brace. -/
def writeRest : List JsonField → List Char
  | [] => ['}']
  | field :: fields => ',' :: (writeField field ++ writeRest fields)

def writeObject (field : JsonField) (fields : List JsonField) : List Char :=
  '{' :: (writeField field ++ writeRest fields)

/-! ## Reading -/

def hexDigitValue? (c : Char) : Option Nat :=
  if '0' ≤ c ∧ c ≤ '9' then some (c.toNat - 48)
  else if 'a' ≤ c ∧ c ≤ 'f' then some (c.toNat - 87)
  else none

/-- The character an escape stands for, and what follows the escape. -/
def readEscape : List Char → Option (Char × List Char)
  | 'u' :: '0' :: '0' :: a :: b :: rest =>
    match hexDigitValue? a, hexDigitValue? b with
    | some x, some y => some (Char.ofNat (16 * x + y), rest)
    | _, _ => none
  | 'b' :: rest => some ('\x08', rest)
  | 'f' :: rest => some ('\x0c', rest)
  | 'n' :: rest => some ('\n', rest)
  | 'r' :: rest => some ('\r', rest)
  | 't' :: rest => some ('\t', rest)
  | '"' :: rest => some ('"', rest)
  | '\\' :: rest => some ('\\', rest)
  | _ => none

/-- Up to the closing quote. -/
def readTextFrom : Nat → List Char → Option (List Char × List Char)
  | 0, _ => none
  | _ + 1, [] => none
  | fuel + 1, c :: rest =>
    if c = '"' then some ([], rest)
    else if c = '\\' then
      (readEscape rest).bind fun (d, rest) =>
        (readTextFrom fuel rest).map fun (s, rest) => (d :: s, rest)
    else (readTextFrom fuel rest).map fun (s, rest) => (c :: s, rest)

def readText : List Char → Option (List Char × List Char)
  | '"' :: rest => readTextFrom rest.length rest
  | _ => none

def readNumber (input : List Char) : Option (Nat × List Char) :=
  match input.takeWhile Char.isDigit with
  | [] => none
  | digits => some (Nat.ofDigitChars 10 digits 0, input.dropWhile Char.isDigit)

def readScalar : List Char → Option (JsonScalar × List Char)
  | 'n' :: 'u' :: 'l' :: 'l' :: rest => some (.null, rest)
  | '"' :: rest => (readText ('"' :: rest)).map fun (s, rest) => (.text s, rest)
  | input => (readNumber input).map fun (n, rest) => (.number n, rest)

def readField (input : List Char) : Option (JsonField × List Char) :=
  match readText input with
  | some (key, ':' :: rest) => (readScalar rest).map fun (v, rest) => ((key, v), rest)
  | _ => none

def readRest : Nat → List Char → Option (List JsonField × List Char)
  | _, '}' :: rest => some ([], rest)
  | fuel + 1, ',' :: rest =>
    (readField rest).bind fun (field, rest) =>
      (readRest fuel rest).map fun (fields, rest) => (field :: fields, rest)
  | _, _ => none

def readObject : List Char → Option (List JsonField × List Char)
  | '{' :: rest =>
    (readField rest).bind fun (field, rest) =>
      (readRest rest.length rest).map fun (fields, rest) => (field :: fields, rest)
  | _ => none

/-! ## Reading what was written -/

theorem length_escapeChar_pos (c : Char) : 0 < (escapeChar c).length := by
  unfold escapeChar
  repeat' split
  all_goals simp

/-- A control character, by its number. -/
theorem readEscape_control {c : Char} (hc : c.toNat < 32) (rest : List Char) :
    readEscape ('u' :: '0' :: '0' :: lowerHexDigit (c.toNat / 16) ::
      lowerHexDigit (c.toNat % 16) :: rest) = some (c, rest) := by
  obtain ⟨n, hn⟩ : ∃ n, n = c.toNat := ⟨_, rfl⟩
  have hofNat : c = Char.ofNat n := by rw [hn, Char.ofNat_toNat]
  rw [← hn] at hc ⊢
  rw [hofNat]
  interval_cases n <;> rfl

theorem readTextFrom_escapeChar (c : Char) (fuel : Nat) (rest : List Char) :
    readTextFrom (fuel + 1) (escapeChar c ++ rest) =
      (readTextFrom fuel rest).map fun (s, rest) => (c :: s, rest) := by
  unfold escapeChar
  by_cases h₁ : c = '"'
  · subst h₁
    rfl
  by_cases h₂ : c = '\\'
  · subst h₂
    rfl
  by_cases h₃ : c = '\x08'
  · subst h₃
    rfl
  by_cases h₄ : c = '\x0c'
  · subst h₄
    rfl
  by_cases h₅ : c = '\n'
  · subst h₅
    rfl
  by_cases h₆ : c = '\r'
  · subst h₆
    rfl
  by_cases h₇ : c = '\t'
  · subst h₇
    rfl
  rw [if_neg h₁, if_neg h₂, if_neg h₃, if_neg h₄, if_neg h₅, if_neg h₆, if_neg h₇]
  by_cases hcontrol : c.toNat < 32
  · rw [if_pos hcontrol]
    simp only [List.cons_append, List.nil_append, readTextFrom]
    rw [if_neg (by decide), if_pos trivial, readEscape_control hcontrol, Option.bind_some]
  · rw [if_neg hcontrol, List.cons_append, List.nil_append, readTextFrom, if_neg h₁, if_neg h₂]

theorem readTextFrom_write (s rest : List Char) {fuel : Nat} (hfuel : s.length < fuel) :
    readTextFrom fuel (s.flatMap escapeChar ++ '"' :: rest) = some (s, rest) := by
  induction s generalizing fuel with
  | nil =>
    cases fuel with
    | zero => omega
    | succ fuel => rfl
  | cons c s ih =>
    cases fuel with
    | zero => omega
    | succ fuel =>
      have hlength : s.length < fuel := by
        rw [List.length_cons] at hfuel
        omega
      rw [List.flatMap_cons, List.append_assoc, readTextFrom_escapeChar, ih hlength]
      rfl

theorem length_le_flatMap_escapeChar (s : List Char) :
    s.length ≤ (s.flatMap escapeChar).length := by
  induction s with
  | nil => exact Nat.le_refl 0
  | cons c s ih =>
    have hpos := length_escapeChar_pos c
    rw [List.flatMap_cons, List.length_append, List.length_cons]
    omega

@[simp] theorem readText_write (s rest : List Char) :
    readText (writeText s ++ rest) = some (s, rest) := by
  unfold writeText
  rw [List.cons_append, List.append_assoc, List.singleton_append, readText]
  apply readTextFrom_write
  have hlength := length_le_flatMap_escapeChar s
  rw [List.length_append, List.length_cons]
  omega

/-- A number ends at a character that is not a digit. -/
def EndsNumber : List Char → Prop
  | [] => True
  | c :: _ => c.isDigit = false

theorem readNumber_write (n : Nat) {rest : List Char} (hrest : EndsNumber rest) :
    readNumber (Nat.toDigits 10 n ++ rest) = some (n, rest) := by
  have hdigits : ∀ c ∈ Nat.toDigits 10 n, c.isDigit = true :=
    fun c hc => Nat.isDigit_of_mem_toDigits (by decide) (by decide) hc
  have hnone : rest.takeWhile Char.isDigit = [] ∧ rest.dropWhile Char.isDigit = rest := by
    cases rest with
    | nil => exact ⟨rfl, rfl⟩
    | cons c rest =>
      rw [EndsNumber] at hrest
      simp [hrest]
  have htake : (Nat.toDigits 10 n ++ rest).takeWhile Char.isDigit = Nat.toDigits 10 n := by
    rw [List.takeWhile_append_of_pos hdigits, hnone.1, List.append_nil]
  have hdrop : (Nat.toDigits 10 n ++ rest).dropWhile Char.isDigit = rest := by
    rw [List.dropWhile_append_of_pos hdigits, hnone.2]
  unfold readNumber
  rw [htake, hdrop]
  cases hcase : Nat.toDigits 10 n with
  | nil => exact absurd hcase (Nat.toDigits_ne_nil)
  | cons d ds =>
    dsimp only
    rw [← hcase, Nat.ofDigitChars_ten_toDigits]

theorem readScalar_write (v : JsonScalar) {rest : List Char} (hrest : EndsNumber rest) :
    readScalar (writeScalar v ++ rest) = some (v, rest) := by
  cases v with
  | null => rfl
  | text s =>
    have hread := readText_write s rest
    rw [writeText, List.cons_append] at hread
    rw [writeScalar, writeText, List.cons_append, readScalar, hread]
    rfl
  | number n =>
    have hread := readNumber_write n hrest
    rw [writeScalar]
    cases hcase : Nat.toDigits 10 n with
    | nil => exact absurd hcase (Nat.toDigits_ne_nil)
    | cons d ds =>
      have hdigit : d.isDigit = true :=
        Nat.isDigit_of_mem_toDigits (by decide) (by decide)
          (hcase ▸ List.mem_cons_self)
      rw [hcase] at hread
      rw [List.cons_append] at hread ⊢
      unfold readScalar
      split
      · rename_i heq
        rw [(List.cons.inj heq).1] at hdigit
        cases hdigit
      · rename_i heq
        rw [(List.cons.inj heq).1] at hdigit
        cases hdigit
      · rw [hread]
        rfl

theorem endsNumber_writeRest (fields : List JsonField) (rest : List Char) :
    EndsNumber (writeRest fields ++ rest) := by
  cases fields with
  | nil => rfl
  | cons field fields => rfl

theorem readField_write (field : JsonField) {rest : List Char} (hrest : EndsNumber rest) :
    readField (writeField field ++ rest) = some (field, rest) := by
  unfold readField writeField
  rw [List.append_assoc, readText_write, List.cons_append]
  simp only [readScalar_write field.2 hrest]
  rfl

theorem length_le_writeRest (fields : List JsonField) :
    fields.length < (writeRest fields).length := by
  induction fields with
  | nil => exact Nat.zero_lt_one
  | cons field fields ih =>
    rw [writeRest, List.length_cons, List.length_cons, List.length_append]
    omega

theorem readRest_write (fields : List JsonField) (rest : List Char) {fuel : Nat}
    (hfuel : fields.length ≤ fuel) :
    readRest fuel (writeRest fields ++ rest) = some (fields, rest) := by
  induction fields generalizing fuel with
  | nil => cases fuel <;> rfl
  | cons field fields ih =>
    cases fuel with
    | zero =>
      rw [List.length_cons] at hfuel
      omega
    | succ fuel =>
      have hlength : fields.length ≤ fuel := by
        rw [List.length_cons] at hfuel
        omega
      rw [writeRest, List.cons_append, List.append_assoc, readRest,
        readField_write field (endsNumber_writeRest fields rest), Option.bind_some]
      simp only [ih hlength]
      rfl

/-- Reading gives back the fields, and what follows the object. -/
theorem readObject_write (field : JsonField) (fields : List JsonField) (rest : List Char) :
    readObject (writeObject field fields ++ rest) = some (field :: fields, rest) := by
  have hlength := length_le_writeRest fields
  rw [writeObject, List.cons_append, List.append_assoc, readObject,
    readField_write field (endsNumber_writeRest fields rest), Option.bind_some]
  have hrest : readRest (writeRest fields ++ rest).length (writeRest fields ++ rest) =
      some (fields, rest) :=
    readRest_write fields rest (by rw [List.length_append]; omega)
  simp only [hrest]
  rfl

/-! ## The characters of a text -/

theorem lowerHexDigit_ge {n : Nat} (hn : n < 16) : 32 ≤ (lowerHexDigit n).toNat := by
  interval_cases n <;> decide

/-- Every character of a text is at least a blank. -/
def Printable (s : List Char) : Prop := ∀ c ∈ s, 32 ≤ c.toNat

theorem printable_append {s t : List Char} :
    Printable (s ++ t) ↔ Printable s ∧ Printable t := List.forall_mem_append

theorem printable_cons {c : Char} {s : List Char} :
    Printable (c :: s) ↔ 32 ≤ c.toNat ∧ Printable s := List.forall_mem_cons

theorem printable_escapeChar (c : Char) : Printable (escapeChar c) := by
  unfold escapeChar
  by_cases hcontrol : c.toNat < 32
  · have hhigh := lowerHexDigit_ge (show c.toNat / 16 < 16 by omega)
    have hlow := lowerHexDigit_ge (show c.toNat % 16 < 16 by omega)
    rw [if_pos hcontrol]
    repeat' split
    all_goals simp [Printable, hhigh, hlow]
  · rw [if_neg hcontrol]
    repeat' split
    all_goals simp [Printable]
    omega

theorem printable_writeText (s : List Char) : Printable (writeText s) := by
  have hescaped : Printable (s.flatMap escapeChar) := by
    intro d hd
    obtain ⟨c, -, hmem⟩ := List.mem_flatMap.mp hd
    exact printable_escapeChar c d hmem
  rw [writeText, printable_cons, printable_append]
  exact ⟨by decide, hescaped, by simp [Printable]⟩

theorem printable_toDigits (n : Nat) : Printable (Nat.toDigits 10 n) := by
  intro c hc
  have hdigit := Nat.isDigit_of_mem_toDigits (by decide) (by decide) hc
  unfold Char.isDigit at hdigit
  simp only [Bool.and_eq_true, decide_eq_true_eq] at hdigit
  have hge : 48 ≤ c.val.toNat := UInt32.le_iff_toNat_le.mp hdigit.1
  change 32 ≤ c.val.toNat
  omega

theorem printable_writeField (field : JsonField) : Printable (writeField field) := by
  rw [writeField, printable_append, printable_cons]
  refine ⟨printable_writeText field.1, by decide, ?_⟩
  cases field.2 with
  | null => simp [Printable, writeScalar]
  | number n => exact printable_toDigits n
  | text s => exact printable_writeText s

theorem printable_writeRest (fields : List JsonField) : Printable (writeRest fields) := by
  induction fields with
  | nil => simp [Printable, writeRest]
  | cons field fields ih =>
    rw [writeRest, printable_cons, printable_append]
    exact ⟨by decide, printable_writeField field, ih⟩

theorem printable_writeObject (field : JsonField) (fields : List JsonField) :
    Printable (writeObject field fields) := by
  rw [writeObject, printable_cons, printable_append]
  exact ⟨by decide, printable_writeField field, printable_writeRest fields⟩

theorem getLast?_writeRest (fields : List JsonField) : (writeRest fields).getLast? = some '}' := by
  induction fields with
  | nil => rfl
  | cons field fields ih =>
    rw [writeRest, List.getLast?_cons, List.getLast?_append, ih]
    rfl

/-- A text ends with its closing brace. -/
theorem getLast?_writeObject (field : JsonField) (fields : List JsonField) :
    (writeObject field fields).getLast? = some '}' := by
  rw [writeObject, List.getLast?_cons, List.getLast?_append, getLast?_writeRest]
  rfl

end DevRelay.Lib
