import Mathlib.Data.List.Basic
import Mathlib.Tactic.Common

/-!
# Strings of the Nix language

How Nix reads a string between double quotes: a backslash escapes the next
character, and `${` begins an expression, unless its dollar is the second one of a
pair.  A string with an expression in it is no plain text.
-/

namespace DevRelay.Lib

/-- What an escaped character stands for. -/
def nixUnescape (c : Char) : Char :=
  if c = 'n' then '\n' else if c = 'r' then '\r' else if c = 't' then '\t' else c

/-- The text of a string up to its closing quote, and what is behind the quote;
`dollar` tells whether a dollar without a partner stands in front.  A null character
and a bare carriage return, which Nix does not keep, are taken as any other. -/
def readNixText : Bool → List Char → Option (List Char × List Char)
  | _, [] => none
  | _, '"' :: rest => some ([], rest)
  | _, ['\\'] => none
  | _, '\\' :: c :: rest => (readNixText false rest).map fun r => (nixUnescape c :: r.1, r.2)
  | dollar, c :: rest =>
    if dollar && c = '{' then none
    else (readNixText (c = '$' && !dollar) rest).map fun r => (c :: r.1, r.2)

/-- `readNixText` behind an opening quote. -/
def readNixString : List Char → Option (List Char × List Char)
  | '"' :: rest => readNixText false rest
  | _ => none

/-- The dollars that end a text are odd in number: the last one has no partner. -/
def oddDollars (text : List Char) : Bool :=
  decide ((text.reverse.takeWhile (· = '$')).length % 2 = 1)

/-- Nix reads an expression somewhere in the text: a brace stands behind an odd number
of dollars. -/
def Antiquotes (text : List Char) : Prop :=
  ∃ before rest, text = before ++ '{' :: rest ∧ oddDollars before = true

theorem oddDollars_append (text : List Char) (c : Char) :
    oddDollars (text ++ [c]) = (decide (c = '$') && !oddDollars text) := by
  by_cases h : c = '$'
  · subst h
    simp only [oddDollars, List.reverse_append, List.reverse_cons, List.reverse_nil,
      List.nil_append, List.singleton_append, decide_true, Bool.true_and]
    rw [List.takeWhile_cons_of_pos (by decide), List.length_cons, ← decide_not,
      decide_eq_decide]
    omega
  · simp [oddDollars, h]

/-- A character written so that a string has it: escaped, or as it is. -/
def NixWritten (written : List Char) (c : Char) : Prop :=
  (∃ e, written = ['\\', e] ∧ nixUnescape e = c ∧ c ≠ '$' ∧ c ≠ '{') ∨
    (written = [c] ∧ c ≠ '"' ∧ c ≠ '\\')

/-- One character is read, unless it is the brace of an expression. -/
theorem readNixText_step {written : List Char} {c : Char} (hwritten : NixWritten written c)
    (before more : List Char) :
    readNixText (oddDollars before) (written ++ more) =
      if oddDollars before = true ∧ c = '{' then none
      else (readNixText (oddDollars (before ++ [c])) more).map fun r => (c :: r.1, r.2) := by
  rcases hwritten with ⟨e, rfl, rfl, hdollar, hbrace⟩ | ⟨rfl, hquote, hbackslash⟩
  · rw [oddDollars_append, if_neg fun h => hbrace h.2]
    simp [readNixText, hdollar]
  · have hread : readNixText (oddDollars before) (c :: more) =
        if oddDollars before && decide (c = '{') then none
        else (readNixText (decide (c = '$') && !oddDollars before) more).map
          fun r => (c :: r.1, r.2) := by
      rw [readNixText]
      · exact fun h => absurd h hquote
      · exact fun h => absurd h hbackslash
      · exact fun _ _ h => absurd h hbackslash
    rw [List.singleton_append, hread, oddDollars_append]
    simp

/-- A text whose characters are so written is read as it was exactly when Nix finds no
expression in it, counted with the dollars in front of it. -/
theorem readNixText_written {write : Char → List Char} (hwrite : ∀ c, NixWritten (write c) c)
    (before text rest : List Char) :
    readNixText (oddDollars before) (text.flatMap write ++ '"' :: rest) = some (text, rest) ↔
      ¬∃ front back, text = front ++ '{' :: back ∧ oddDollars (before ++ front) = true := by
  induction text generalizing before with
  | nil => simp [readNixText]
  | cons c text ih =>
    rw [List.flatMap_cons, List.append_assoc, readNixText_step (hwrite c)]
    by_cases hbrace : oddDollars before = true ∧ c = '{'
    · rw [if_pos hbrace]
      constructor
      · intro h
        cases h
      · intro h
        refine (h ⟨[], text, ?_, ?_⟩).elim
        · rw [hbrace.2]
          rfl
        · rw [List.append_nil]
          exact hbrace.1
    · rw [if_neg hbrace]
      have hrest : (readNixText (oddDollars (before ++ [c]))
          (text.flatMap write ++ '"' :: rest)).map (fun r => (c :: r.1, r.2)) =
            some (c :: text, rest) ↔
          readNixText (oddDollars (before ++ [c])) (text.flatMap write ++ '"' :: rest) =
            some (text, rest) := by
        simp [Option.map_eq_some_iff]
      rw [hrest, ih, not_iff_not]
      constructor
      · rintro ⟨front, back, rfl, hodd⟩
        refine ⟨c :: front, back, rfl, ?_⟩
        simpa using hodd
      · rintro ⟨front, back, heq, hodd⟩
        cases front with
        | nil =>
          rw [List.append_nil] at hodd
          exact absurd ⟨hodd, (List.cons.inj heq).1⟩ hbrace
        | cons d front =>
          obtain ⟨rfl, htext⟩ := List.cons.inj heq
          refine ⟨front, back, htext, ?_⟩
          simpa using hodd

end DevRelay.Lib
