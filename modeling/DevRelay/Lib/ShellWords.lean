import Mathlib.Data.List.Basic
import Mathlib.Tactic.Common

/-!
# The words of a shell command

How a POSIX shell cuts a line into words when nothing in it is expanded: blanks
separate words, what stands between single quotes is taken as it is, and a
backslash outside them takes the next character as it is.  A line with an unquoted
character that means something else to the shell has no words here.
-/

namespace DevRelay.Lib

/-- The characters that a shell reads as more than themselves where they are not
quoted. -/
def shellSpecials : List Char :=
  ['|', '&', ';', '<', '>', '(', ')', '$', '\x60', '\\', '"', '\'', ' ', '\t', '\n', '*',
    '?', '[', ']', '#', '~', '{', '}', '!', '^', '\r', '\x0b', '\x0c']

def isShellBlank (c : Char) : Bool := c = ' ' || c = '\t'

/-- The words behind the word that is being read, if one is; `quoted` tells whether
a single quote is open. -/
def shellWordsFrom : Bool → Option (List Char) → List Char → Option (List (List Char))
  | false, word, [] => some word.toList
  | true, _, [] => none
  | true, word, c :: rest =>
    if c = '\'' then shellWordsFrom false word rest
    else shellWordsFrom true (some (word.getD [] ++ [c])) rest
  | false, word, '\\' :: c :: rest =>
    if c = '\n' then none else shellWordsFrom false (some (word.getD [] ++ [c])) rest
  | false, word, c :: rest =>
    if isShellBlank c then (shellWordsFrom false none rest).map (word.toList ++ ·)
    else if c = '\'' then shellWordsFrom true (some (word.getD [])) rest
    else if c ∈ shellSpecials then none
    else shellWordsFrom false (some (word.getD [] ++ [c])) rest

def shellWords (line : List Char) : Option (List (List Char)) := shellWordsFrom false none line

section

variable {word : Option (List Char)} {text rest : List Char} {c : Char}

/-- A blank ends the word that is being read. -/
theorem shellWordsFrom_blank (word : Option (List Char)) (rest : List Char) :
    shellWordsFrom false word (' ' :: rest) = (shellWords rest).map (word.toList ++ ·) := rfl

/-- Characters that mean themselves are read as they are. -/
theorem shellWordsFrom_plain (hne : text ≠ []) (hplain : ∀ c ∈ text, c ∉ shellSpecials) :
    shellWordsFrom false word (text ++ rest) =
      shellWordsFrom false (some (word.getD [] ++ text)) rest := by
  induction text generalizing word with
  | nil => exact absurd rfl hne
  | cons c text ih =>
    have hc := hplain c (List.mem_cons_self ..)
    have hstep : shellWordsFrom false word (c :: (text ++ rest)) =
        shellWordsFrom false (some (word.getD [] ++ [c])) (text ++ rest) := by
      have hbackslash : c ≠ '\\' := by
        rintro rfl
        exact hc (by decide)
      have hquote : c ≠ '\'' := by
        rintro rfl
        exact hc (by decide)
      have hblank : isShellBlank c = false := by
        rw [Bool.eq_false_iff]
        intro h
        simp only [isShellBlank, Bool.or_eq_true, decide_eq_true_eq] at h
        rcases h with rfl | rfl
        · exact hc (by decide)
        · exact hc (by decide)
      rw [shellWordsFrom, if_neg (by simp [hblank]), if_neg hquote, if_neg hc]
      intro c' rest' h
      exact absurd h hbackslash
    rw [List.cons_append, hstep]
    cases text with
    | nil => rfl
    | cons d text =>
      rw [ih (List.cons_ne_nil _ _) fun e he => hplain e (List.mem_cons_of_mem _ he)]
      simp

end

/-- A text with every single quote written as a closing quote, an escaped quote and
an opening quote. -/
def quotesSplit (text : List Char) : List Char :=
  text.flatMap fun c => if c = '\'' then ['\'', '\\', '\'', '\''] else [c]

/-- Between single quotes, with its own quotes split, a text is read as it is. -/
theorem shellWordsFrom_quotesSplit (word text rest : List Char) :
    shellWordsFrom true (some word) (quotesSplit text ++ '\'' :: rest) =
      shellWordsFrom false (some (word ++ text)) rest := by
  induction text generalizing word with
  | nil =>
    rw [List.append_nil]
    rfl
  | cons c text ih =>
    have hword : word ++ c :: text = (word ++ [c]) ++ text := by simp
    rw [hword, ← ih (word ++ [c])]
    by_cases hquote : c = '\''
    · subst hquote
      rfl
    · have hsplit : quotesSplit (c :: text) = c :: quotesSplit text := by
        simp [quotesSplit, hquote]
      rw [hsplit, List.cons_append, shellWordsFrom, if_neg hquote]
      rfl

/-! ## Lines of words -/

/-- Text that a shell reads as one word, or as none if the word is empty. -/
def ReadsAs (text word : List Char) : Prop :=
  ∀ rest, shellWordsFrom false none (text ++ rest) =
    shellWordsFrom false (if word = [] then none else some word) rest

/-- A line of texts with a blank between them has the words that are not empty. -/
theorem shellWords_join {texts words : List (List Char)} (h : List.Forall₂ ReadsAs texts words) :
    shellWords ([' '].intercalate texts) = some (words.filter fun word => word ≠ []) := by
  induction h with
  | nil => rfl
  | @cons text word texts words hread hrest ih =>
    have hkeep : (if word = [] then none else some word : Option (List Char)).toList ++
        words.filter (fun word => word ≠ []) = (word :: words).filter fun word => word ≠ [] := by
      by_cases hempty : word = []
      · simp [hempty]
      · simp [hempty]
    rw [← hkeep]
    cases hrest with
    | nil =>
      have hend := hread []
      rw [List.append_nil] at hend
      show shellWordsFrom false none ([' '].intercalate [text]) = _
      rw [List.intercalate_singleton, hend]
      simp [shellWordsFrom]
    | @cons next nextWord texts words hnext hothers =>
      have hsplit : [' '].intercalate (text :: next :: texts) =
          text ++ ' ' :: [' '].intercalate (next :: texts) := by
        simp [List.intercalate_cons_cons]
      show shellWordsFrom false none ([' '].intercalate (text :: next :: texts)) = _
      rw [hsplit, hread, shellWordsFrom_blank, ih, Option.map_some]

end DevRelay.Lib
