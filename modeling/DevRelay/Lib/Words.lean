import DevRelay.Lib.Framing
import Mathlib.Algebra.Ring.Nat
import Mathlib.Data.List.TakeWhile

/-!
# Words of a line

The standard library's ways to cut a text: at white space, at a separator a limited
number of times, and behind a fixed beginning.
-/

namespace DevRelay.Lib

/-- `char::is_whitespace` -/
def isSpace (c : Char) : Bool :=
  let n := c.toNat
  (9 ≤ n && n ≤ 13) || n = 32 || n = 0x85 || n = 0xA0 || n = 0x1680 ||
    (0x2000 ≤ n && n ≤ 0x200A) || n = 0x2028 || n = 0x2029 || n = 0x202F || n = 0x205F ||
    n = 0x3000

/-- `str::split_whitespace` -/
def splitWhitespace (text : List Char) : List (List Char) :=
  (text.splitOnP isSpace).filter fun word => !word.isEmpty

/-- `str::splitn`: at most `n` pieces, the last one with all that is left. -/
def splitn (sep : Char) : Nat → List Char → List (List Char)
  | 0, _ => []
  | 1, text => [text]
  | n + 2, text =>
    match text.span (fun c => c ≠ sep) with
    | (piece, []) => [piece]
    | (piece, _ :: rest) => piece :: splitn sep (n + 1) rest

/-- `str::trim` -/
def trim (text : List Char) : List Char :=
  ((text.dropWhile isSpace).reverse.dropWhile isSpace).reverse

theorem trim_ne_nil {c : Char} (hc : isSpace c = false) (text : List Char) :
    trim (c :: text) ≠ [] := by
  intro h
  have hkept : (c :: text).dropWhile isSpace = c :: text :=
    List.dropWhile_cons_of_neg (by simp [hc])
  rw [trim, hkept, List.reverse_eq_nil_iff, List.dropWhile_eq_nil_iff] at h
  have hspace := h c (List.mem_reverse.mpr (List.mem_cons_self ..))
  rw [hc] at hspace
  cases hspace

theorem splitWhitespace_append {word rest : List Char} {sep : Char}
    (hword : ∀ c ∈ word, isSpace c = false) (hne : word ≠ []) (hsep : isSpace sep = true) :
    splitWhitespace (word ++ sep :: rest) = word :: splitWhitespace rest := by
  have hkeep : (!word.isEmpty) = true := by
    cases word with
    | nil => exact absurd rfl hne
    | cons c word => rfl
  rw [splitWhitespace, List.splitOnP_append_cons_of_forall_mem hword sep hsep, List.filter_cons,
    if_pos hkeep, splitWhitespace]

/-- Words with white space behind each come first. -/
theorem splitWhitespace_frame {sep : Char} (hsep : isSpace sep = true) {words : List (List Char)}
    (hwords : ∀ word ∈ words, word ≠ [] ∧ ∀ c ∈ word, isSpace c = false) (rest : List Char) :
    splitWhitespace (frame sep words ++ rest) = words ++ splitWhitespace rest := by
  induction words with
  | nil => rfl
  | cons word words ih =>
    obtain ⟨hne, hword⟩ := hwords word List.mem_cons_self
    rw [frame_cons, List.append_assoc, List.cons_append, splitWhitespace_append hword hne hsep,
      ih fun w hw => hwords w (List.mem_cons_of_mem word hw), List.cons_append]

theorem span_append {sep : Char} {piece rest : List Char} (h : sep ∉ piece) :
    (piece ++ sep :: rest).span (fun c => c ≠ sep) = (piece, sep :: rest) := by
  have hkeep : ∀ c ∈ piece, decide (c ≠ sep) = true := by
    intro c hc
    exact decide_eq_true fun heq => h (heq ▸ hc)
  rw [List.span_eq_takeWhile_dropWhile, List.takeWhile_append_of_pos hkeep,
    List.dropWhile_append_of_pos hkeep]
  simp

/-- As many pieces as there are fields in front of the last one. -/
theorem splitn_frame {sep : Char} {fields : List (List Char)} (h : ∀ f ∈ fields, sep ∉ f)
    (rest : List Char) :
    splitn sep (fields.length + 1) (frame sep fields ++ rest) = fields ++ [rest] := by
  induction fields with
  | nil => rfl
  | cons f fields ih =>
    rw [frame_cons, List.append_assoc, List.cons_append, List.length_cons, splitn,
      span_append (h f List.mem_cons_self)]
    simp only [List.cons_append]
    rw [ih fun g hg => h g (List.mem_cons_of_mem f hg)]

/-! ## Lines -/

def stripCarriageReturn (line : List Char) : List Char :=
  if line.getLast? = some '\r' then line.dropLast else line

/-- `str::lines`: a carriage return counts as part of the line feed behind it. -/
def lines (text : List Char) : List (List Char) :=
  let pieces := text.splitOn '\n'
  pieces.dropLast.map stripCarriageReturn ++ pieces.getLast?.toList.filter fun last => last ≠ []

theorem lines_nil : lines [] = [] := rfl

theorem lines_line {line : List Char} (h : '\n' ∉ line) (rest : List Char) :
    lines (line ++ '\n' :: rest) = stripCarriageReturn line :: lines rest := by
  have hne : rest.splitOn '\n' ≠ [] := List.splitOn_ne_nil '\n' rest
  rw [lines, List.splitOn_append_cons_self, List.splitOn_eq_singleton h, lines]
  simp only [List.singleton_append]
  rw [List.dropLast_cons_of_ne_nil hne, List.getLast?_cons_of_ne_nil hne, List.map_cons,
    List.cons_append]

theorem lines_last {line : List Char} (h : '\n' ∉ line) (hne : line ≠ []) :
    lines line = [line] := by
  rw [lines, List.splitOn_eq_singleton h]
  simp [hne]

theorem notMem_stripCarriageReturn {c : Char} {line : List Char} (h : c ∉ line) :
    c ∉ stripCarriageReturn line := by
  unfold stripCarriageReturn
  split
  · exact fun hmem => h (List.mem_of_mem_dropLast hmem)
  · exact h

theorem lineFeed_notMem_of_mem_lines {line text : List Char} (h : line ∈ lines text) :
    '\n' ∉ line := by
  rw [lines, List.mem_append] at h
  cases h with
  | inl hmem =>
    obtain ⟨piece, hpiece, heq⟩ := List.mem_map.mp hmem
    rw [← heq]
    exact notMem_stripCarriageReturn
      (notMem_of_mem_splitOn (List.mem_of_mem_dropLast hpiece))
  | inr hmem =>
    have hlast := (List.mem_filter.mp hmem).1
    rw [Option.mem_toList] at hlast
    exact notMem_of_mem_splitOn (List.mem_of_getLast? hlast)

/-- Terminated lines and an unfinished one. -/
theorem lines_frame {rows : List (List Char)} (h : ∀ row ∈ rows, '\n' ∉ row) (rest : List Char) :
    lines (frame '\n' rows ++ rest) = rows.map stripCarriageReturn ++ lines rest := by
  induction rows with
  | nil => rfl
  | cons row rows ih =>
    rw [frame_cons, List.append_assoc, List.cons_append, lines_line (h row List.mem_cons_self),
      ih fun other hother => h other (List.mem_cons_of_mem row hother)]
    rfl

/-! ## Cutting at the last separator -/

/-- `str::rsplit_once` -/
def rsplitOnce (sep : Char) (text : List Char) : Option (List Char × List Char) :=
  match text.reverse.span (fun c => c ≠ sep) with
  | (_, []) => none
  | (back, _ :: front) => some (front.reverse, back.reverse)

theorem rsplitOnce_append {sep : Char} {back : List Char} (front : List Char)
    (h : sep ∉ back) : rsplitOnce sep (front ++ sep :: back) = some (front, back) := by
  have hback : sep ∉ back.reverse := fun hmem => h (List.mem_reverse.mp hmem)
  have hreverse : (front ++ sep :: back).reverse = back.reverse ++ sep :: front.reverse := by
    simp
  rw [rsplitOnce, hreverse, span_append hback]
  simp

theorem rsplitOnce_of_notMem {sep : Char} {text : List Char} (h : sep ∉ text) :
    rsplitOnce sep text = none := by
  have hall : text.reverse.dropWhile (fun c => decide (c ≠ sep)) = [] := by
    rw [List.dropWhile_eq_nil_iff]
    intro c hc
    have hne : c ≠ sep := by
      rintro rfl
      exact h (List.mem_reverse.mp hc)
    simp [hne]
  rw [rsplitOnce, List.span_eq_takeWhile_dropWhile, hall]

theorem sublist_of_rsplitOnce {sep : Char} {text front back : List Char}
    (h : rsplitOnce sep text = some (front, back)) : front.Sublist text := by
  unfold rsplitOnce at h
  rw [List.span_eq_takeWhile_dropWhile] at h
  split at h
  · cases h
  · rename_i tail c rest heq
    cases h
    have hdrop := (Prod.mk.inj heq).2
    have hsuffix := List.dropWhile_suffix (l := text.reverse) (fun c => decide (c ≠ sep))
    rw [hdrop] at hsuffix
    have hsub := ((List.sublist_cons_self c rest).trans hsuffix.sublist).reverse
    rwa [List.reverse_reverse] at hsub

/-! ## Numbers -/

/-- `str::parse` for an unsigned integer of `width` bits. -/
def parseUnsigned (width : Nat) (raw : List Char) : Option Nat :=
  let digits := match raw with
    | '+' :: rest => rest
    | _ => raw
  if digits = [] || !digits.all Char.isDigit then none
  else
    let value := Nat.ofDigitChars 10 digits 0
    if value < 2 ^ width then some value else none

theorem parseUnsigned_digits {width : Nat} {digits : List Char} (hne : digits ≠ [])
    (hdigits : digits.all Char.isDigit = true) (hfits : Nat.ofDigitChars 10 digits 0 < 2 ^ width) :
    parseUnsigned width digits = some (Nat.ofDigitChars 10 digits 0) := by
  unfold parseUnsigned
  split
  · cases hdigits
  · simp [hne, hdigits, hfits]

/-! ## Framed texts -/

/-- Terminated texts and nothing behind the last one. -/
theorem splitOn_frame {α : Type} [DecidableEq α] {z : α} {texts : List (List α)}
    (h : ∀ t ∈ texts, z ∉ t) : (frame z texts).splitOn z = texts ++ [[]] := by
  induction texts with
  | nil => exact List.splitOn_nil z
  | cons t texts ih =>
    have htail := ih fun u hu => h u (List.mem_cons_of_mem t hu)
    rw [frame_cons, List.splitOn_append_cons_self, htail,
      List.splitOn_eq_singleton (h t List.mem_cons_self)]
    rfl

end DevRelay.Lib
