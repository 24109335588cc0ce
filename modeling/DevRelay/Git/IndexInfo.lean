import DevRelay.Lib.TextBytes
import DevRelay.Lib.Words
import Mathlib.Data.List.Sort

/-!
# The index, as text in and out

`git update-index --index-info` reads one entry a line; a path that begins with a
quote is taken as quoted.  `git ls-files -u -z` writes the unmerged entries, each
with a null character behind its path and nothing quoted.
-/

namespace DevRelay.Git

open DevRelay.Lib

/-- Stage 0 is a merged entry. -/
structure CacheEntry where
  path : List UInt8
  stage : Nat
  mode : String
  oid : String
  deriving DecidableEq, Repr

/-- What the text in front of the tab asks for; mode 0 removes the path. -/
inductive IndexInfoHead where
  | remove
  | add (mode oid : String) (stage : Nat)
  deriving DecidableEq, Repr

inductive ObjectFormat where
  | sha1
  | sha256
  deriving DecidableEq

/-- The length of an object name. -/
def ObjectFormat.hexsz : ObjectFormat → Nat
  | .sha1 => 40
  | .sha256 => 64

/-- git, as far as it reads and writes texts. -/
structure IndexText where
  /-- the object format of the repository -/
  format : ObjectFormat
  /-- `mode SP oid SP stage` -/
  readHead : List Char → Option IndexInfoHead
  /-- the path that a quoted text stands for -/
  unquote : List Char → Option (List UInt8)
  /-- whether the index takes the path -/
  verifyPath : List UInt8 → Bool
  /-- the path as the reader of git's output sees it, `String::from_utf8_lossy` -/
  readText : List UInt8 → List Char

def CanonicalMode (mode : String) : Prop :=
  mode ∈ ["100644", "100755", "120000", "160000"]

instance (mode : String) : Decidable (CanonicalMode mode) :=
  inferInstanceAs (Decidable (mode ∈ ["100644", "100755", "120000", "160000"]))

def isHexDigit (c : Char) : Bool := ('0' ≤ c && c ≤ '9') || ('a' ≤ c && c ≤ 'f')

def IsOid (format : ObjectFormat) (oid : String) : Prop :=
  oid.toList.length = format.hexsz ∧ oid.toList.all isHexDigit = true

instance (format : ObjectFormat) (oid : String) : Decidable (IsOid format oid) :=
  inferInstanceAs (Decidable (_ ∧ _))

/-- `mode SP oid SP stage` -/
def headText (mode oid : String) (stage : Nat) : List Char :=
  mode.toList ++ ' ' :: (oid.toList ++ ' ' :: (toString stage).toList)

/-- What is documented of the texts: a head as git writes it is read back, and no
other mode or object name gets into the index; quoting makes a path longer, and
no path holds a null character; a path of UTF-8 is read as it is. -/
structure IndexText.Documented (git : IndexText) : Prop where
  head : ∀ mode oid stage, CanonicalMode mode → IsOid git.format oid → 1 ≤ stage → stage ≤ 3 →
    git.readHead (headText mode oid stage) = some (.add mode oid stage)
  added : ∀ text mode oid stage, git.readHead text = some (.add mode oid stage) →
    CanonicalMode mode ∧ IsOid git.format oid ∧ stage ≤ 3
  quoted : ∀ text path, text.head? = some '"' → git.unquote text = some path →
    (git.readText path).length < text.length ∧ '\x00' ∉ git.readText path
  read : ∀ path : String, git.readText (utf8 path) = path.toList

/-! ## The index -/

/-- One path is a directory of the other. -/
def directoryConflict (a b : List UInt8) : Bool :=
  (a ++ [47]).isPrefixOf b || (b ++ [47]).isPrefixOf a

/-- The new entry takes the place of the old one: it is the same entry, it merges the
path, or one of the two is a directory of the other in one stage. -/
def replaces (new old : CacheEntry) : Bool :=
  (old.path = new.path && (old.stage = new.stage || new.stage = 0)) ||
    (old.stage = new.stage && directoryConflict old.path new.path)

def addCacheinfo (index : List CacheEntry) (new : CacheEntry) : List CacheEntry :=
  index.filter (fun old => !replaces new old) ++ [new]

def removePath (index : List CacheEntry) (path : List UInt8) : List CacheEntry :=
  index.filter fun entry => entry.path ≠ path

/-- `git update-index --force-remove -- path` -/
def forceRemove (index : List CacheEntry) (path : String) : List CacheEntry :=
  removePath index (utf8 path)

/-! ## Reading -/

/-- The lines of an input; behind the last line feed nothing is read. -/
def inputLines (text : List Char) : List (List Char) :=
  let parts := text.splitOn '\n'
  if parts.getLast? = some [] then parts.dropLast else parts

namespace IndexText

variable (git : IndexText)

/-- The path that the text behind the tab stands for. -/
def pathField (field : List Char) : Option (List UInt8) :=
  if field.head? = some '"' then git.unquote field else some (utf8 (String.ofList field))

/-- A line that is not understood ends the command; a path that the index does not
take is passed over. -/
def readLine (index : List CacheEntry) (line : List Char) : Option (List CacheEntry) :=
  match splitn '\t' 2 line with
  | [head, field] => do
    let action ← git.readHead head
    let path ← git.pathField field
    if git.verifyPath path then
      match action with
      | .remove => some (removePath index path)
      | .add mode oid stage => some (addCacheinfo index ⟨path, stage, mode, oid⟩)
    else
      some index
  | _ => none

/-- `git update-index --index-info`: the index is written when every line was read. -/
def updateIndexInfo (index : List CacheEntry) (input : List Char) : Option (List CacheEntry) :=
  (inputLines input).foldlM git.readLine index

/-! ## Writing -/

def entryBefore (a b : CacheEntry) : Prop := a.path < b.path ∨ (a.path = b.path ∧ a.stage ≤ b.stage)

instance : DecidableRel entryBefore := fun a b => by
  unfold entryBefore
  infer_instance

/-- The unmerged entries in the order of the index. -/
def unmergedEntries (index : List CacheEntry) : List CacheEntry :=
  (index.filter fun entry => entry.stage ≠ 0).insertionSort entryBefore

def recordText (entry : CacheEntry) : List Char :=
  headText entry.mode entry.oid entry.stage ++ '\t' :: git.readText entry.path

/-- `git ls-files -u -z` -/
def lsFilesUnmerged (index : List CacheEntry) : List Char :=
  frame '\x00' ((unmergedEntries index).map git.recordText)

end IndexText

/-! ## Heads -/

/-- The characters of a head. -/
def isHeadChar (c : Char) : Bool := c = ' ' || isHexDigit c

theorem isHeadChar_of_isHexDigit {c : Char} (h : isHexDigit c = true) : isHeadChar c = true := by
  simp [isHeadChar, h]

theorem stageText_cases {stage : Nat} (hlow : 1 ≤ stage) (hhigh : stage ≤ 3) :
    (toString stage).toList = ['1'] ∨ (toString stage).toList = ['2'] ∨
      (toString stage).toList = ['3'] := by
  obtain rfl | rfl | rfl : stage = 1 ∨ stage = 2 ∨ stage = 3 := by omega
  · exact Or.inl (by decide)
  · exact Or.inr (Or.inl (by decide))
  · exact Or.inr (Or.inr (by decide))

/-- A word of a head: not empty, and of hexadecimal digits. -/
def IsHexWord (word : List Char) : Prop := word ≠ [] ∧ ∀ c ∈ word, isHexDigit c = true

theorem CanonicalMode.isHexWord {mode : String} (h : CanonicalMode mode) :
    IsHexWord mode.toList := by
  have hall : ∀ mode ∈ ["100644", "100755", "120000", "160000"],
      mode.toList ≠ [] ∧ mode.toList.all isHexDigit = true := by decide
  obtain ⟨hne, hdigits⟩ := hall mode h
  exact ⟨hne, List.all_eq_true.mp hdigits⟩

theorem IsOid.isHexWord {format : ObjectFormat} {oid : String} (h : IsOid format oid) :
    IsHexWord oid.toList := by
  refine ⟨?_, List.all_eq_true.mp h.2⟩
  intro hnil
  have hlength := h.1
  rw [hnil] at hlength
  cases format with
  | sha1 => cases hlength
  | sha256 => cases hlength

theorem isHexWord_stage {stage : Nat} (hlow : 1 ≤ stage) (hhigh : stage ≤ 3) :
    IsHexWord (toString stage).toList := by
  have hword : ∀ c, isHexDigit c = true → IsHexWord [c] := by
    intro c hc
    refine ⟨List.cons_ne_nil c [], ?_⟩
    intro d hd
    rw [List.mem_singleton.mp hd]
    exact hc
  rcases stageText_cases hlow hhigh with h | h | h
  · rw [h]
    exact hword '1' rfl
  · rw [h]
    exact hword '2' rfl
  · rw [h]
    exact hword '3' rfl

theorem isHeadChar_of_mem_headText {format : ObjectFormat} {mode oid : String} {stage : Nat}
    (hmode : CanonicalMode mode) (hoid : IsOid format oid) (hlow : 1 ≤ stage) (hhigh : stage ≤ 3)
    {c : Char} (h : c ∈ headText mode oid stage) : isHeadChar c = true := by
  simp only [headText, List.mem_append, List.mem_cons] at h
  rcases h with h | rfl | h | rfl | h
  · exact isHeadChar_of_isHexDigit (hmode.isHexWord.2 c h)
  · rfl
  · exact isHeadChar_of_isHexDigit (hoid.isHexWord.2 c h)
  · rfl
  · exact isHeadChar_of_isHexDigit ((isHexWord_stage hlow hhigh).2 c h)

/-- A line is cut at its first tab. -/
theorem splitn_tab {head field : List Char} (h : '\t' ∉ head) :
    splitn '\t' 2 (head ++ '\t' :: field) = [head, field] := by
  rw [splitn, span_append h]
  rfl

theorem eq_of_splitn_tab {line head field : List Char} (h : splitn '\t' 2 line = [head, field]) :
    line = head ++ '\t' :: field := by
  rw [splitn, List.span_eq_takeWhile_dropWhile] at h
  have hline := List.takeWhile_append_dropWhile (p := fun c => decide (c ≠ '\t')) (l := line)
  cases hrest : line.dropWhile (fun c => decide (c ≠ '\t')) with
  | nil =>
    simp only [hrest] at h
    cases h
  | cons c rest =>
    have hc : c = '\t' := by
      have hhead := List.head?_dropWhile_not (fun c => decide (c ≠ '\t')) line
      rw [hrest] at hhead
      simpa using hhead
    simp only [hrest, splitn] at h
    obtain ⟨rfl, hfield⟩ := List.cons_eq_cons.mp h
    rw [hrest, hc, List.singleton_inj.mp hfield] at hline
    exact hline.symm

/-! ## The lines of an input -/

/-- Texts with a line feed behind each: the lines are their parts. -/
theorem inputLines_frame (texts : List (List Char)) :
    inputLines (frame '\n' texts) = texts.flatMap (fun text => text.splitOn '\n') := by
  have hparts : (frame '\n' texts).splitOn '\n' =
      texts.flatMap (fun text => text.splitOn '\n') ++ [[]] := by
    induction texts with
    | nil => exact List.splitOn_nil '\n'
    | cons text rest ih =>
      rw [frame_cons, List.splitOn_append_cons_self, ih, List.flatMap_cons, List.append_assoc]
  unfold inputLines
  rw [hparts]
  simp

/-- The parts of a text with something in front that has no separator. -/
theorem splitOn_append_text {z : Char} {front : List Char} (hfront : z ∉ front) (text : List Char) :
    (front ++ text).splitOn z = (text.splitOn z).modifyHead fun first => front ++ first := by
  induction front with
  | nil =>
    cases hparts : text.splitOn z with
    | nil => exact absurd hparts (List.splitOn_ne_nil z text)
    | cons first others => rw [List.nil_append, hparts, List.modifyHead_cons, List.nil_append]
  | cons c front ih =>
    have hc : ¬(c == z) = true := fun heq => hfront (by
      rw [beq_iff_eq] at heq
      rw [heq]
      exact List.mem_cons_self)
    rw [List.cons_append, List.splitOn_cons_eq_if_modifyHead, if_neg hc,
      ih fun hmem => hfront (List.mem_cons_of_mem c hmem), List.modifyHead_modifyHead]
    rfl

/-- Its first part is longer, and the others are the parts of the text. -/
theorem mem_splitOn_append {z : Char} {front text part : List Char} (hfront : z ∉ front)
    (h : part ∈ (front ++ text).splitOn z) :
    (∃ first ∈ text.splitOn z, part = front ++ first) ∨ part ∈ text.splitOn z := by
  rw [splitOn_append_text hfront] at h
  cases hparts : text.splitOn z with
  | nil => exact absurd hparts (List.splitOn_ne_nil z text)
  | cons first others =>
    rw [hparts, List.modifyHead_cons] at h
    rcases List.mem_cons.mp h with rfl | hmem
    · exact Or.inl ⟨first, List.mem_cons_self, rfl⟩
    · exact Or.inr (List.mem_cons_of_mem first hmem)

/-! ## Reading a whole input -/

section

variable {git : IndexText}

/-- The entry was read from the line. -/
def FromLine (git : IndexText) (line : List Char) (entry : CacheEntry) : Prop :=
  ∃ head field, splitn '\t' 2 line = [head, field] ∧
    git.readHead head = some (.add entry.mode entry.oid entry.stage) ∧
    git.pathField field = some entry.path

theorem readLine_mem {index index' : List CacheEntry} {line : List Char}
    (h : git.readLine index line = some index') {entry : CacheEntry} (hmem : entry ∈ index') :
    entry ∈ index ∨ FromLine git line entry := by
  unfold IndexText.readLine at h
  split at h
  · rename_i head field hline
    obtain ⟨action, haction, h⟩ := Option.bind_eq_some_iff.mp h
    obtain ⟨path, hpath, h⟩ := Option.bind_eq_some_iff.mp h
    split at h
    · split at h
      · rw [← Option.some.inj h] at hmem
        exact Or.inl (List.mem_of_mem_filter hmem)
      · rw [← Option.some.inj h] at hmem
        rcases List.mem_append.mp hmem with hold | hnew
        · exact Or.inl (List.mem_of_mem_filter hold)
        · rw [List.mem_singleton.mp hnew]
          exact Or.inr ⟨head, field, hline, haction, hpath⟩
    · rw [← Option.some.inj h] at hmem
      exact Or.inl hmem
  · cases h

/-- Every entry was there before or was read from one of the lines. -/
theorem updateIndexInfo_mem {index index' : List CacheEntry} {input : List Char}
    (h : git.updateIndexInfo index input = some index') {entry : CacheEntry}
    (hmem : entry ∈ index') :
    entry ∈ index ∨ ∃ line ∈ inputLines input, FromLine git line entry := by
  unfold IndexText.updateIndexInfo at h
  generalize inputLines input = lines at h ⊢
  induction lines generalizing index with
  | nil =>
    rw [List.foldlM_nil] at h
    cases h
    exact Or.inl hmem
  | cons line rest ih =>
    rw [List.foldlM_cons] at h
    obtain ⟨middle, hmiddle, h⟩ := Option.bind_eq_some_iff.mp h
    rcases ih h with hold | ⟨other, hother, hfrom⟩
    · rcases readLine_mem hmiddle hold with hbefore | hfrom
      · exact Or.inl hbefore
      · exact Or.inr ⟨line, List.mem_cons_self, hfrom⟩
    · exact Or.inr ⟨other, List.mem_cons_of_mem line hother, hfrom⟩

/-- Entries that replace nothing stand behind the index. -/
theorem foldl_addCacheinfo {index entries : List CacheEntry}
    (hold : ∀ old ∈ index, ∀ new ∈ entries, replaces new old = false)
    (hpair : entries.Pairwise fun old new => replaces new old = false) :
    entries.foldl addCacheinfo index = index ++ entries := by
  induction entries generalizing index with
  | nil => exact (List.append_nil index).symm
  | cons first rest ih =>
    obtain ⟨hfirst, hrest⟩ := List.pairwise_cons.mp hpair
    have hadd : addCacheinfo index first = index ++ [first] := by
      unfold addCacheinfo
      rw [List.filter_eq_self.mpr]
      intro old hmem
      rw [hold old hmem first List.mem_cons_self]
      rfl
    rw [List.foldl_cons, hadd, ih _ hrest, List.append_assoc]
    · rfl
    · intro old hmem new hnew
      rcases List.mem_append.mp hmem with hbefore | hlast
      · exact hold old hbefore new (List.mem_cons_of_mem first hnew)
      · rw [List.mem_singleton.mp hlast]
        exact hfirst new hnew

end

end DevRelay.Git
