import DevRelay.Snapshot.LfsPointers

/-!
# Which texts are pointers

The lines of a text are read one by one, in any order, so the recogniser is right about a
text when each size line has a number and the lines of a pointer stand together only in
a pointer.  The checks of a repository without pointers then never fail.
-/

namespace DevRelay.Snapshot

open DevRelay.Lib DevRelay.Core

/-! ## Pointers -/

def versionLine : List Char := "version ".toList ++ lfsPointerVersion.toList
def oidLine (oid : List Char) : List Char := "oid sha256:".toList ++ oid
def sizeLine (digits : List Char) : List Char := "size ".toList ++ digits

def IsLineEnd (text : List Char) : Prop := text = ['\n'] ∨ text = ['\r', '\n']

/-- A pointer of version 1: the version line, the line of the object name and the line of
the size, in this order, where the last one may be unfinished. -/
def PointerText (text : List Char) (pointer : ParsedLfsPointer) : Prop :=
  ∃ oid digits first second last,
    text = versionLine ++ first ++ (oidLine oid ++ second ++ (sizeLine digits ++ last)) ∧
    IsLineEnd first ∧ IsLineEnd second ∧ (last = [] ∨ IsLineEnd last) ∧
    isOidText oid = true ∧ digits ≠ [] ∧ digits.all Char.isDigit = true ∧
    Nat.ofDigitChars 10 digits 0 < 2 ^ 64 ∧
    pointer = ⟨asciiLowercase oid, UInt64.ofNat (Nat.ofDigitChars 10 digits 0)⟩

def IsLfsPointer (content : List UInt8) (pointer : ParsedLfsPointer) : Prop :=
  ∃ text, fromUtf8 content = some text ∧ PointerText text pointer

/-- A result that is a pointer exactly when the content is one, with what it says, and no
error. -/
def Recognises (content : List UInt8)
    (result : Except DevRelayError (Option ParsedLfsPointer)) : Prop :=
  (∃ found, result = .ok found) ∧
    ∀ pointer, result = .ok (some pointer) ↔ IsLfsPointer content pointer

/-! ## The lines that count -/

def versionOf? (line : List Char) : Option (List Char) := "version ".toList.isPrefixOf? line
def oidOf? (line : List Char) : Option (List Char) := "oid sha256:".toList.isPrefixOf? line
def sizeOf? (line : List Char) : Option (List Char) := "size ".toList.isPrefixOf? line

theorem versionOf?_eq_some {line rest : List Char} :
    versionOf? line = some rest ↔ "version ".toList ++ rest = line :=
  List.isPrefixOf?_eq_some_iff_append_eq

theorem oidOf?_eq_some {line rest : List Char} :
    oidOf? line = some rest ↔ "oid sha256:".toList ++ rest = line :=
  List.isPrefixOf?_eq_some_iff_append_eq

theorem sizeOf?_eq_some {line rest : List Char} :
    sizeOf? line = some rest ↔ "size ".toList ++ rest = line :=
  List.isPrefixOf?_eq_some_iff_append_eq

/-- Every line that begins like a size line carries a number of 64 bits. -/
def SizeLinesRead (rows : List (List Char)) : Prop :=
  ∀ row ∈ rows, ∀ raw, sizeOf? row = some raw → parseUnsigned 64 raw ≠ none

/-- The last version line is the one of a pointer, and there are an object name and a
size. -/
def HoldsPointerLines (rows : List (List Char)) : Prop :=
  (rows.filterMap versionOf?).getLast? = some lfsPointerVersion.toList ∧
    (∃ row ∈ rows, ∃ oid, oidOf? row = some oid ∧ isOidText oid = true) ∧
    ∃ row ∈ rows, sizeOf? row ≠ none

/-- A text on which the recogniser is right when `content` is meant. -/
def ReadsPlainly (content : List UInt8) (text : List Char) : Prop :=
  SizeLinesRead (lines text) ∧
    (HoldsPointerLines (lines text) → ∃ pointer, IsLfsPointer content pointer)

/-- The recogniser is right about a file of the work tree. -/
def WorktreePlain (content : List UInt8) : Prop :=
  ∀ text, fromUtf8 content = some text → ReadsPlainly content text

/-- The recogniser is right about a blob. -/
def BlobPlain (content : List UInt8) : Prop :=
  ReadsPlainly content (trimEnd (fromUtf8Lossy content))

/-! ## One line -/

section

variable {debug : String → String} {found next : PointerLines} {row rest : List Char}

theorem readPointerLine_version (h : versionOf? row = some rest) :
    readPointerLine debug found row =
      .ok { found with versionOk := rest = lfsPointerVersion.toList } := by
  unfold versionOf? at h
  rw [readPointerLine, h]

theorem versionOf?_of_oid (h : oidOf? row = some rest) : versionOf? row = none := by
  rw [← oidOf?_eq_some.mp h]
  rfl

theorem versionOf?_of_size (h : sizeOf? row = some rest) : versionOf? row = none := by
  rw [← sizeOf?_eq_some.mp h]
  rfl

theorem oidOf?_of_size (h : sizeOf? row = some rest) : oidOf? row = none := by
  rw [← sizeOf?_eq_some.mp h]
  rfl

theorem oidOf?_of_version (h : versionOf? row = some rest) : oidOf? row = none := by
  rw [← versionOf?_eq_some.mp h]
  rfl

theorem sizeOf?_of_version (h : versionOf? row = some rest) : sizeOf? row = none := by
  rw [← versionOf?_eq_some.mp h]
  rfl

theorem sizeOf?_of_oid (h : oidOf? row = some rest) : sizeOf? row = none := by
  rw [← oidOf?_eq_some.mp h]
  rfl

theorem readPointerLine_oid (h : oidOf? row = some rest) :
    readPointerLine debug found row =
      if isOidText rest then .ok { found with oidSha256 := some (asciiLowercase rest) }
      else .ok found := by
  have hversion := versionOf?_of_oid h
  unfold versionOf? at hversion
  unfold oidOf? at h
  rw [readPointerLine, hversion, h]

theorem readPointerLine_size (h : sizeOf? row = some rest) :
    readPointerLine debug found row =
      match parseUnsigned 64 rest with
      | some size => .ok { found with size := some (UInt64.ofNat size) }
      | none => .error (.config
          ("invalid Git LFS pointer size: " ++ debug (String.ofList rest))) := by
  have hversion := versionOf?_of_size h
  have hoid := oidOf?_of_size h
  unfold versionOf? at hversion
  unfold oidOf? at hoid
  unfold sizeOf? at h
  cases hparse : parseUnsigned 64 rest <;>
    simp only [readPointerLine, hversion, hoid, h, hparse]

theorem readPointerLine_other (hversion : versionOf? row = none) (hoid : oidOf? row = none)
    (hsize : sizeOf? row = none) : readPointerLine debug found row = .ok found := by
  unfold versionOf? at hversion
  unfold oidOf? at hoid
  unfold sizeOf? at hsize
  rw [readPointerLine, hversion, hoid, hsize]

/-- What is known after a line that could be read. -/
structure AfterLine (found : PointerLines) (row : List Char) (next : PointerLines) : Prop where
  version : next.versionOk =
    ((versionOf? row).map fun version => decide (version = lfsPointerVersion.toList)).getD
      found.versionOk
  oid : next.oidSha256 ≠ none ↔
    found.oidSha256 ≠ none ∨ ∃ oid, oidOf? row = some oid ∧ isOidText oid = true
  size : next.size ≠ none ↔ found.size ≠ none ∨ sizeOf? row ≠ none
  read : ∀ raw, sizeOf? row = some raw → parseUnsigned 64 raw ≠ none

theorem afterLine_of_ok (h : readPointerLine debug found row = .ok next) :
    AfterLine found row next := by
  cases hversion : versionOf? row with
  | some version =>
    rw [readPointerLine_version hversion] at h
    cases h
    have hoid := oidOf?_of_version hversion
    have hsize := sizeOf?_of_version hversion
    constructor <;> simp [hversion, hoid, hsize]
  | none =>
    cases hoid : oidOf? row with
    | some oid =>
      rw [readPointerLine_oid hoid] at h
      have hsize := sizeOf?_of_oid hoid
      by_cases htext : isOidText oid = true
      · rw [if_pos htext] at h
        cases h
        constructor <;> simp [hversion, hoid, hsize, htext]
      · rw [if_neg htext] at h
        cases h
        constructor <;> simp [hversion, hoid, hsize, htext]
    | none =>
      cases hsize : sizeOf? row with
      | some raw =>
        rw [readPointerLine_size hsize] at h
        cases hparse : parseUnsigned 64 raw with
        | none =>
          rw [hparse] at h
          cases h
        | some size =>
          rw [hparse] at h
          cases h
          constructor <;> simp [hversion, hoid, hsize, hparse]
      | none =>
        rw [readPointerLine_other hversion hoid hsize] at h
        cases h
        constructor <;> simp [hversion, hoid, hsize]

variable (debug found) in
theorem exists_readPointerLine
    (h : ∀ raw, sizeOf? row = some raw → parseUnsigned 64 raw ≠ none) :
    ∃ next, readPointerLine debug found row = .ok next := by
  cases hversion : versionOf? row with
  | some version => exact ⟨_, readPointerLine_version hversion⟩
  | none =>
    cases hoid : oidOf? row with
    | some oid =>
      rw [readPointerLine_oid hoid]
      split
      · exact ⟨_, rfl⟩
      · exact ⟨_, rfl⟩
    | none =>
      cases hsize : sizeOf? row with
      | some raw =>
        obtain ⟨size, hparse⟩ := Option.ne_none_iff_exists'.mp (h raw hsize)
        rw [readPointerLine_size hsize, hparse]
        exact ⟨_, rfl⟩
      | none => exact ⟨_, readPointerLine_other hversion hoid hsize⟩

/-! ## All lines -/

/-- What is known after the lines of a text, starting from nothing or from the lines in
front of them. -/
structure AfterLines (found : PointerLines) (rows : List (List Char)) (next : PointerLines) :
    Prop where
  version : next.versionOk = ((rows.filterMap versionOf?).getLast?.map
    fun version => decide (version = lfsPointerVersion.toList)).getD found.versionOk
  oid : next.oidSha256 ≠ none ↔ found.oidSha256 ≠ none ∨
    ∃ row ∈ rows, ∃ oid, oidOf? row = some oid ∧ isOidText oid = true
  size : next.size ≠ none ↔ found.size ≠ none ∨ ∃ row ∈ rows, sizeOf? row ≠ none
  read : SizeLinesRead rows

theorem foldlM_cons_ok {rows : List (List Char)} :
    (row :: rows).foldlM (readPointerLine debug) found = .ok next ↔
      ∃ between, readPointerLine debug found row = .ok between ∧
        rows.foldlM (readPointerLine debug) between = .ok next := by
  rw [List.foldlM_cons, bind_eq_ok_iff]

theorem afterLines_of_ok {rows : List (List Char)}
    (h : rows.foldlM (readPointerLine debug) found = .ok next) :
    AfterLines found rows next := by
  induction rows generalizing found with
  | nil =>
    cases h
    constructor <;> simp [SizeLinesRead]
  | cons row rows ih =>
    obtain ⟨between, hrow, hrows⟩ := foldlM_cons_ok.mp h
    have hline := afterLine_of_ok hrow
    have hlines := ih hrows
    constructor
    · rw [hlines.version, hline.version, List.filterMap_cons]
      cases versionOf? row with
      | none => rfl
      | some version =>
        rw [List.getLast?_cons]
        cases (rows.filterMap versionOf?).getLast? <;> rfl
    · rw [hlines.oid, hline.oid, or_assoc, List.exists_mem_cons_iff]
    · rw [hlines.size, hline.size, or_assoc, List.exists_mem_cons_iff]
    · intro other hother
      cases List.mem_cons.mp hother with
      | inl heq =>
        rw [heq]
        exact hline.read
      | inr hmem => exact hlines.read other hmem

variable (debug) in
theorem exists_foldlM_readPointerLine {rows : List (List Char)} (h : SizeLinesRead rows)
    (found : PointerLines) :
    ∃ next, rows.foldlM (readPointerLine debug) found = .ok next := by
  induction rows generalizing found with
  | nil => exact ⟨found, rfl⟩
  | cons row rows ih =>
    obtain ⟨between, hbetween⟩ := exists_readPointerLine debug found
      (h row List.mem_cons_self)
    obtain ⟨next, hnext⟩ := ih (fun other hother => h other (List.mem_cons_of_mem row hother))
      between
    exact ⟨next, foldlM_cons_ok.mpr ⟨between, hbetween, hnext⟩⟩

theorem pointer?_ne_none : found.pointer? ≠ none ↔
    found.versionOk = true ∧ found.oidSha256 ≠ none ∧ found.size ≠ none := by
  obtain ⟨version, oid, size⟩ := found
  cases version <;> cases oid <;> cases size <;> simp [PointerLines.pointer?]

theorem parseLfsPointer_eq_ok {text : List Char} {result : Option ParsedLfsPointer} :
    parseLfsPointer debug text = .ok result ↔
      ∃ found, (lines text).foldlM (readPointerLine debug) {} = .ok found ∧
        found.pointer? = result := by
  unfold parseLfsPointer
  rw [bind_eq_ok_iff]
  simp only [pure, Except.pure, Except.ok.injEq]

variable (debug) in
/-- A text is read without an error exactly when its size lines have numbers. -/
theorem exists_parseLfsPointer_iff {text : List Char} :
    (∃ result, parseLfsPointer debug text = .ok result) ↔ SizeLinesRead (lines text) := by
  constructor
  · rintro ⟨result, hresult⟩
    obtain ⟨found, hfound, -⟩ := parseLfsPointer_eq_ok.mp hresult
    exact (afterLines_of_ok hfound).read
  · intro h
    obtain ⟨found, hfound⟩ := exists_foldlM_readPointerLine debug h {}
    exact ⟨_, parseLfsPointer_eq_ok.mpr ⟨found, hfound, rfl⟩⟩

/-- Something is found exactly when the lines of a pointer stand in the text. -/
theorem parseLfsPointer_found {text : List Char} {result : Option ParsedLfsPointer}
    (h : parseLfsPointer debug text = .ok result) :
    result ≠ none ↔ HoldsPointerLines (lines text) := by
  obtain ⟨found, hfound, hresult⟩ := parseLfsPointer_eq_ok.mp h
  have hlines := afterLines_of_ok hfound
  rw [← hresult, pointer?_ne_none, hlines.version, hlines.oid, hlines.size, HoldsPointerLines]
  cases ((lines text).filterMap versionOf?).getLast? <;> simp

/-- The recogniser is right about a text as what `meant` says, when what is meant is
found. -/
theorem right_iff {text : List Char} {meant : ParsedLfsPointer → Prop}
    (hmeant : ∀ pointer, meant pointer → parseLfsPointer debug text = .ok (some pointer)) :
    ((∃ result, parseLfsPointer debug text = .ok result) ∧
      ∀ pointer, parseLfsPointer debug text = .ok (some pointer) ↔ meant pointer) ↔
    SizeLinesRead (lines text) ∧ (HoldsPointerLines (lines text) → ∃ pointer, meant pointer) := by
  rw [exists_parseLfsPointer_iff]
  apply and_congr_right
  intro hread
  obtain ⟨result, hresult⟩ := (exists_parseLfsPointer_iff debug).mpr hread
  have hfound := parseLfsPointer_found hresult
  constructor
  · intro hright hholds
    obtain ⟨pointer, hpointer⟩ := Option.ne_none_iff_exists'.mp (hfound.mpr hholds)
    rw [hpointer] at hresult
    exact ⟨pointer, (hright pointer).mp hresult⟩
  · intro hplain pointer
    constructor
    · intro hpointer
      have hsame : result = some pointer := Except.ok.inj (hresult.symm.trans hpointer)
      obtain ⟨other, hother⟩ := hplain (hfound.mp (by rw [hsame]; exact Option.some_ne_none _))
      have hagree := Except.ok.inj (hpointer.symm.trans (hmeant other hother))
      rw [Option.some.inj hagree]
      exact hother
    · exact hmeant pointer

/-! ## A pointer is found -/

theorem stripCarriageReturn_of_notMem {line : List Char} (h : '\r' ∉ line) :
    stripCarriageReturn line = line := by
  unfold stripCarriageReturn
  rw [if_neg]
  intro hlast
  exact h (List.mem_of_getLast? hlast)

theorem lines_ended {line ending : List Char} (hfeed : '\n' ∉ line) (hreturn : '\r' ∉ line)
    (hending : IsLineEnd ending) (rest : List Char) :
    lines (line ++ ending ++ rest) = line :: lines rest := by
  cases hending with
  | inl h =>
    rw [h, List.append_assoc, List.singleton_append, lines_line hfeed,
      stripCarriageReturn_of_notMem hreturn]
  | inr h =>
    have hline : '\n' ∉ line ++ ['\r'] := by
      rw [List.mem_append, List.mem_singleton]
      exact fun hmem => hmem.elim hfeed (by decide)
    have hsplit : line ++ ending ++ rest = (line ++ ['\r']) ++ '\n' :: rest := by
      rw [h]
      simp
    rw [hsplit, lines_line hline, stripCarriageReturn, if_pos List.getLast?_concat,
      List.dropLast_concat]

theorem notMem_oidLine {oid : List Char} (h : isOidText oid = true) :
    '\n' ∉ oidLine oid ∧ '\r' ∉ oidLine oid := by
  rw [isOidText, Bool.and_eq_true, List.all_eq_true] at h
  constructor
  · intro hmem
    cases List.mem_append.mp hmem with
    | inl hname => exact absurd hname (by decide)
    | inr hoid => exact absurd (h.2 _ hoid) (by decide)
  · intro hmem
    cases List.mem_append.mp hmem with
    | inl hname => exact absurd hname (by decide)
    | inr hoid => exact absurd (h.2 _ hoid) (by decide)

theorem notMem_sizeLine {digits : List Char} (h : digits.all Char.isDigit = true) :
    '\n' ∉ sizeLine digits ∧ '\r' ∉ sizeLine digits := by
  rw [List.all_eq_true] at h
  constructor
  · intro hmem
    cases List.mem_append.mp hmem with
    | inl hname => exact absurd hname (by decide)
    | inr hdigit => exact absurd (h _ hdigit) (by decide)
  · intro hmem
    cases List.mem_append.mp hmem with
    | inl hname => exact absurd hname (by decide)
    | inr hdigit => exact absurd (h _ hdigit) (by decide)

/-- The three lines are read as what they say. -/
theorem parseLfsPointer_of_lines {text oid digits : List Char}
    (hlines : lines text = [versionLine, oidLine oid, sizeLine digits])
    (hoid : isOidText oid = true) (hne : digits ≠ []) (hdigits : digits.all Char.isDigit = true)
    (hfits : Nat.ofDigitChars 10 digits 0 < 2 ^ 64) :
    parseLfsPointer debug text = .ok (some
      ⟨asciiLowercase oid, UInt64.ofNat (Nat.ofDigitChars 10 digits 0)⟩) := by
  have hparse : parseUnsigned 64 digits = some (Nat.ofDigitChars 10 digits 0) :=
    parseUnsigned_digits hne hdigits hfits
  have hversion : versionOf? versionLine = some lfsPointerVersion.toList :=
    versionOf?_eq_some.mpr rfl
  have hname : oidOf? (oidLine oid) = some oid := oidOf?_eq_some.mpr rfl
  have hsize : sizeOf? (sizeLine digits) = some digits := sizeOf?_eq_some.mpr rfl
  rw [parseLfsPointer_eq_ok, hlines]
  refine ⟨⟨true, some (asciiLowercase oid),
    some (UInt64.ofNat (Nat.ofDigitChars 10 digits 0))⟩, ?_, rfl⟩
  have hfirst : readPointerLine debug {} versionLine = .ok ⟨true, none, none⟩ := by
    rw [readPointerLine_version hversion, decide_eq_true rfl]
  have hsecond : readPointerLine debug ⟨true, none, none⟩ (oidLine oid) =
      .ok ⟨true, some (asciiLowercase oid), none⟩ := by
    rw [readPointerLine_oid hname, if_pos hoid]
  have hthird : readPointerLine debug ⟨true, some (asciiLowercase oid), none⟩
      (sizeLine digits) = .ok ⟨true, some (asciiLowercase oid),
        some (UInt64.ofNat (Nat.ofDigitChars 10 digits 0))⟩ := by
    rw [readPointerLine_size hsize, hparse]
  exact foldlM_cons_ok.mpr ⟨_, hfirst, foldlM_cons_ok.mpr ⟨_, hsecond,
    foldlM_cons_ok.mpr ⟨_, hthird, rfl⟩⟩⟩

theorem isSpace_of_mem_lineEnd {ending : List Char} (h : ending = [] ∨ IsLineEnd ending) :
    ∀ c ∈ ending, isSpace c = true := by
  intro c hc
  rcases h with rfl | rfl | rfl
  · cases hc
  · rw [List.mem_singleton.mp hc]
    decide
  · cases List.mem_cons.mp hc with
    | inl h =>
      rw [h]
      decide
    | inr h =>
      rw [List.mem_singleton.mp h]
      decide

theorem isSpace_of_isDigit {c : Char} (h : c.isDigit = true) : isSpace c = false := by
  unfold Char.isDigit at h
  simp only [Bool.and_eq_true, decide_eq_true_eq] at h
  have hlow : 48 ≤ c.toNat := UInt32.le_iff_toNat_le.mp h.1
  have hhigh : c.toNat ≤ 57 := UInt32.le_iff_toNat_le.mp h.2
  unfold isSpace
  generalize c.toNat = n at hlow hhigh
  simp only [Bool.or_eq_false_iff, Bool.and_eq_false_iff, decide_eq_false_iff_not]
  omega

/-- A pointer is found in its text, also when the end of it is cut off. -/
theorem parse_of_pointerText {text : List Char} {pointer : ParsedLfsPointer}
    (h : PointerText text pointer) :
    parseLfsPointer debug text = .ok (some pointer) ∧
      parseLfsPointer debug (trimEnd text) = .ok (some pointer) := by
  obtain ⟨oid, digits, first, second, last, htext, hfirst, hsecond, hlast, hoid, hne, hdigits,
    hfits, hpointer⟩ := h
  have hversion : '\n' ∉ versionLine ∧ '\r' ∉ versionLine := by
    constructor <;> decide
  have hname := notMem_oidLine hoid
  have hsize := notMem_sizeLine hdigits
  have hfront : ∀ rest, lines (versionLine ++ first ++ (oidLine oid ++ second ++ rest)) =
      versionLine :: oidLine oid :: lines rest := by
    intro rest
    rw [lines_ended hversion.1 hversion.2 hfirst, lines_ended hname.1 hname.2 hsecond]
  have hunfinished : lines (sizeLine digits) = [sizeLine digits] :=
    lines_last hsize.1 (by simp [sizeLine])
  have hend : lines (sizeLine digits ++ last) = [sizeLine digits] := by
    cases hlast with
    | inl hnil => rw [hnil, List.append_nil, hunfinished]
    | inr hended =>
      have hall := lines_ended hsize.1 hsize.2 hended []
      rwa [List.append_nil, lines_nil] at hall
  have htrimmed : trimEnd text =
      versionLine ++ first ++ (oidLine oid ++ second ++ sizeLine digits) := by
    obtain ⟨front, final, hdigit⟩ := List.eq_nil_or_concat digits |>.resolve_left hne
    rw [List.concat_eq_append] at hdigit
    have hfinal : isSpace final = false := by
      apply isSpace_of_isDigit
      rw [List.all_eq_true] at hdigits
      exact hdigits final (by rw [hdigit]; simp)
    have hshape : text = (versionLine ++ first ++ (oidLine oid ++ second ++
        ("size ".toList ++ front))) ++ final :: last := by
      rw [htext, hdigit, sizeLine]
      simp
    rw [hshape, trimEnd_append (isSpace_of_mem_lineEnd hlast) hfinal, hdigit, sizeLine]
    simp
  rw [hpointer]
  constructor
  · apply parseLfsPointer_of_lines _ hoid hne hdigits hfits
    rw [htext, hfront, hend]
  · apply parseLfsPointer_of_lines _ hoid hne hdigits hfits
    rw [htrimmed, hfront, hunfinished]

/-! ## Files and blobs -/

theorem worktree_recognises_iff {content : List UInt8} (hsize : content.length ≤ 1024) :
    Recognises content (parseLfsPointerFromWorktree debug content) ↔ WorktreePlain content := by
  unfold parseLfsPointerFromWorktree
  rw [if_neg (by omega)]
  cases htext : fromUtf8 content with
  | none =>
    simp [Recognises, WorktreePlain, IsLfsPointer, htext]
  | some text =>
    have hmeant : ∀ pointer, IsLfsPointer content pointer →
        parseLfsPointer debug text = .ok (some pointer) := by
      rintro pointer ⟨other, hother, hpointer⟩
      rw [htext] at hother
      cases hother
      exact (parse_of_pointerText hpointer).1
    simp only [WorktreePlain, htext, Option.some.injEq, forall_eq']
    exact right_iff hmeant

theorem blob_recognises_iff {content : List UInt8} (hsize : content.length ≤ 1024) :
    Recognises content (parseLfsPointerFromBlob debug content) ↔ BlobPlain content := by
  unfold parseLfsPointerFromBlob
  rw [if_neg (by omega)]
  have hmeant : ∀ pointer, IsLfsPointer content pointer →
      parseLfsPointer debug (trimEnd (fromUtf8Lossy content)) = .ok (some pointer) := by
    rintro pointer ⟨text, htext, hpointer⟩
    rw [fromUtf8Lossy_of_fromUtf8 htext]
    exact (parse_of_pointerText hpointer).2
  exact right_iff hmeant

section NoPointer

variable {content : List UInt8} {result : Except DevRelayError (Option ParsedLfsPointer)}

/-- Without a pointer, being right is finding nothing. -/
theorem recognises_iff_none (hno : ∀ pointer, ¬IsLfsPointer content pointer) :
    Recognises content result ↔ result = .ok none := by
  constructor
  · rintro ⟨⟨found, hfound⟩, hright⟩
    cases found with
    | none => exact hfound
    | some pointer => exact absurd ((hright pointer).mp hfound) (hno pointer)
  · intro h
    rw [h]
    refine ⟨⟨none, rfl⟩, fun pointer => ⟨fun h => ?_, fun h => absurd h (hno pointer)⟩⟩
    cases Except.ok.inj h

variable (debug) in
theorem worktree_none_iff (hno : ∀ pointer, ¬IsLfsPointer content pointer) :
    parseLfsPointerFromWorktree debug content = .ok none ↔
      (content.length ≤ 1024 → WorktreePlain content) := by
  by_cases hsize : content.length ≤ 1024
  · rw [← recognises_iff_none hno, worktree_recognises_iff hsize]
    exact ⟨fun h _ => h, fun h => h hsize⟩
  · rw [parseLfsPointerFromWorktree, if_pos (by omega)]
    exact ⟨fun _ h => absurd h hsize, fun _ => rfl⟩

variable (debug) in
theorem blob_none_iff (hno : ∀ pointer, ¬IsLfsPointer content pointer) :
    parseLfsPointerFromBlob debug content = .ok none ↔
      (content.length ≤ 1024 → BlobPlain content) := by
  by_cases hsize : content.length ≤ 1024
  · rw [← recognises_iff_none hno, blob_recognises_iff hsize]
    exact ⟨fun h _ => h, fun h => h hsize⟩
  · rw [parseLfsPointerFromBlob, if_pos (by omega)]
    exact ⟨fun _ h => absurd h hsize, fun _ => rfl⟩

end NoPointer

end

/-! ## A whole repository -/

namespace LfsRepo

/-- The repository without an LFS object in its git directory. -/
def withoutObjects (repo : LfsRepo) : LfsRepo := { repo with localObject := fun _ _ => false }

section Collect

variable {α : Type} {repo : LfsRepo}
  {read : α → Except DevRelayError (Option (String × ParsedLfsPointer))}
  {upstream : Option (String → UInt64 → Bool)}

theorem collectPointers_cons_ok {a : α} {rest : List α} {pointers : List LfsPointer} :
    repo.collectPointers read upstream (a :: rest) = .ok pointers ↔
      (read a = .ok none ∧ repo.collectPointers read upstream rest = .ok pointers) ∨
      ∃ path pointer later, read a = .ok (some (path, pointer)) ∧
        repo.collectPointers read upstream rest = .ok later ∧
        pointers = repo.lfsPointerReport path pointer upstream :: later := by
  rw [collectPointers, bind_eq_ok_iff]
  constructor
  · rintro ⟨found, hfound, hrest⟩
    cases found with
    | none => exact Or.inl ⟨hfound, hrest⟩
    | some found =>
      obtain ⟨later, hlater, heq⟩ := bind_eq_ok_iff.mp hrest
      exact Or.inr ⟨found.1, found.2, later, hfound, hlater, (Except.ok.inj heq).symm⟩
  · rintro (⟨hread, hrest⟩ | ⟨path, pointer, later, hread, hrest, heq⟩)
    · exact ⟨none, hread, hrest⟩
    · exact ⟨some (path, pointer), hread, bind_eq_ok_iff.mpr ⟨later, hrest, by rw [heq]; rfl⟩⟩

theorem collectPointers_eq_nil {as : List α} :
    repo.collectPointers read upstream as = .ok [] ↔ ∀ a ∈ as, read a = .ok none := by
  induction as with
  | nil => exact ⟨fun _ a ha => absurd ha List.not_mem_nil, fun _ => rfl⟩
  | cons a rest ih =>
    rw [collectPointers_cons_ok, List.forall_mem_cons, ih]
    constructor
    · rintro (h | ⟨_, _, _, _, _, heq⟩)
      · exact h
      · cases heq
    · exact Or.inl

variable (repo) in
theorem absent_of_collectPointers {as : List α} {pointers : List LfsPointer}
    (h : repo.withoutObjects.collectPointers read upstream as = .ok pointers) :
    ∀ pointer ∈ pointers, pointer.localObjectPresent = false := by
  induction as generalizing pointers with
  | nil =>
    cases h
    exact fun pointer hmem => absurd hmem List.not_mem_nil
  | cons a rest ih =>
    rcases collectPointers_cons_ok.mp h with
      ⟨-, hrest⟩ | ⟨path, parsed, later, -, hrest, heq⟩
    · exact ih hrest
    · rw [heq, List.forall_mem_cons]
      exact ⟨rfl, ih hrest⟩

end Collect

/-- Pointers without their objects are all missing. -/
theorem missingObjects_eq_nil {pointers : List LfsPointer}
    (habsent : ∀ pointer ∈ pointers, pointer.localObjectPresent = false) :
    (reportForPointers pointers).missingObjects = [] ↔ pointers = [] := by
  constructor
  · intro h
    have hmissing := List.map_eq_nil_iff.mp h
    rw [List.filter_eq_nil_iff] at hmissing
    have hdistinct : (pointers.insertionSort fun left right =>
        pointerBefore left right = true).destutter (· ≠ ·) = [] := by
      apply List.eq_nil_iff_forall_not_mem.mpr
      intro pointer hmem
      have hsorted := (List.destutter_sublist (· ≠ ·) _).subset hmem
      have hin := (List.perm_insertionSort _ pointers).subset hsorted
      exact hmissing pointer hmem (by rw [habsent pointer hin]; rfl)
    rw [List.destutter_eq_nil] at hdistinct
    exact (List.perm_nil.mp (hdistinct ▸ (List.perm_insertionSort _ pointers).symm))
  · intro h
    rw [h]
    rfl

theorem ensureReport_eq_ok {report : LfsObjectReport} :
    ensureLfsReportObjectsAvailable report = .ok () ↔ report.missingObjects = [] := by
  unfold ensureLfsReportObjectsAvailable
  split
  · rename_i h
    simp [h]
  · rename_i h
    simp [h]

variable (debug : String → String) (repo : LfsRepo)

/-- The check of a work tree passes whatever objects there are, exactly when nothing in it
is taken for a pointer. -/
theorem createLfsCheck_iff :
    (∀ localObject, createLfsCheck debug { repo with localObject := localObject } = .ok ()) ↔
      ∀ path ∈ repo.trackedPaths, repo.readTracked debug path = .ok none := by
  constructor
  · intro h
    obtain ⟨report, hreport, hensure⟩ := bind_eq_ok_iff.mp (h fun _ _ => false)
    obtain ⟨pointers, hpointers, heq⟩ := bind_eq_ok_iff.mp hreport
    rw [ensureReport_eq_ok, ← Except.ok.inj heq,
      missingObjects_eq_nil (absent_of_collectPointers repo hpointers)] at hensure
    rw [hensure] at hpointers
    exact collectPointers_eq_nil.mp hpointers
  · intro h localObject
    have hnone : LfsRepo.collectPointers { repo with localObject := localObject }
        (repo.readTracked debug) repo.upstreamObject repo.trackedPaths = .ok [] :=
      collectPointers_eq_nil.mpr h
    exact bind_eq_ok_iff.mpr ⟨_, bind_eq_ok_iff.mpr ⟨_, hnone, rfl⟩, rfl⟩

theorem applyLfsCheck_iff (indexTreeOid workTreeOid : String) :
    (∀ localObject, applyLfsCheck debug { repo with localObject := localObject } indexTreeOid
      workTreeOid = .ok ()) ↔
      ∀ treeish ∈ [indexTreeOid, workTreeOid], ∀ record ∈ repo.treeRecords treeish,
        repo.readRecord debug record = .ok none := by
  constructor
  · intro h
    obtain ⟨report, hreport, hensure⟩ := bind_eq_ok_iff.mp (h fun _ _ => false)
    obtain ⟨index, hindex, hreport⟩ := bind_eq_ok_iff.mp hreport
    obtain ⟨work, hwork, heq⟩ := bind_eq_ok_iff.mp hreport
    have hmissing : report.missingObjects = [] := by
      by_contra hne
      simp [hne] at hensure
    have habsent : ∀ pointer ∈ index ++ work, pointer.localObjectPresent = false := by
      rw [List.forall_mem_append]
      exact ⟨absent_of_collectPointers repo hindex, absent_of_collectPointers repo hwork⟩
    rw [← Except.ok.inj heq, missingObjects_eq_nil habsent] at hmissing
    obtain ⟨hnoindex, hnowork⟩ := List.append_eq_nil_iff.mp hmissing
    rw [hnoindex] at hindex
    rw [hnowork] at hwork
    intro treeish htreeish
    simp only [List.mem_cons, List.not_mem_nil, or_false] at htreeish
    rcases htreeish with rfl | rfl
    · exact collectPointers_eq_nil.mp hindex
    · exact collectPointers_eq_nil.mp hwork
  · intro h localObject
    have hnone : ∀ treeish ∈ [indexTreeOid, workTreeOid],
        LfsRepo.lfsPointersInTree debug { repo with localObject := localObject } treeish =
          .ok [] := fun treeish hmem => collectPointers_eq_nil.mpr (h treeish hmem)
    have hindex := hnone indexTreeOid List.mem_cons_self
    have hwork := hnone workTreeOid (List.mem_cons_of_mem _ List.mem_cons_self)
    have hreport : LfsRepo.inspectSnapshotLfsObjects debug
        { repo with localObject := localObject } indexTreeOid workTreeOid =
          .ok (reportForPointers []) := by
      unfold LfsRepo.inspectSnapshotLfsObjects
      rw [hindex, hwork]
      rfl
    unfold applyLfsCheck ensureSnapshotLfsObjectsAvailableInner
    rw [hreport]
    rfl

/-- No tracked file of the work tree is a pointer. -/
def TracksNoPointer : Prop :=
  ∀ path ∈ repo.trackedPaths, ∀ content, repo.regularFile path = some content →
    ∀ pointer, ¬IsLfsPointer content pointer

/-- Git lists the trees, and none of their blobs is a pointer. -/
def TreesHoldNoPointer (trees : List String) : Prop :=
  ∀ treeish ∈ trees, ∀ record ∈ repo.treeRecords treeish,
    ∃ found, blobOfRecord debug record = .ok found ∧
      ∀ path oid, found = some (path, oid) → ∀ pointer, ¬IsLfsPointer (repo.blob oid) pointer

variable {debug repo}

theorem readTracked_none_iff (h : repo.TracksNoPointer) {path : String}
    (hpath : path ∈ repo.trackedPaths) :
    repo.readTracked debug path = .ok none ↔
      ∀ content, repo.regularFile path = some content → content.length ≤ 1024 →
        WorktreePlain content := by
  unfold readTracked
  cases hfile : repo.regularFile path with
  | none => simp
  | some content =>
    have hnone := worktree_none_iff debug (h path hpath content hfile)
    simp only [Option.some.injEq, forall_eq']
    rw [← hnone, bind_eq_ok_iff]
    constructor
    · rintro ⟨pointer, hpointer, heq⟩
      have hmap := Option.map_eq_none_iff.mp (Except.ok.inj heq)
      rw [hpointer, hmap]
    · intro hparse
      exact ⟨none, hparse, rfl⟩

theorem readRecord_none_iff {trees : List String} (h : repo.TreesHoldNoPointer debug trees)
    {treeish : String} (htreeish : treeish ∈ trees) {record : List Char}
    (hrecord : record ∈ repo.treeRecords treeish) :
    repo.readRecord debug record = .ok none ↔
      ∀ path oid, blobOfRecord debug record = .ok (some (path, oid)) →
        (repo.blob oid).length ≤ 1024 → BlobPlain (repo.blob oid) := by
  obtain ⟨found, hfound, hno⟩ := h treeish htreeish record hrecord
  unfold readRecord
  rw [hfound]
  cases found with
  | none => simp [bind, Except.bind, pure, Except.pure]
  | some blob =>
    have hnone := blob_none_iff debug (hno blob.1 blob.2 rfl)
    have hsame : (∀ path oid, (.ok (some blob) : Except DevRelayError (Option (String × String))) =
          .ok (some (path, oid)) → (repo.blob oid).length ≤ 1024 → BlobPlain (repo.blob oid)) ↔
        ((repo.blob blob.2).length ≤ 1024 → BlobPlain (repo.blob blob.2)) := by
      constructor
      · exact fun hall => hall blob.1 blob.2 rfl
      · intro hplain path oid heq
        cases heq
        exact hplain
    rw [hsame, ← hnone]
    change (parseLfsPointerFromBlob debug (repo.blob blob.2) >>= fun pointer =>
      pure (pointer.map fun pointer => (blob.1, pointer))) = _ ↔ _
    rw [bind_eq_ok_iff]
    constructor
    · rintro ⟨pointer, hpointer, heq⟩
      have hmap := Option.map_eq_none_iff.mp (Except.ok.inj heq)
      rw [hpointer, hmap]
    · intro hparse
      exact ⟨none, hparse, rfl⟩

end LfsRepo

/-- A repository with one file of the given text. -/
def demoLfsRepo (text : String) : LfsRepo where
  lsFiles := "notes.txt\x00".toList
  regularFile := fun path => if path = "notes.txt" then some (utf8 text) else none
  lsTree := fun _ =>
    "100644 blob ce013625030ba8dba906f756967f9e9ca394464a\tnotes.txt\x00".toList
  blob := fun _ => utf8 text
  localObject := fun _ _ => false

theorem not_isLfsPointer_of_head {text : String} (h : text.toList.head? ≠ some 'v')
    (pointer : ParsedLfsPointer) : ¬IsLfsPointer (utf8 text) pointer := by
  rintro ⟨chars, hchars, oid, digits, first, second, last, htext, -⟩
  rw [fromUtf8_utf8] at hchars
  rw [Option.some.inj hchars, htext] at h
  exact h rfl

theorem readsPlainly_hello : ReadsPlainly (utf8 "hello\n") "hello\n".toList ∧
    ReadsPlainly (utf8 "hello\n") "hello".toList := by
  have hlines : lines "hello\n".toList = ["hello".toList] ∧
      lines "hello".toList = ["hello".toList] := by
    decide
  have hrow : ReadsPlainly (utf8 "hello\n") "hello".toList := by
    unfold ReadsPlainly SizeLinesRead HoldsPointerLines
    rw [hlines.2]
    simp [versionOf?, oidOf?, sizeOf?, List.isPrefixOf?]
  refine ⟨?_, hrow⟩
  unfold ReadsPlainly at hrow ⊢
  rw [hlines.1, ← hlines.2]
  exact hrow

end DevRelay.Snapshot
