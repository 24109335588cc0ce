import DevRelay.Core.Error
import DevRelay.Lib.SortedMap
import Mathlib.Data.Finset.Card
import Mathlib.Data.List.Dedup
import Mathlib.Data.List.Sort
import Mathlib.Data.String.Basic

/-!
# Portable paths

`analyze_path_entries`: paths that a target may not tell apart, and components
that Windows does not accept.  Each of the two collisions is looked for on whole
paths, under one key at a time.
-/

namespace DevRelay.Snapshot.PathDoctor

open DevRelay.Lib DevRelay.Core

/-! ## Platforms -/

structure PlatformCapabilities where
  symlinks : Bool
  caseSensitivePaths : Bool
  deriving DecidableEq, Repr

def capabilitiesFor (family : String) : PlatformCapabilities :=
  match family with
  | "darwin" => { symlinks := true, caseSensitivePaths := false }
  | "linux" => { symlinks := true, caseSensitivePaths := true }
  | "wsl2" => { symlinks := true, caseSensitivePaths := true }
  | "windows" => { symlinks := false, caseSensitivePaths := false }
  | _ => { symlinks := false, caseSensitivePaths := true }

def startsWith (text start : String) : Bool := start.toList.isPrefixOf text.toList

def platformCapabilitiesForKey (platformKey : String) : PlatformCapabilities :=
  if startsWith platformKey "darwin-" then capabilitiesFor "darwin"
  else if startsWith platformKey "linux-gnu-" then capabilitiesFor "linux"
  else if startsWith platformKey "wsl2-linux-gnu-" then capabilitiesFor "wsl2"
  else if startsWith platformKey "windows-native-" then capabilitiesFor "windows"
  else capabilitiesFor "unknown"

/-! ## Issues -/

inductive PathPortabilityIssueCode where
  | caseFoldCollision
  | unicodeNormalizationCollision
  | windowsReservedName
  | windowsTrailingDotOrSpace
  | windowsInvalidCharacter
  | pathLengthBudget
  | symlinkUnsupportedOnTarget
  deriving DecidableEq, Repr

inductive PathPortabilityPathSource where
  | tracked
  | acceptedUntracked
  deriving DecidableEq, Repr

structure PathEntry where
  path : String
  source : PathPortabilityPathSource
  symlink : Bool
  deriving DecidableEq, Repr

structure PathPortabilityIssue where
  code : PathPortabilityIssueCode
  path : String
  source : PathPortabilityPathSource
  conflictingPaths : List String
  deriving DecidableEq, Repr

/-- The Unicode tables: `str::to_lowercase` and normalization form C. -/
structure UnicodeText where
  toLowercase : String → String
  nfc : String → String

def windowsPathBudget : Nat := 240

def issue (code : PathPortabilityIssueCode) (entry : PathEntry)
    (conflictingPaths : List String) : PathPortabilityIssue where
  code := code
  path := entry.path
  source := entry.source
  conflictingPaths := conflictingPaths

/-! ## Collisions -/

/-- The entries under each key, in the order of the keys. -/
def groupEntries (keyFor : String → String) (entries : List PathEntry) :
    SortedMap String (List PathEntry) :=
  SortedMap.groupBy (fun entry => keyFor entry.path) (fun entry => entry) entries

/-- A `BTreeSet` of the paths, as a list. -/
def uniquePaths (group : List PathEntry) : List String :=
  (group.map PathEntry.path).dedup.insertionSort (· ≤ ·)

def groupIssue? (code : PathPortabilityIssueCode) (group : List PathEntry) :
    Option PathPortabilityIssue :=
  match group with
  | [] => none
  | first :: _ =>
    if (uniquePaths group).length < 2 then none
    else some (issue code first (uniquePaths group))

def collisionIssues (entries : List PathEntry) (code : PathPortabilityIssueCode)
    (keyFor : String → String) : List PathPortabilityIssue :=
  (groupEntries keyFor entries).values.filterMap (groupIssue? code)

/-! ## Components -/

def trimEndDotsAndSpaces (component : List Char) : List Char :=
  (component.reverse.dropWhile fun c => c = '.' || c = ' ').reverse

def reservedNames : List String :=
  ["CON", "PRN", "AUX", "NUL", "CONIN$", "CONOUT$",
    "COM1", "COM2", "COM3", "COM4", "COM5", "COM6", "COM7", "COM8", "COM9",
    "LPT1", "LPT2", "LPT3", "LPT4", "LPT5", "LPT6", "LPT7", "LPT8", "LPT9"]

def isWindowsReservedName (component : List Char) : Bool :=
  let trimmed := trimEndDotsAndSpaces component
  let stem := (trimmed.splitOn '.').headD trimmed
  reservedNames.any fun name => name.toList = stem.map Char.toUpper

/-- `char::is_control` -/
def isControl (c : Char) : Bool := c.toNat < 0x20 || (0x7f ≤ c.toNat && c.toNat ≤ 0x9f)

def isInvalidWindowsPathChar (c : Char) : Bool :=
  ['<', '>', ':', '\x22', '\\', '|', '?', '*'].contains c || isControl c

def endsWithDotOrSpace (component : List Char) : Bool :=
  component.getLast? = some '.' || component.getLast? = some ' '

def componentIssues (entry : PathEntry) (component : List Char) : List PathPortabilityIssue :=
  if component = [] then []
  else
    (if isWindowsReservedName component then
      [issue .windowsReservedName entry [String.ofList component]] else []) ++
    (if endsWithDotOrSpace component then
      [issue .windowsTrailingDotOrSpace entry [String.ofList component]] else []) ++
    (if component.any isInvalidWindowsPathChar then
      [issue .windowsInvalidCharacter entry [String.ofList component]] else [])

def detectComponentIssues (entry : PathEntry) : List PathPortabilityIssue :=
  (entry.path.toList.splitOn '/').flatMap (componentIssues entry)

/-! ## The analysis -/

def entryIssues (targetCapabilities : PlatformCapabilities) (entry : PathEntry) :
    List PathPortabilityIssue :=
  detectComponentIssues entry ++
    (if windowsPathBudget < entry.path.toList.length then
      [issue .pathLengthBudget entry []] else []) ++
    (if entry.symlink && !targetCapabilities.symlinks then
      [issue .symlinkUnsupportedOnTarget entry []] else [])

/-- What `dedupe_issues` compares. -/
def PathPortabilityIssue.key (i : PathPortabilityIssue) :
    PathPortabilityIssueCode × String × List String := (i.code, i.path, i.conflictingPaths)

def dedupeIssuesFrom (seen : List (PathPortabilityIssueCode × String × List String)) :
    List PathPortabilityIssue → List PathPortabilityIssue
  | [] => []
  | i :: rest =>
    if i.key ∈ seen then dedupeIssuesFrom seen rest
    else i :: dedupeIssuesFrom (i.key :: seen) rest

def dedupeIssues (issues : List PathPortabilityIssue) : List PathPortabilityIssue :=
  dedupeIssuesFrom [] issues

def analyzePathEntries (text : UnicodeText) (entries : List PathEntry)
    (targetCapabilities : PlatformCapabilities) : List PathPortabilityIssue :=
  dedupeIssues (collisionIssues entries .caseFoldCollision text.toLowercase ++
    collisionIssues entries .unicodeNormalizationCollision text.nfc ++
    entries.flatMap (entryIssues targetCapabilities))

/-! ## What the analysis reports -/

/-- Removing doubles keeps a representative of every code. -/
theorem exists_code_dedupeIssues (P : PathPortabilityIssueCode → Prop)
    (issues : List PathPortabilityIssue) :
    (∃ i ∈ dedupeIssues issues, P i.code) ↔ ∃ i ∈ issues, P i.code := by
  suffices h : ∀ seen, (∃ i ∈ dedupeIssuesFrom seen issues, P i.code) ∨
      (∃ k ∈ seen, P k.1) ↔ (∃ i ∈ issues, P i.code) ∨ ∃ k ∈ seen, P k.1 by
    simpa [dedupeIssues] using h []
  induction issues with
  | nil => simp [dedupeIssuesFrom]
  | cons i rest ih =>
    intro seen
    rw [dedupeIssuesFrom]
    by_cases hseen : i.key ∈ seen
    · rw [if_pos hseen, ih seen]
      constructor
      · rintro (⟨j, hj, hP⟩ | hold)
        · exact Or.inl ⟨j, List.mem_cons_of_mem i hj, hP⟩
        · exact Or.inr hold
      · rintro (⟨j, hj, hP⟩ | hold)
        · rcases List.mem_cons.mp hj with rfl | hrest
          · exact Or.inr ⟨j.key, hseen, hP⟩
          · exact Or.inl ⟨j, hrest, hP⟩
        · exact Or.inr hold
    · rw [if_neg hseen]
      have hrest := ih (i.key :: seen)
      simp only [List.exists_mem_cons_iff] at hrest ⊢
      rw [or_assoc, or_left_comm, or_assoc, or_left_comm (a := P i.code)]
      exact hrest

theorem find?_groupEntries (keyFor : String → String) (entries : List PathEntry) (k : String) :
    (groupEntries keyFor entries).find? k =
      if entries.filter (fun e => keyFor e.path = k) = [] then none
      else some (entries.filter fun e => keyFor e.path = k) := by
  rw [groupEntries, SortedMap.find?_groupBy, List.map_id']

theorem length_uniquePaths (group : List PathEntry) :
    ¬(uniquePaths group).length < 2 ↔ ∃ a ∈ group, ∃ b ∈ group, a.path ≠ b.path := by
  rw [uniquePaths, List.length_insertionSort, ← List.card_toFinset, Nat.not_lt,
    show 2 ≤ (group.map PathEntry.path).toFinset.card ↔
      1 < (group.map PathEntry.path).toFinset.card from Iff.rfl, Finset.one_lt_card]
  simp only [List.mem_toFinset, List.mem_map]
  constructor
  · rintro ⟨_, ⟨a, ha, rfl⟩, _, ⟨b, hb, rfl⟩, hne⟩
    exact ⟨a, ha, b, hb, hne⟩
  · rintro ⟨a, ha, b, hb, hne⟩
    exact ⟨_, ⟨a, ha, rfl⟩, _, ⟨b, hb, rfl⟩, hne⟩

theorem groupIssue?_eq_some {code : PathPortabilityIssueCode} {group : List PathEntry}
    {i : PathPortabilityIssue} (h : groupIssue? code group = some i) : i.code = code := by
  unfold groupIssue? at h
  split at h
  · cases h
  · split at h
    · cases h
    · rw [← Option.some.inj h]
      rfl

/-- A collision is reported exactly when two different paths have one key. -/
theorem collisionIssues_ne_nil (entries : List PathEntry) (code : PathPortabilityIssueCode)
    (keyFor : String → String) :
    collisionIssues entries code keyFor ≠ [] ↔
      ∃ a ∈ entries, ∃ b ∈ entries, a.path ≠ b.path ∧ keyFor a.path = keyFor b.path := by
  have hgroup : ∀ group : List PathEntry, groupIssue? code group ≠ none ↔
      ∃ a ∈ group, ∃ b ∈ group, a.path ≠ b.path := by
    intro group
    rw [← length_uniquePaths]
    cases group with
    | nil => simp [groupIssue?, uniquePaths]
    | cons first rest =>
      unfold groupIssue?
      by_cases hlength : (uniquePaths (first :: rest)).length < 2
      · simp [hlength]
      · simp [hlength]
  constructor
  · intro h
    obtain ⟨i, hi⟩ := List.exists_mem_of_ne_nil _ h
    obtain ⟨group, hmem, hi⟩ := List.mem_filterMap.mp hi
    obtain ⟨⟨k, group'⟩, hentry, rfl⟩ := List.mem_map.mp hmem
    have hfind := SortedMap.mem_entries.mp hentry
    obtain ⟨a, ha, b, hb, hne⟩ := (hgroup group').mp (by rw [hi]; exact Option.some_ne_none i)
    rw [find?_groupEntries] at hfind
    split at hfind
    · cases hfind
    · have hmembers := Option.some.inj hfind
      rw [← hmembers] at ha hb
      obtain ⟨hain, hak⟩ := List.mem_filter.mp ha
      obtain ⟨hbin, hbk⟩ := List.mem_filter.mp hb
      refine ⟨a, hain, b, hbin, hne, ?_⟩
      rw [of_decide_eq_true hak, of_decide_eq_true hbk]
  · rintro ⟨a, ha, b, hb, hne, hkey⟩
    have hamem : a ∈ entries.filter fun e => keyFor e.path = keyFor b.path :=
      List.mem_filter.mpr ⟨ha, decide_eq_true hkey⟩
    have hbmem : b ∈ entries.filter fun e => keyFor e.path = keyFor b.path :=
      List.mem_filter.mpr ⟨hb, decide_eq_true rfl⟩
    have hfind : (groupEntries keyFor entries).find? (keyFor b.path) =
        some (entries.filter fun e => keyFor e.path = keyFor b.path) := by
      rw [find?_groupEntries, if_neg (List.ne_nil_of_mem hamem)]
    obtain ⟨i, hi⟩ := Option.ne_none_iff_exists'.mp
      ((hgroup _).mpr ⟨a, hamem, b, hbmem, hne⟩)
    apply List.ne_nil_of_mem (a := i)
    exact List.mem_filterMap.mpr ⟨_, List.mem_map_of_mem (SortedMap.mem_entries.mpr hfind), hi⟩

theorem code_of_mem_collisionIssues {entries : List PathEntry} {code : PathPortabilityIssueCode}
    {keyFor : String → String} {i : PathPortabilityIssue}
    (h : i ∈ collisionIssues entries code keyFor) : i.code = code := by
  obtain ⟨group, -, hi⟩ := List.mem_filterMap.mp h
  exact groupIssue?_eq_some hi

end DevRelay.Snapshot.PathDoctor
