import DevRelay.Lib.Checks
import DevRelay.Snapshot.PathDoctor

/-!
# The gate for portable paths

Before a snapshot is materialised, the paths of its two trees are analysed and
every issue that matters on the target refuses the snapshot.  On a
case-insensitive target this finds the paths that agree in lower case and those
that agree after normalization.  It does not find a path with the name of
another path's parent directory, nor two paths that agree only when both keys
are taken together.
-/

namespace DevRelay.Snapshot

open DevRelay.Lib DevRelay.Core PathDoctor

/-- `git ls-tree -r -z`, and Rust's `{:?}` of a text. -/
structure TreeReader where
  lsTree : String → Except DevRelayError String
  debug : String → String

/-- One record of the listing: the mode comes first, the path behind a tab. -/
def treeEntry (git : TreeReader) (record : List Char) : Except DevRelayError PathEntry :=
  match splitn '\t' 2 record with
  | [metadata, path] =>
    .ok {
      path := String.ofList (path.map fun c => if c = '\\' then '/' else c)
      source := .tracked
      symlink := (splitWhitespace metadata).headD [] = "120000".toList }
  | _ => .error (.config ("unexpected git ls-tree record: " ++ git.debug (String.ofList record)))

def pathEntriesInTree (git : TreeReader) (treeish : String) :
    Except DevRelayError (List PathEntry) := do
  let raw ← git.lsTree treeish
  ((raw.toList.splitOn '\x00').filter fun record => !record.isEmpty).mapM (treeEntry git)

/-! ## Blocking issues -/

def codeBlocksTarget (code : PathPortabilityIssueCode) (targetPlatformKey : String) : Bool :=
  match code with
  | .caseFoldCollision | .unicodeNormalizationCollision =>
    !(platformCapabilitiesForKey targetPlatformKey).caseSensitivePaths
  | .windowsReservedName | .windowsTrailingDotOrSpace | .windowsInvalidCharacter
  | .pathLengthBudget => startsWith targetPlatformKey "windows-native-"
  | .symlinkUnsupportedOnTarget => false

def snapshotPathIssueBlocksTarget (i : PathPortabilityIssue) (targetPlatformKey : String) :
    Bool := codeBlocksTarget i.code targetPlatformKey

def issueCodeLabel : PathPortabilityIssueCode → String
  | .caseFoldCollision => "case-fold-collision"
  | .unicodeNormalizationCollision => "unicode-normalization-collision"
  | .windowsReservedName => "windows-reserved-name"
  | .windowsTrailingDotOrSpace => "windows-trailing-dot-or-space"
  | .windowsInvalidCharacter => "windows-invalid-character"
  | .pathLengthBudget => "path-length-budget"
  | .symlinkUnsupportedOnTarget => "symlink-unsupported-on-target"

def blockingIssues (text : UnicodeText) (entries : List PathEntry)
    (targetPlatformKey : String) : List PathPortabilityIssue :=
  (analyzePathEntries text entries (platformCapabilitiesForKey targetPlatformKey)).filter
    fun i => snapshotPathIssueBlocksTarget i targetPlatformKey

/-- The order of the issues in the message: by path, then by label. -/
def issueBefore (left right : PathPortabilityIssue) : Bool :=
  left.path < right.path ||
    (left.path = right.path && issueCodeLabel left.code ≤ issueCodeLabel right.code)

def issueSummary (issues : List PathPortabilityIssue) : String :=
  let sorted := issues.insertionSort fun left right => issueBefore left right = true
  let distinct := sorted.destutter fun left right =>
    ¬(left.code = right.code ∧ left.path = right.path)
  String.intercalate ", " (distinct.map fun i => i.path ++ " (" ++ issueCodeLabel i.code ++ ")")

def ensurePathEntriesSupported (text : UnicodeText) (entries : List PathEntry)
    (targetPlatformKey : String) : Except DevRelayError Unit :=
  let issues := blockingIssues text entries targetPlatformKey
  if issues = [] then .ok ()
  else .error (.unsupportedRepositoryState ("target platform " ++ targetPlatformKey ++
    " cannot materialize unsafe snapshot paths: " ++ issueSummary issues))

def ensureSnapshotPathsSupported (git : TreeReader) (text : UnicodeText)
    (indexTreeOid workTreeOid targetPlatformKey : String) : Except DevRelayError Unit := do
  let index ← pathEntriesInTree git indexTreeOid
  let work ← pathEntriesInTree git workTreeOid
  ensurePathEntriesSupported text (index ++ work) targetPlatformKey

theorem ensurePathEntriesSupported_ok {text : UnicodeText} {entries : List PathEntry}
    {targetPlatformKey : String} :
    ensurePathEntriesSupported text entries targetPlatformKey = .ok () ↔
      blockingIssues text entries targetPlatformKey = [] := by
  unfold ensurePathEntriesSupported
  dsimp only
  split_ifs with hissues
  · exact ⟨fun _ => hissues, fun _ => rfl⟩
  · constructor
    · intro h
      cases h
    · intro h
      exact absurd h hissues

/-- The gate lets a snapshot through when both trees are read and their paths have no issue. -/
theorem ensureSnapshotPathsSupported_ok {git : TreeReader} {text : UnicodeText}
    {indexTreeOid workTreeOid targetPlatformKey : String} :
    ensureSnapshotPathsSupported git text indexTreeOid workTreeOid targetPlatformKey = .ok () ↔
      ∃ index work, pathEntriesInTree git indexTreeOid = .ok index ∧
        pathEntriesInTree git workTreeOid = .ok work ∧
        ensurePathEntriesSupported text (index ++ work) targetPlatformKey = .ok () := by
  rw [ensureSnapshotPathsSupported, bind_eq_ok_iff]
  simp only [bind_eq_ok_iff]
  constructor
  · rintro ⟨index, hindex, work, hwork, hok⟩
    exact ⟨index, work, hindex, hwork, hok⟩
  · rintro ⟨index, work, hindex, hwork, hok⟩
    exact ⟨index, hindex, work, hwork, hok⟩

/-! ## What is blocked -/

/-- Components and lengths that Windows does not accept. -/
def WindowsUnsafe (path : String) : Prop :=
  windowsPathBudget < path.toList.length ∨
    ∃ component ∈ path.toList.splitOn '/', component ≠ [] ∧
      (isWindowsReservedName component = true ∨ endsWithDotOrSpace component = true ∨
        component.any isInvalidWindowsPathChar = true)

section

variable {text : UnicodeText} {targetPlatformKey : String}

theorem componentIssues_blocks (entry : PathEntry) (component : List Char) :
    (∃ i ∈ componentIssues entry component, codeBlocksTarget i.code targetPlatformKey = true) ↔
      startsWith targetPlatformKey "windows-native-" = true ∧ component ≠ [] ∧
        (isWindowsReservedName component = true ∨ endsWithDotOrSpace component = true ∨
          component.any isInvalidWindowsPathChar = true) := by
  unfold componentIssues
  by_cases hempty : component = []
  · simp [hempty]
  · rw [if_neg hempty]
    by_cases hreserved : isWindowsReservedName component = true
    all_goals by_cases htrailing : endsWithDotOrSpace component = true
    all_goals by_cases hinvalid : component.any isInvalidWindowsPathChar = true
    all_goals simp [hempty, hreserved, htrailing, hinvalid, issue, codeBlocksTarget]

theorem entryIssues_blocks (entry : PathEntry) (caps : PlatformCapabilities) :
    (∃ i ∈ entryIssues caps entry, codeBlocksTarget i.code targetPlatformKey = true) ↔
      startsWith targetPlatformKey "windows-native-" = true ∧ WindowsUnsafe entry.path := by
  have hlength : (∃ i ∈ (if windowsPathBudget < entry.path.toList.length then
      [issue .pathLengthBudget entry []] else []),
        codeBlocksTarget i.code targetPlatformKey = true) ↔
      startsWith targetPlatformKey "windows-native-" = true ∧
        windowsPathBudget < entry.path.toList.length := by
    split_ifs with h
    · simp [h, issue, codeBlocksTarget]
    · simp [h]
  have hsymlink : ¬∃ i ∈ (if (entry.symlink && !caps.symlinks) = true then
      [issue .symlinkUnsupportedOnTarget entry []] else []),
        codeBlocksTarget i.code targetPlatformKey = true := by
    split_ifs with h
    · simp [issue, codeBlocksTarget]
    · simp
  have hcomponents : (∃ i ∈ detectComponentIssues entry,
      codeBlocksTarget i.code targetPlatformKey = true) ↔
      ∃ component ∈ entry.path.toList.splitOn '/',
        ∃ i ∈ componentIssues entry component,
          codeBlocksTarget i.code targetPlatformKey = true := by
    simp only [detectComponentIssues, List.mem_flatMap]
    constructor
    · rintro ⟨i, ⟨component, hmem, hi⟩, hblocks⟩
      exact ⟨component, hmem, i, hi, hblocks⟩
    · rintro ⟨component, hmem, i, hi, hblocks⟩
      exact ⟨i, ⟨component, hmem, hi⟩, hblocks⟩
  simp only [entryIssues, List.mem_append, or_and_right, exists_or]
  rw [hcomponents, hlength]
  simp only [componentIssues_blocks, WindowsUnsafe]
  constructor
  · rintro ((⟨component, hmem, hnative, hrest⟩ | ⟨hnative, hlong⟩) | hnever)
    · exact ⟨hnative, Or.inr ⟨component, hmem, hrest⟩⟩
    · exact ⟨hnative, Or.inl hlong⟩
    · exact absurd hnever hsymlink
  · rintro ⟨hnative, hlong | ⟨component, hmem, hrest⟩⟩
    · exact Or.inl (Or.inr ⟨hnative, hlong⟩)
    · exact Or.inl (Or.inl ⟨component, hmem, hnative, hrest⟩)

/-- Two paths of the snapshot that have one of the two keys in common. -/
def AgreeAlone (text : UnicodeText) (p q : String) : Prop :=
  text.toLowercase p = text.toLowercase q ∨ text.nfc p = text.nfc q

theorem collisionIssues_blocks {entries : List PathEntry} {code : PathPortabilityIssueCode}
    {keyFor : String → String} (hcode : codeBlocksTarget code targetPlatformKey = true) :
    (∃ i ∈ collisionIssues entries code keyFor, codeBlocksTarget i.code targetPlatformKey = true) ↔
      ∃ p ∈ entries.map PathEntry.path, ∃ q ∈ entries.map PathEntry.path,
        p ≠ q ∧ keyFor p = keyFor q := by
  have hany : (∃ i ∈ collisionIssues entries code keyFor,
      codeBlocksTarget i.code targetPlatformKey = true) ↔
      collisionIssues entries code keyFor ≠ [] := by
    constructor
    · rintro ⟨i, hi, -⟩
      exact List.ne_nil_of_mem hi
    · intro hne
      obtain ⟨i, hi⟩ := List.exists_mem_of_ne_nil _ hne
      exact ⟨i, hi, by rw [code_of_mem_collisionIssues hi]; exact hcode⟩
  rw [hany, collisionIssues_ne_nil]
  simp only [List.mem_map, exists_exists_and_eq_and]

/-- On a case-insensitive target the gate refuses the snapshots with two paths that
agree in one key alone, and on Windows also those with unsafe components. -/
theorem blockingIssues_eq_nil (entries : List PathEntry)
    (htarget : (platformCapabilitiesForKey targetPlatformKey).caseSensitivePaths = false) :
    blockingIssues text entries targetPlatformKey = [] ↔
      (∀ p ∈ entries.map PathEntry.path, ∀ q ∈ entries.map PathEntry.path,
        p ≠ q → ¬AgreeAlone text p q) ∧
      (startsWith targetPlatformKey "windows-native-" = true →
        ∀ p ∈ entries.map PathEntry.path, ¬WindowsUnsafe p) := by
  have hcase : codeBlocksTarget .caseFoldCollision targetPlatformKey = true := by
    simp [codeBlocksTarget, htarget]
  have hunicode : codeBlocksTarget .unicodeNormalizationCollision targetPlatformKey = true := by
    simp [codeBlocksTarget, htarget]
  have hblocks : (∃ i ∈ analyzePathEntries text entries
      (platformCapabilitiesForKey targetPlatformKey),
        codeBlocksTarget i.code targetPlatformKey = true) ↔
      ((∃ p ∈ entries.map PathEntry.path, ∃ q ∈ entries.map PathEntry.path,
          p ≠ q ∧ text.toLowercase p = text.toLowercase q) ∨
        ∃ p ∈ entries.map PathEntry.path, ∃ q ∈ entries.map PathEntry.path,
          p ≠ q ∧ text.nfc p = text.nfc q) ∨
      ∃ p ∈ entries.map PathEntry.path,
        startsWith targetPlatformKey "windows-native-" = true ∧ WindowsUnsafe p := by
    rw [analyzePathEntries,
      exists_code_dedupeIssues (fun code => codeBlocksTarget code targetPlatformKey = true)]
    simp only [List.mem_append, or_and_right, exists_or]
    rw [collisionIssues_blocks hcase, collisionIssues_blocks hunicode]
    refine or_congr Iff.rfl ?_
    simp only [List.mem_flatMap, List.mem_map, exists_exists_and_eq_and]
    constructor
    · rintro ⟨i, ⟨entry, hentry, hi⟩, hblock⟩
      exact ⟨entry, hentry, (entryIssues_blocks entry _).mp ⟨i, hi, hblock⟩⟩
    · rintro ⟨entry, hentry, hunsafe⟩
      obtain ⟨i, hi, hblock⟩ := (entryIssues_blocks entry
        (platformCapabilitiesForKey targetPlatformKey)).mpr hunsafe
      exact ⟨i, ⟨entry, hentry, hi⟩, hblock⟩
  have hnil : blockingIssues text entries targetPlatformKey = [] ↔
      ¬∃ i ∈ analyzePathEntries text entries (platformCapabilitiesForKey targetPlatformKey),
        codeBlocksTarget i.code targetPlatformKey = true := by
    rw [blockingIssues, List.filter_eq_nil_iff]
    simp only [snapshotPathIssueBlocksTarget, not_exists, not_and]
  rw [hnil, hblocks]
  constructor
  · intro h
    constructor
    · rintro p hp q hq hne (hlower | hnfc)
      · exact h (Or.inl (Or.inl ⟨p, hp, q, hq, hne, hlower⟩))
      · exact h (Or.inl (Or.inr ⟨p, hp, q, hq, hne, hnfc⟩))
    · intro hnative p hp hunsafe
      exact h (Or.inr ⟨p, hp, hnative, hunsafe⟩)
  · rintro ⟨halone, hsafe⟩ ((⟨p, hp, q, hq, hne, hkey⟩ | ⟨p, hp, q, hq, hne, hkey⟩) |
      ⟨p, hp, hnative, hunsafe⟩)
    · exact halone p hp q hq hne (Or.inl hkey)
    · exact halone p hp q hq hne (Or.inr hkey)
    · exact hsafe hnative p hp hunsafe

end

/-! ## Collisions on the target -/

/-- The directory lies above the path. -/
def ParentOf (directory path : String) : Prop :=
  ∃ rest, path.toList = directory.toList ++ '/' :: rest

/-- No path has the target name of another path's parent directory. -/
def ParentsApart (name : String → String) (paths : List String) : Prop :=
  ∀ p ∈ paths, ∀ q ∈ paths, p ≠ q → ∀ directory, ParentOf directory q →
    name p ≠ name directory

/-- The paths and their parent directories fit on a target that stores each of them
under its name. -/
def CollisionFree (name : String → String) (paths : List String) : Prop :=
  (∀ p ∈ paths, ∀ q ∈ paths, p ≠ q → name p ≠ name q) ∧ ParentsApart name paths

/-- Paths with one target name agree in lower case alone or after normalization alone. -/
def NamesSeen (text : UnicodeText) (name : String → String) (paths : List String) : Prop :=
  ∀ p ∈ paths, ∀ q ∈ paths, p ≠ q → name p = name q → AgreeAlone text p q

/-- On a case-insensitive target, whatever names it gives to paths: what the gate
lets through is free of collisions exactly when the gate refuses the snapshot,
or no path takes the name of a directory that another one needs and every two
paths with one name agree in one of the two keys alone. -/
theorem portablePaths_iff (text : UnicodeText) (name : String → String)
    (entries : List PathEntry) (targetPlatformKey : String)
    (htarget : (platformCapabilitiesForKey targetPlatformKey).caseSensitivePaths = false) :
    (ensurePathEntriesSupported text entries targetPlatformKey = .ok () →
      CollisionFree name (entries.map PathEntry.path)) ↔
    (∃ p ∈ entries.map PathEntry.path, ∃ q ∈ entries.map PathEntry.path,
      p ≠ q ∧ AgreeAlone text p q) ∨
    (startsWith targetPlatformKey "windows-native-" = true ∧
      ∃ p ∈ entries.map PathEntry.path, WindowsUnsafe p) ∨
    (ParentsApart name (entries.map PathEntry.path) ∧
      NamesSeen text name (entries.map PathEntry.path)) := by
  rw [ensurePathEntriesSupported_ok, blockingIssues_eq_nil entries htarget]
  generalize entries.map PathEntry.path = paths
  constructor
  · intro h
    by_cases hagree : ∃ p ∈ paths, ∃ q ∈ paths, p ≠ q ∧ AgreeAlone text p q
    · exact Or.inl hagree
    · by_cases hunsafe : startsWith targetPlatformKey "windows-native-" = true ∧
          ∃ p ∈ paths, WindowsUnsafe p
      · exact Or.inr (Or.inl hunsafe)
      · right
        right
        obtain ⟨hnames, hparents⟩ := h ⟨fun p hp q hq hne halone =>
          hagree ⟨p, hp, q, hq, hne, halone⟩, fun hnative p hp hbad =>
            hunsafe ⟨hnative, p, hp, hbad⟩⟩
        refine ⟨hparents, ?_⟩
        intro p hp q hq hne hname
        exact absurd hname (hnames p hp q hq hne)
  · rintro (⟨p, hp, q, hq, hne, halone⟩ | ⟨hnative, p, hp, hunsafe⟩ | ⟨hparents, hseen⟩)
      ⟨happart, hsafe⟩
    · exact absurd halone (happart p hp q hq hne)
    · exact absurd hunsafe (hsafe hnative p hp)
    · refine ⟨?_, hparents⟩
      intro p hp q hq hne hname
      exact happart p hp q hq hne (hseen p hp q hq hne hname)

/-- The tables on the letters of ASCII. -/
def asciiText : UnicodeText where
  toLowercase := fun text => String.ofList (text.toList.map Char.toLower)
  nfc := id

/-- Two trees; the work tree has one file more. -/
def demoTrees : TreeReader where
  lsTree treeish := .ok (
    (if treeish = "work" then "100644 blob 8baef1b4\tsrc/lib.rs\x00" else "") ++
      "100644 blob d00491fd\tMakefile\x00100755 blob 0cfbf088\tsrc/main.rs\x00")
  debug := id

def demoPaths : List String := ["Makefile", "src/main.rs", "src/lib.rs", "Makefile", "src/main.rs"]

theorem demoPaths_parentsApart : ParentsApart asciiText.toLowercase demoPaths := by
  have hapart : demoPaths.all (fun p => demoPaths.all fun q => q.toList.inits.all fun front =>
      !(front ++ ['/']).isPrefixOf q.toList ||
        asciiText.toLowercase p != asciiText.toLowercase (String.ofList front)) = true := by
    decide
  rintro p hp q hq - directory ⟨rest, hparent⟩ hname
  have hfront : directory.toList ∈ q.toList.inits :=
    (List.mem_inits _ _).mpr ⟨'/' :: rest, hparent.symm⟩
  have hbelow : directory.toList ++ ['/'] <+: q.toList := ⟨rest, by rw [hparent]; simp⟩
  have hchecked := List.all_eq_true.mp (List.all_eq_true.mp (List.all_eq_true.mp hapart p hp) q hq)
    _ hfront
  rw [List.isPrefixOf_iff_prefix.mpr hbelow, String.ofList_toList, hname] at hchecked
  simp at hchecked

/-- The gate lets the two trees through, and their files and directories fit. -/
theorem portablePaths_iff_twoTrees :
    ensureSnapshotPathsSupported demoTrees asciiText "index" "work" "darwin-arm64" = .ok () ∧
      CollisionFree asciiText.toLowercase demoPaths := by
  let entries := demoPaths.map fun path => (⟨path, .tracked, false⟩ : PathEntry)
  have hsupported : ensurePathEntriesSupported asciiText entries "darwin-arm64" = .ok () := by
    decide
  refine ⟨ensureSnapshotPathsSupported_ok.mpr
    ⟨entries.take 2, entries.drop 2, by decide, by decide, hsupported⟩, ?_⟩
  exact (portablePaths_iff asciiText asciiText.toLowercase entries "darwin-arm64"
    (by decide)).mpr (Or.inr (Or.inr ⟨demoPaths_parentsApart,
      fun p _ q _ _ hname => Or.inl hname⟩)) hsupported

/-- A file and a directory whose names differ in case: the gate lets them through. -/
theorem file_takes_directory_name :
    (platformCapabilitiesForKey "darwin-arm64").caseSensitivePaths = false ∧
    ensurePathEntriesSupported asciiText
      [⟨"A", .tracked, false⟩, ⟨"a/b", .tracked, false⟩] "darwin-arm64" = .ok () ∧
    ¬CollisionFree asciiText.toLowercase ["A", "a/b"] := by
  refine ⟨by decide, by decide, ?_⟩
  intro hfree
  refine hfree.2 "A" (by decide) "a/b" (by decide) (by decide) "a" ⟨['b'], ?_⟩ ?_
  · decide
  · decide

end DevRelay.Snapshot
