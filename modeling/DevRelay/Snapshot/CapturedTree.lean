import DevRelay.Snapshot.Capture

/-!
# The captured tree and the classification

A snapshot should carry the tracked files and the untracked paths that are
classified as included, and no others.  The included names go to `git add` as
pathspecs, so that a name with a bracket can select the secret next to it, and a
name with a backslash is recorded, and added, under another one.
-/

namespace DevRelay.Snapshot

open DevRelay.Core DevRelay.Git DevRelay.Lib

section

variable (env : CaptureEnv) (manifest : Manifest) (repo : Repository)

/-- How an untracked path is classified. -/
def isIncluded (env : ClassificationEnv) (manifest : Manifest) (path : String) : Bool :=
  match classificationContext env manifest with
  | .ok context => (classifyOne context (normalizeRepoPath path)).decision = .include
  | .error _ => false

/-- The file under a path that is tracked, or untracked and included. -/
def classifiedFile (path : String) : Option TreeEntry :=
  if tracked repo.index path || ((untrackedPaths repo).contains path &&
      isIncluded env.classification manifest path) then
    repo.files.find? path
  else
    none

/-- The tree of the work commit is what was classified, and every untracked path is in one of
the two lists under its own name. -/
structure CapturedAsClassified (m : SnapshotMetadata) : Prop where
  tree : ∃ commit, env.objects.commitOf m.workCommitOid = some commit ∧
    m.workTreeOid = env.objects.treeOid commit.tree ∧
    ∀ path, commit.tree.find? path = classifiedFile env manifest repo path
  lists : ∀ path ∈ untrackedPaths repo,
    Xor (path ∈ m.includedUntracked) (path ∈ m.excluded.map ClassifiedPath.path)

/-- Every snapshot of the repository is of this kind, whichever commands fail. -/
def CapturesExactly : Prop :=
  ∀ fault m repo', (createSnapshot env manifest).exec fault 0 repo = (.ok m, repo') →
    CapturedAsClassified env manifest repo m

/-- No path has a backslash.  No included name is a pattern for an excluded path, unless
the path of that name comes first; and where a name starts with a colon, the names select
just the included paths. -/
structure NamesReadLiterally (names : List String) : Prop where
  noBackslash : ∀ path ∈ untrackedPaths repo, '\\' ∉ path.toList
  othersLeft : (∀ name ∈ names, name.toList.head? ≠ some ':') →
    ∀ name ∈ names, ∀ path ∈ untrackedPaths repo,
      isIncluded env.classification manifest path = false →
      env.add.matchesPath name path = true → name < path
  magicSelects : (∃ name ∈ names, name.toList.head? = some ':') →
    ∀ path ∈ untrackedPaths repo, env.add.selects names (untrackedPaths repo) path =
      isIncluded env.classification manifest path

end

variable {env : CaptureEnv} {manifest : Manifest} {repo : Repository}
  {classified : List ClassifiedPath}

/-! ## The lists -/

theorem backslash_not_mem_normalizeRepoPath (path : String) :
    '\\' ∉ (normalizeRepoPath path).toList := by
  unfold normalizeRepoPath
  rw [String.toList_ofList, List.mem_map]
  rintro ⟨c, -, hc⟩
  split_ifs at hc with hback
  · cases hc
  · exact hback hc

theorem mem_untrackedPaths {path : String} :
    path ∈ untrackedPaths repo ↔ (repo.files.find? path).isSome ∧
      tracked repo.index path = false ∧ repo.ignored repo.files path = false := by
  unfold untrackedPaths untrackedIn
  rw [List.mem_filter, SortedMap.mem_keys, Bool.and_eq_true, Bool.not_eq_true', Bool.not_eq_true']

/-- A decision is made on an untracked path, and recorded under its normalized name. -/
theorem mem_pathsDecided {decision : PathDecision} {name : String}
    (h : classifyUntrackedPaths env.classification manifest (untrackedPaths repo) =
      .ok classified) :
    name ∈ (pathsDecided decision classified).map ClassifiedPath.path ↔
      ∃ path ∈ untrackedPaths repo, normalizeRepoPath path = name ∧
        isIncluded env.classification manifest path = decide (decision = .include) := by
  unfold classifyUntrackedPaths at h
  obtain ⟨context, hcontext, hclassified⟩ := bind_eq_ok_iff.mp h
  have hlist := Except.ok.inj hclassified
  subst hlist
  have hincluded : ∀ path, isIncluded env.classification manifest path =
      decide ((classifyOne context (normalizeRepoPath path)).decision = .include) := by
    intro path
    unfold isIncluded
    rw [hcontext]
  have hdecision : ∀ path, decide ((classifyOne context (normalizeRepoPath path)).decision =
      decision) = true ↔ isIncluded env.classification manifest path =
        decide (decision = .include) := by
    intro path
    rw [hincluded]
    cases (classifyOne context (normalizeRepoPath path)).decision <;> cases decision <;> decide
  unfold pathsDecided
  rw [List.mem_map]
  constructor
  · rintro ⟨item, hitem, rfl⟩
    obtain ⟨hmem, hdecided⟩ := List.mem_filter.mp hitem
    obtain ⟨path, hpath, rfl⟩ := List.mem_map.mp hmem
    exact ⟨path, hpath, (classifyOne_path ..).symm, (hdecision path).mp hdecided⟩
  · rintro ⟨path, hpath, rfl, hdecided⟩
    refine ⟨classifyOne context (normalizeRepoPath path), ?_, classifyOne_path ..⟩
    exact List.mem_filter.mpr ⟨List.mem_map_of_mem hpath, (hdecision path).mpr hdecided⟩

theorem mem_includedPaths {name : String} (h : Accepts env manifest repo classified) :
    name ∈ includedPaths classified ↔ ∃ path ∈ untrackedPaths repo,
      normalizeRepoPath path = name ∧ isIncluded env.classification manifest path = true := by
  unfold includedPaths
  rw [List.mem_insertionSort]
  exact mem_pathsDecided h.classifies

theorem mem_excludedPaths {name : String} (h : Accepts env manifest repo classified) :
    name ∈ (excludedPaths classified).map ClassifiedPath.path ↔ ∃ path ∈ untrackedPaths repo,
      normalizeRepoPath path = name ∧ isIncluded env.classification manifest path = false := by
  have hperm := List.perm_insertionSort
    (fun left right : ClassifiedPath => lexLe [left.path, left.reason] [right.path, right.reason])
    (pathsDecided .exclude classified)
  unfold excludedPaths
  rw [(hperm.map ClassifiedPath.path).mem_iff]
  exact mem_pathsDecided h.classifies

/-- The untracked paths are in one of the lists under their names unless one has a backslash. -/
theorem lists_iff (h : Accepts env manifest repo classified) :
    (∀ path ∈ untrackedPaths repo, Xor (path ∈ includedPaths classified)
        (path ∈ (excludedPaths classified).map ClassifiedPath.path)) ↔
      ∀ path ∈ untrackedPaths repo, '\\' ∉ path.toList := by
  constructor
  · intro hlists path hpath hback
    have hnormal : ∀ other, normalizeRepoPath other ≠ path := by
      intro other heq
      rw [← heq] at hback
      exact backslash_not_mem_normalizeRepoPath other hback
    rcases hlists path hpath with ⟨hmem, -⟩ | ⟨hmem, -⟩
    · obtain ⟨other, -, heq, -⟩ := (mem_includedPaths h).mp hmem
      exact hnormal other heq
    · obtain ⟨other, -, heq, -⟩ := (mem_excludedPaths h).mp hmem
      exact hnormal other heq
  · intro hback path hpath
    have hself : ∀ other ∈ untrackedPaths repo, normalizeRepoPath other = path → other = path := by
      intro other hother heq
      rw [normalizeRepoPath_eq_self.mpr (hback other hother)] at heq
      exact heq
    have hname := normalizeRepoPath_eq_self.mpr (hback path hpath)
    cases hincluded : isIncluded env.classification manifest path with
    | true =>
      refine Or.inl ⟨(mem_includedPaths h).mpr ⟨path, hpath, hname, hincluded⟩, ?_⟩
      intro hmem
      obtain ⟨other, hother, heq, hexcluded⟩ := (mem_excludedPaths h).mp hmem
      rw [hself other hother heq, hincluded] at hexcluded
      cases hexcluded
    | false =>
      refine Or.inr ⟨(mem_excludedPaths h).mpr ⟨path, hpath, hname, hincluded⟩, ?_⟩
      intro hmem
      obtain ⟨other, hother, heq, hother'⟩ := (mem_includedPaths h).mp hmem
      rw [hself other hother heq, hincluded] at hother'
      cases hother'

/-! ## The tree -/

/-- The tree is what was classified when the names select just the included paths. -/
theorem tree_iff {names : List String} :
    (∀ path, (workTreeOf env.add repo names).find? path =
        classifiedFile env manifest repo path) ↔
      ∀ path ∈ untrackedPaths repo,
        (names ≠ [] && env.add.selects names (untrackedPaths repo) path) =
          isIncluded env.classification manifest path := by
  constructor
  · intro htree path hpath
    obtain ⟨hfile, htracked, hignored⟩ := mem_untrackedPaths.mp hpath
    obtain ⟨file, hfile⟩ := Option.isSome_iff_exists.mp hfile
    have hself := htree path
    rw [find?_workTreeOf, classifiedFile, htracked, hignored, hfile,
      List.contains_iff_mem.mpr hpath] at hself
    simp only [Bool.false_or, Bool.not_false, Bool.and_true, Bool.true_and] at hself
    have hboth : ∀ a b : Bool,
        (if a then some file else none) = (if b then some file else none) → a = b := by
      intro a b
      cases a <;> cases b <;> simp
    exact hboth _ _ hself
  · intro hselected path
    rw [find?_workTreeOf, classifiedFile]
    by_cases hpath : path ∈ untrackedPaths repo
    · obtain ⟨-, htracked, hignored⟩ := mem_untrackedPaths.mp hpath
      rw [htracked, hignored, List.contains_iff_mem.mpr hpath, ← hselected path hpath]
      simp only [Bool.false_or, Bool.not_false, Bool.and_true, Bool.true_and]
    · have hcontains : (untrackedPaths repo).contains path = false := by
        rw [Bool.eq_false_iff, ne_eq, List.contains_iff_mem]
        exact hpath
      rw [hcontains, Bool.false_and, Bool.or_false]
      cases htracked : tracked repo.index path with
      | true => rfl
      | false =>
        cases hignored : repo.ignored repo.files path with
        | true => simp
        | false =>
          have hnone : repo.files.find? path = none := by
            rw [← Option.not_isSome_iff_eq_none]
            intro hfile
            exact hpath (mem_untrackedPaths.mpr ⟨hfile, htracked, hignored⟩)
          rw [hnone, ite_self, ite_self]

/-- Without backslashes the names are the included paths.  A name without magic selects its
own path, and what it matches among the paths before it. -/
theorem namesReadLiterally_iff (h : Accepts env manifest repo classified) :
    NamesReadLiterally env manifest repo (includedPaths classified) ↔
      (∀ path ∈ untrackedPaths repo, '\\' ∉ path.toList) ∧
        ∀ path ∈ untrackedPaths repo, (includedPaths classified ≠ [] &&
          env.add.selects (includedPaths classified) (untrackedPaths repo) path) =
            isIncluded env.classification manifest path := by
  have hmem : (∀ path ∈ untrackedPaths repo, '\\' ∉ path.toList) → ∀ name,
      name ∈ includedPaths classified ↔ name ∈ untrackedPaths repo ∧
        isIncluded env.classification manifest name = true := by
    intro hback name
    rw [mem_includedPaths h]
    constructor
    · rintro ⟨path, hpath, hname, hincluded⟩
      rw [normalizeRepoPath_eq_self.mpr (hback path hpath)] at hname
      subst hname
      exact ⟨hpath, hincluded⟩
    · rintro ⟨hpath, hincluded⟩
      exact ⟨name, hpath, normalizeRepoPath_eq_self.mpr (hback name hpath), hincluded⟩
  by_cases hmagic : ∃ name ∈ includedPaths classified, name.toList.head? = some ':'
  · have hne : includedPaths classified ≠ [] := by
      obtain ⟨name, hname, -⟩ := hmagic
      exact List.ne_nil_of_mem hname
    simp only [hne, ne_eq, not_false_eq_true, decide_true, Bool.true_and]
    constructor
    · exact fun hnames => ⟨hnames.noBackslash, hnames.magicSelects hmagic⟩
    · rintro ⟨hback, hselected⟩
      refine ⟨hback, fun hplain => ?_, fun _ => hselected⟩
      obtain ⟨name, hname, hcolon⟩ := hmagic
      exact absurd hcolon (hplain name hname)
  · push Not at hmagic
    have hselects : ∀ path, (includedPaths classified ≠ [] &&
        env.add.selects (includedPaths classified) (untrackedPaths repo) path) = true ↔
          ∃ name ∈ includedPaths classified, env.add.matchesPath name path = true ∧
            ¬(name ∈ untrackedPaths repo ∧ name < path) := by
      intro path
      rw [env.add.selects_plain _ _ _ hmagic, Bool.and_eq_true, List.any_eq_true,
        decide_eq_true_eq, and_iff_right_of_imp fun ⟨name, hname, _⟩ => List.ne_nil_of_mem hname]
      refine exists_congr fun name => and_congr_right fun _ => ?_
      rw [Bool.and_eq_true, Bool.not_eq_true', ← Bool.not_eq_true, Bool.and_eq_true,
        List.contains_iff_mem, decide_eq_true_eq]
    constructor
    · intro hnames
      refine ⟨hnames.noBackslash, fun path hpath => ?_⟩
      rw [Bool.eq_iff_iff, hselects]
      constructor
      · rintro ⟨name, hname, hmatches, hfirst⟩
        by_contra hincluded
        refine hfirst ⟨((hmem hnames.noBackslash name).mp hname).1, ?_⟩
        exact hnames.othersLeft hmagic name hname path hpath (by simpa using hincluded) hmatches
      · intro hincluded
        have hself := (hmem hnames.noBackslash path).mpr ⟨hpath, hincluded⟩
        exact ⟨path, hself, env.add.matchesPath_self path (hmagic path hself),
          fun hlt => lt_irrefl path hlt.2⟩
    · rintro ⟨hback, hselected⟩
      refine ⟨hback, fun _ name hname path hpath hincluded hmatches => ?_, ?_⟩
      · by_contra hbehind
        have hself := (hselects path).mpr ⟨name, hname, hmatches, fun hlt => hbehind hlt.2⟩
        rw [hselected path hpath, hincluded] at hself
        cases hself
      · rintro ⟨name, hname, hcolon⟩
        exact absurd hcolon (hmagic name hname)

theorem capturedAsClassified_iff (h : Accepts env manifest repo classified) :
    CapturedAsClassified env manifest repo (capturedMetadata env manifest repo classified) ↔
      NamesReadLiterally env manifest repo (includedPaths classified) := by
  rw [namesReadLiterally_iff h, ← lists_iff h, ← tree_iff]
  constructor
  · rintro ⟨⟨commit, hcommit, -, htree⟩, hlists⟩
    rw [commitOf_workCommitOid] at hcommit
    rw [← Option.some.inj hcommit] at htree
    exact ⟨hlists, htree⟩
  · rintro ⟨hlists, htree⟩
    exact ⟨⟨_, commitOf_workCommitOid, rfl, htree⟩, hlists⟩

/-- A snapshot holds what was classified exactly when the names of the included paths
are read literally. -/
theorem captures_exactly_iff (env : CaptureEnv) (manifest : Manifest) (repo : Repository) :
    CapturesExactly env manifest repo ↔ ∀ classified, Accepts env manifest repo classified →
      NamesReadLiterally env manifest repo (includedPaths classified) := by
  constructor
  · intro h classified haccepts
    have hcaptured := captureSnapshot_eq_ok.mpr ⟨classified, haccepts, rfl⟩
    have hrun := run_createSnapshot_ok.mpr ⟨hcaptured, rfl⟩
    exact (capturedAsClassified_iff haccepts).mp (h noFault _ _ hrun)
  · intro h fault m repo' hexec
    obtain ⟨hcaptured, -⟩ := run_createSnapshot_ok.mp (Prog.run_of_exec_ok hexec)
    obtain ⟨classified, haccepts, rfl⟩ := captureSnapshot_eq_ok.mp hcaptured
    exact (capturedAsClassified_iff haccepts).mpr (h classified haccepts)

/-! ## A bracket next to a secret

Two untracked files, one named `[.]env` and the other `.env`.
-/

def plainManifest : Manifest where
  schema := 1
  projectId := "12345678"
  name := "demo"
  workspace := {
    untracked := .safe
    largeFileThresholdMib := 100
    exclude := ⟨[]⟩
    «include» := ⟨[]⟩
    secretScanner := ⟨[], [], []⟩ }
  environment := none
  secrets := .empty
  tasks := .empty

/-- No pattern matches, and nothing on the disk is special. -/
def plainClassification : ClassificationEnv where
  probes := {
    reparsePoint := fun _ => false
    symlinkTargetEscapes := fun _ => false
    secretContentReason := fun _ _ => none
    exceedsThreshold := fun _ _ => false }
  buildGlobset := fun _ => .ok fun _ => false
  secretHardExcludePatterns := fun _ => []

def plainCapture (objects : GitObjects) : CaptureEnv where
  objects := objects
  add := globPaths
  digest := zeroDigest
  classification := plainClassification
  lfsObjects := .ok ()
  commitInfo := fun message => message
  unixSeconds := 0
  unixNanos := .empty

def rootCommit : Commit := ⟨.empty, [], "root"⟩

def plainRepository (objects : GitObjects) (head : Head) (index : Index) (files : Files) :
    Repository where
  head := head
  refs := .singleton "refs/heads/main" (objects.commitOid rootCommit)
  index := index
  unmerged := []
  files := files
  operation := none
  ignored := fun _ _ => false
  pathExists := fun files path => (files.find? path).isSome

def bracketFiles : Files :=
  (SortedMap.singleton "[.]env" ⟨"100644", "notes"⟩).insert ".env" ⟨"100644", "secret"⟩

def bracketClassified : List ClassifiedPath :=
  [excluded ".env" ClassificationReason.secretFilename,
    included "[.]env" ClassificationReason.safeUntracked]

/-- A repository at the root commit is accepted. -/
theorem accepted_at_root (hoperation : repo.operation = none)
    (hhead : repo.headOid = some (numberedObjects.commitOid rootCommit))
    (hunmerged : repo.unmerged = [])
    (hclassifies : classifyUntrackedPaths plainClassification plainManifest
      (untrackedPaths repo) = .ok classified)
    (hadded : includedPaths classified ≠ [] →
      globPaths.refuses (includedPaths classified) (addUpdate repo.index repo.files) repo.files
        (repo.ignored repo.files) = none) :
    Accepts (plainCapture numberedObjects) plainManifest repo classified where
  operation := hoperation
  head := by
    refine ⟨_, hhead, ?_⟩
    change (numberedObjects.commitOf (numberedObjects.commitOid rootCommit)).isSome
    rw [numberedObjects.commitOf_commitOid]
    rfl
  unmerged := hunmerged
  lfsObjects := rfl
  classifies := hclassifies
  added := hadded
  valid := by
    have hstatus : (gitStatus numberedObjects repo).headOid ≠ "" := by
      change repo.headOid.getD "(initial)" ≠ ""
      rw [hhead]
      exact numberedOid_ne_empty _
    exact validate_capturedMetadata (by decide) (by decide) hstatus numberedOid_ne_empty

theorem bracketRepository_accepted :
    Accepts (plainCapture numberedObjects) plainManifest
      (plainRepository numberedObjects (.branch "main") .empty bracketFiles) bracketClassified :=
  accepted_at_root rfl rfl rfl (by rfl) fun _ => by rfl

theorem bracket_captures_secret :
    ¬∀ (env : CaptureEnv) (manifest : Manifest) (repo : Repository),
      CapturesExactly env manifest repo := by
  intro h
  have haccepts := bracketRepository_accepted
  have hcaptured := captureSnapshot_eq_ok.mpr ⟨bracketClassified, haccepts, rfl⟩
  have hrun := run_createSnapshot_ok.mpr ⟨hcaptured, rfl⟩
  have hnames := (capturedAsClassified_iff haccepts).mp (h _ _ _ noFault _ _ hrun)
  have hfirst : "[.]env" < ".env" := hnames.othersLeft (by decide) "[.]env" (by decide) ".env"
    (by decide) (by decide) (by decide)
  exact absurd hfirst (by decide)

end DevRelay.Snapshot
