import DevRelay.Snapshot.CapturedTree
import DevRelay.Snapshot.Restore

/-!
# From one repository to another

A snapshot of one repository is applied to another.  The verification captures
the target again, through its own index and exclude rules, so that the apply
returns only if each captured path is found once more.  That is so when the
names of the included paths mean the same on both sides, and the exclude rules
of the target hide what it had but nothing of what comes.
-/

namespace DevRelay.Snapshot

open DevRelay.Core DevRelay.Git DevRelay.Lib

/-- An apply with the Git and the hash function of the capture. -/
def ApplyEnv.alike (env : ApplyEnv) (capture : CaptureEnv) : ApplyEnv :=
  { env with objects := capture.objects, add := capture.add, digest := capture.digest }

section

variable (capture : CaptureEnv) (manifest : Manifest) (source target : Repository)

/-- The target has the commit, the branch, the index tree, the tracked files and the
included untracked files of the source. -/
structure SameState (after : Repository) : Prop where
  headOid : after.headOid = source.headOid
  branch : after.currentBranch = source.currentBranch
  indexTree : after.indexTree = source.indexTree
  trackedFiles : ∀ path, tracked source.index path = true →
    after.files.find? path = source.files.find? path
  includedFiles : ∀ path ∈ untrackedPaths source,
    isIncluded capture.classification manifest path = true →
      after.files.find? path = source.files.find? path

/-- No untracked file of the target is at a path that the snapshot knows. -/
def NothingInTheWay (names : List String) (excluded : List ClassifiedPath) : Prop :=
  ∀ path, (target.files.find? path).isSome → tracked target.index path = false →
    (source.headTree capture.objects).find? path = none ∧
    source.indexTree.find? path = none ∧
    (workTreeOf capture.add source names).find? path = none ∧
    path ∉ names ∧ path ∉ excluded.map ClassifiedPath.path

/-- A snapshot of the source is applied to the target if its checks pass and nothing is in the
way; and whenever an apply returns, the state is the same. -/
def ComesBack (env : ApplyEnv) (anchor : Repository) (m : SnapshotMetadata) : Prop :=
  ((∃ commits, ChecksPass (env.alike capture) anchor m target commits) →
    NothingInTheWay capture source target m.includedUntracked m.excluded →
      ∃ details after,
        (applySnapshotInner (env.alike capture) anchor m).run target = (.ok details, after)) ∧
  ∀ fault details after,
    (applySnapshotInner (env.alike capture) anchor m).exec fault 0 target =
      (.ok details, after) → SameState capture manifest source after

/-- Every snapshot that is created of the source comes back. -/
def RoundTrips (env : ApplyEnv) : Prop :=
  ∀ m source', (createSnapshot capture manifest).run source = (.ok m, source') →
    ComesBack capture manifest source target env source' m

/-! ## The condition -/

/-- An untracked file of the target that the commit of the source does not have. -/
def stays (path : String) : Option TreeEntry :=
  leftover (source.headTree capture.objects) target path

/-- The tracked and the included files of the source, over what stays of the target. -/
def metFiles : Files :=
  (source.files.filterMap fun path _ =>
    classifiedFile capture manifest source path).covering
      (target.files.filterMap fun path _ => stays capture source target path)

/-- The branch and the names of the included paths are read as they are meant, and no index
entry of the source is an intent to add a file. -/
structure ReadsAsMeant (names : List String) : Prop where
  branch : source.head ≠ .branch "(detached)"
  names : NamesReadLiterally capture manifest source names
  intended : ∀ path, tracked source.index path = true → source.indexTree.find? path = none →
    source.files.find? path = none ∧ stays capture source target path = none

/-- With the files of the source, the target ignores and finds what it should: the included
paths are there and not ignored, and the excluded ones are not there.  What stays is ignored,
under a path that `git add` of the names does not stop at, or no name is a pattern for it that
has not met its own path before.  Where a name starts with a colon, the names select the
included paths. -/
structure FindsAgain (names : List String) (excluded : List ClassifiedPath) : Prop where
  included : ∀ path ∈ names,
    target.ignored (metFiles capture manifest source target) path = false ∧
      target.pathExists (metFiles capture manifest source target) path = true
  excluded : ∀ item ∈ excluded,
    target.pathExists (metFiles capture manifest source target) item.path = false
  staying : (∀ name ∈ names, name.toList.head? ≠ some ':') →
    ∀ path, (stays capture source target path).isSome → ∀ name ∈ names,
      if target.ignored (metFiles capture manifest source target) path then
        path ≠ literalPart name ∧ ¬(path ++ "/").toList <+: name.toList
      else capture.add.matchesPath name path = true → name < path
  magicSelects : (∃ name ∈ names, name.toList.head? = some ':') →
    capture.add.refuses names
      (addUpdate (readTree source.indexTree) (metFiles capture manifest source target))
      (metFiles capture manifest source target)
      (target.ignored (metFiles capture manifest source target)) = none ∧
    ∀ path ∈ untrackedIn (readTree source.indexTree) (metFiles capture manifest source target)
        (target.ignored (metFiles capture manifest source target)),
      capture.add.selects names (untrackedIn (readTree source.indexTree)
          (metFiles capture manifest source target)
          (target.ignored (metFiles capture manifest source target))) path =
        names.contains path

end

/-- The snapshot is of the commit, the branch, the trees and the paths of the source. -/
structure Records (capture : CaptureEnv) (source : Repository)
    (classified : List ClassifiedPath) (m : SnapshotMetadata) : Prop where
  commits : ∃ head work index, Resolves capture.objects m head work index ∧
    head.tree = source.headTree capture.objects ∧
    work.tree = workTreeOf capture.add source (includedPaths classified) ∧
    index.tree = source.indexTree
  headOid : source.headOid = some m.headOid
  branch : m.branch = parseBranchHead (branchHeadValue source.head)
  indexTreeOid : m.indexTreeOid = capture.objects.treeOid source.indexTree
  workTreeOid : m.workTreeOid =
    capture.objects.treeOid (workTreeOf capture.add source (includedPaths classified))
  stateHash : calculateStateHash capture.digest m = m.stateHash
  included : m.includedUntracked = includedPaths classified
  excluded : ∀ path, path ∈ m.excluded.map ClassifiedPath.path ↔
    path ∈ (excludedPaths classified).map ClassifiedPath.path

variable {capture : CaptureEnv} {manifest : Manifest} {source anchor target after : Repository}
  {env : ApplyEnv} {classified : List ClassifiedPath} {refs : SortedMap String String}
  {m : SnapshotMetadata}

/-- What an apply of a snapshot of the source leaves. -/
def arrived (capture : CaptureEnv) (source : Repository) (m : SnapshotMetadata)
    (refs : SortedMap String String) (target : Repository) : Repository :=
  restored m refs (source.headTree capture.objects)
    (workTreeOf capture.add source m.includedUntracked) source.indexTree target

theorem find?_arrived {path : String} :
    (arrived capture source m refs target).files.find? path =
      ((workTreeOf capture.add source m.includedUntracked).find? path).or
        (stays capture source target path) :=
  find?_restoredFiles

theorem find?_metFiles {path : String} :
    (metFiles capture manifest source target).find? path =
      (classifiedFile capture manifest source path).or (stays capture source target path) := by
  have hsource : (source.files.find? path).bind
      (fun _ => classifiedFile capture manifest source path) =
        classifiedFile capture manifest source path := by
    unfold classifiedFile
    cases source.files.find? path with
    | none => rw [ite_self]; rfl
    | some file => rfl
  have htarget : (target.files.find? path).bind (fun _ => stays capture source target path) =
      stays capture source target path := by
    unfold stays leftover
    cases target.files.find? path with
    | none => rw [ite_self]; rfl
    | some file => rfl
  rw [metFiles, SortedMap.find?_covering, SortedMap.find?_filterMap, SortedMap.find?_filterMap,
    hsource, htarget]

/-- A snapshot that is created records its source. -/
theorem records_capturedMetadata (h : Accepts capture manifest source classified) :
    Records capture source classified (capturedMetadata capture manifest source classified) where
  commits := by
    obtain ⟨head, hhead⟩ := Option.isSome_iff_exists.mp h.resolves
    refine ⟨head, _, _, ⟨hhead, commitOf_workCommitOid, commitOf_indexCommitOid⟩, ?_, rfl, rfl⟩
    rw [Repository.headTree, h.headOid, Option.bind_some, hhead]
  headOid := h.headOid
  branch := rfl
  indexTreeOid := rfl
  workTreeOid := rfl
  stateHash := rfl
  included := rfl
  excluded _ := Iff.rfl

theorem currentBranch_restored {refs : SortedMap String String} {head work index : Files} :
    (restored m refs head work index target).currentBranch = m.branch := by
  unfold Repository.currentBranch restored checkedOutHead
  cases m.branch with
  | none => rfl
  | some branch => rfl

/-- The branch is read back, but for the name that stands for none. -/
theorem currentBranch_of_head (h : source.head ≠ .branch "(detached)") :
    parseBranchHead (branchHeadValue source.head) = source.currentBranch := by
  unfold Repository.currentBranch parseBranchHead branchHeadValue
  cases hsource : source.head with
  | detached oid => rfl
  | branch name =>
    rw [hsource, ne_eq, Head.branch.injEq] at h
    exact if_pos h

theorem NothingInTheWay.congr {names : List String} {excluded excluded' : List ClassifiedPath}
    (h : NothingInTheWay capture source target names excluded)
    (hsame : ∀ path, path ∈ excluded.map ClassifiedPath.path ↔
      path ∈ excluded'.map ClassifiedPath.path) :
    NothingInTheWay capture source target names excluded' := by
  intro path hfile htracked
  obtain ⟨hhead, hindex, hwork, hname, hexcluded⟩ := h path hfile htracked
  exact ⟨hhead, hindex, hwork, hname, fun hmem => hexcluded ((hsame path).mpr hmem)⟩

/-! ## When an apply returns -/

/-- An apply of the snapshot returns when its checks and its verification pass. -/
theorem run_apply_records (h : Records capture source classified m)
    {details : VerificationDetails} :
    (applySnapshotInner (env.alike capture) anchor m).run target = (.ok details, after) ↔
      ∃ commits, ChecksPass (env.alike capture) anchor m target commits ∧
        after = arrived capture source m
          (fetched (env.alike capture) anchor m commits target).refs target ∧
        verifySnapshot (env.alike capture) m after = .ok details := by
  obtain ⟨head, work, index, hresolves, hhead, hwork, hindex⟩ := h.commits
  rw [← h.included] at hwork
  rw [run_applySnapshotInner_ok]
  constructor
  · rintro ⟨commits, head', work', index', hchecks, hresolves', hafter, hverified⟩
    have hheads := hresolves.head.symm.trans hresolves'.head
    have hworks := hresolves.work.symm.trans hresolves'.work
    have hindexes := hresolves.index.symm.trans hresolves'.index
    rw [← Option.some.inj hheads, ← Option.some.inj hworks, ← Option.some.inj hindexes, hhead,
      hwork, hindex] at hafter
    exact ⟨commits, hchecks, hafter, hverified⟩
  · rintro ⟨commits, hchecks, hafter, hverified⟩
    refine ⟨commits, head, work, index, hchecks, hresolves, ?_, hverified⟩
    rw [hhead, hwork, hindex]
    exact hafter

theorem tracked_of_indexTree {path : String} (h : (source.indexTree.find? path).isSome) :
    tracked source.index path = true := by
  rw [Repository.indexTree, find?_writeTree] at h
  unfold tracked
  cases hentry : source.index.find? path with
  | none =>
    rw [hentry] at h
    cases h
  | some entry => rfl

/-- What is captured is what was classified. -/
theorem find?_workTreeOf_of_literal (haccepts : Accepts capture manifest source classified)
    (hnames : NamesReadLiterally capture manifest source (includedPaths classified))
    (path : String) : (workTreeOf capture.add source (includedPaths classified)).find? path =
      classifiedFile capture manifest source path :=
  tree_iff.mpr ((namesReadLiterally_iff haccepts).mp hnames).2 path

theorem mem_includedPaths_of_literal (haccepts : Accepts capture manifest source classified)
    (hnames : NamesReadLiterally capture manifest source (includedPaths classified))
    {path : String} : path ∈ includedPaths classified ↔
      path ∈ untrackedPaths source ∧ isIncluded capture.classification manifest path = true := by
  rw [mem_includedPaths haccepts]
  constructor
  · rintro ⟨other, hother, rfl, hincluded⟩
    rw [normalizeRepoPath_eq_self.mpr (hnames.noBackslash other hother)]
    exact ⟨hother, hincluded⟩
  · rintro ⟨hpath, hincluded⟩
    exact ⟨path, hpath, normalizeRepoPath_eq_self.mpr (hnames.noBackslash path hpath), hincluded⟩

section

variable (haccepts : Accepts capture manifest source classified)
  (hreads : ReadsAsMeant capture manifest source target (includedPaths classified))

include haccepts hreads

/-- The files that arrive are those that meet. -/
theorem files_arrived (hrecords : Records capture source classified m) :
    (arrived capture source m refs target).files = metFiles capture manifest source target := by
  apply SortedMap.ext
  intro path
  rw [find?_arrived, find?_metFiles, hrecords.included,
    find?_workTreeOf_of_literal haccepts hreads.names]

/-- A captured path is in the tree of the index, or included. -/
theorem captured_cases {path : String} (h : (classifiedFile capture manifest source path).isSome) :
    (source.indexTree.find? path).isSome ∨ path ∈ includedPaths classified := by
  unfold classifiedFile at h
  split_ifs at h with hcaptured
  · rcases Bool.or_eq_true_iff.mp hcaptured with htracked | hincluded
    · refine Or.inl ?_
      by_contra hnone
      rw [Option.not_isSome_iff_eq_none] at hnone
      rw [(hreads.intended path htracked hnone).1] at h
      cases h
    · rw [Bool.and_eq_true, List.contains_iff_mem] at hincluded
      exact Or.inr ((mem_includedPaths_of_literal haccepts hreads.names).mpr hincluded)
  · cases h

/-- An included path has its file. -/
theorem classifiedFile_of_included {path : String} (h : path ∈ includedPaths classified) :
    (classifiedFile capture manifest source path).isSome ∧ source.indexTree.find? path = none := by
  obtain ⟨hpath, hincluded⟩ := (mem_includedPaths_of_literal haccepts hreads.names).mp h
  obtain ⟨hfile, htracked, -⟩ := mem_untrackedPaths.mp hpath
  constructor
  · rw [classifiedFile, List.contains_iff_mem.mpr hpath, hincluded, htracked]
    exact hfile
  · rw [← Option.not_isSome_iff_eq_none]
    intro hindex
    rw [tracked_of_indexTree hindex] at htracked
    cases htracked

/-- On the target, the names select the included paths and nothing that stays. -/
theorem selects_metFiles
    (hfinds : FindsAgain capture manifest source target (includedPaths classified)
      (excludedPaths classified))
    {path : String} (hpath : path ∈ untrackedIn (readTree source.indexTree)
      (metFiles capture manifest source target)
      (target.ignored (metFiles capture manifest source target))) :
    (includedPaths classified ≠ [] && capture.add.selects (includedPaths classified)
      (untrackedIn (readTree source.indexTree) (metFiles capture manifest source target)
        (target.ignored (metFiles capture manifest source target))) path) =
      (includedPaths classified).contains path := by
  by_cases hmagic : ∃ name ∈ includedPaths classified, name.toList.head? = some ':'
  · obtain ⟨name, hname, -⟩ := id hmagic
    rw [(hfinds.magicSelects hmagic).2 path hpath, decide_eq_true (List.ne_nil_of_mem hname),
      Bool.true_and]
  · push Not at hmagic
    rw [capture.add.selects_plain _ _ _ hmagic, Bool.eq_iff_iff, List.contains_iff_mem,
      Bool.and_eq_true, List.any_eq_true, decide_eq_true_eq,
      and_iff_right_of_imp fun ⟨name, hname, _⟩ => List.ne_nil_of_mem hname]
    constructor
    · rintro ⟨name, hname, hmatches⟩
      rw [Bool.and_eq_true, Bool.not_eq_true', ← Bool.not_eq_true, Bool.and_eq_true,
        List.contains_iff_mem, decide_eq_true_eq] at hmatches
      by_contra hother
      rw [untrackedIn, List.mem_filter, SortedMap.mem_keys, find?_metFiles, Bool.and_eq_true,
        Bool.not_eq_true', Bool.not_eq_true'] at hpath
      obtain ⟨hfile, htracked, hignored⟩ := hpath
      -- what is neither tracked nor included stays on the target
      have hstays : (stays capture source target path).isSome := by
        cases hclassified : classifiedFile capture manifest source path with
        | none =>
          rw [hclassified, Option.none_or] at hfile
          exact hfile
        | some file =>
          rcases captured_cases haccepts hreads (by rw [hclassified]; rfl) with hindex | hname
          · rw [tracked_readTree, hindex] at htracked
            cases htracked
          · exact absurd hname hother
      have hself := hfinds.staying hmagic path hstays name hname
      rw [if_neg (by rw [hignored]; decide)] at hself
      refine hmatches.2 ⟨?_, hself hmatches.1⟩
      obtain ⟨hclassified, hindex⟩ := classifiedFile_of_included haccepts hreads hname
      rw [untrackedIn, List.mem_filter, SortedMap.mem_keys, find?_metFiles, tracked_readTree,
        hindex, (hfinds.included name hname).1]
      obtain ⟨file, hfile⟩ := Option.isSome_iff_exists.mp hclassified
      rw [hfile]
      exact ⟨rfl, rfl⟩
    · intro hname
      refine ⟨path, hname, ?_⟩
      rw [capture.add.matchesPath_self path (hmagic path hname)]
      simp

/-- The verification captures on the target what was captured on the source. -/
theorem workTreeOf_arrived (hrecords : Records capture source classified m)
    (hway : NothingInTheWay capture source target (includedPaths classified) m.excluded)
    (hfinds : FindsAgain capture manifest source target (includedPaths classified)
      (excludedPaths classified)) :
    workTreeOf capture.add (arrived capture source m refs target) (includedPaths classified) =
      workTreeOf capture.add source (includedPaths classified) := by
  apply SortedMap.ext
  intro path
  have hfiles : (arrived capture source m refs target).files = _ :=
    files_arrived haccepts hreads hrecords
  have huntracked : untrackedPaths (arrived capture source m refs target) =
      untrackedIn (readTree source.indexTree) (metFiles capture manifest source target)
        (target.ignored (metFiles capture manifest source target)) := by
    rw [← hfiles]
    rfl
  have htracked : tracked (arrived capture source m refs target).index path =
      (source.indexTree.find? path).isSome := tracked_readTree
  have hignored : (arrived capture source m refs target).ignored
      (arrived capture source m refs target).files path =
        target.ignored (metFiles capture manifest source target) path := by
    rw [hfiles]
    rfl
  rw [find?_workTreeOf, find?_workTreeOf_of_literal haccepts hreads.names, htracked, hignored,
    huntracked, hfiles, find?_metFiles]
  cases hclassified : classifiedFile capture manifest source path with
  | some file =>
    rw [Option.some_or]
    rcases captured_cases haccepts hreads (by rw [hclassified]; rfl) with hindex | hname
    · rw [hindex, Bool.true_or, if_pos rfl]
    · have hmem : path ∈ untrackedPaths (arrived capture source m refs target) := by
        rw [mem_untrackedPaths, htracked, hignored, hfiles, find?_metFiles, hclassified,
          (classifiedFile_of_included haccepts hreads hname).2, (hfinds.included path hname).1]
        exact ⟨rfl, rfl, rfl⟩
      rw [huntracked] at hmem
      rw [selects_metFiles haccepts hreads hfinds hmem, List.contains_iff_mem.mpr hname,
        (hfinds.included path hname).1, if_pos (by simp)]
  | none =>
    rw [Option.none_or]
    cases hstays : stays capture source target path with
    | none => rw [ite_self]
    | some file =>
      have hnot : target.files.find? path = some file ∧ tracked target.index path = false := by
        unfold stays leftover at hstays
        split_ifs at hstays with hknown
        rw [Bool.not_eq_true, Bool.or_eq_false_iff] at hknown
        exact ⟨hstays, hknown.2⟩
      obtain ⟨-, hindex, -, hname, -⟩ := hway path (by rw [hnot.1]; rfl) hnot.2
      rw [hindex, Option.isSome_none, Bool.false_or, if_neg]
      intro hselected
      rw [Bool.and_eq_true, Bool.not_eq_true'] at hselected
      have hmem : path ∈ untrackedPaths (arrived capture source m refs target) := by
        rw [mem_untrackedPaths, htracked, hignored, hfiles, find?_metFiles, hclassified,
          hstays, hindex, hselected.2]
        exact ⟨rfl, rfl, rfl⟩
      rw [huntracked] at hmem
      rw [selects_metFiles haccepts hreads hfinds hmem, List.contains_iff_mem] at hselected
      exact hname hselected.1

/-- `git add` does not refuse the names on the target. -/
theorem refuses_metFiles
    (hfinds : FindsAgain capture manifest source target (includedPaths classified)
      (excludedPaths classified)) :
    capture.add.refuses (includedPaths classified)
      (addUpdate (readTree source.indexTree) (metFiles capture manifest source target))
      (metFiles capture manifest source target)
      (target.ignored (metFiles capture manifest source target)) = none := by
  by_cases hmagic : ∃ name ∈ includedPaths classified, name.toList.head? = some ':'
  · exact (hfinds.magicSelects hmagic).1
  · push Not at hmagic
    refine capture.add.refuses_plain _ _ _ _ hmagic ?_ ?_
    · intro name hname
      obtain ⟨file, hfile⟩ := Option.isSome_iff_exists.mp
        (classifiedFile_of_included haccepts hreads hname).1
      rw [find?_metFiles, hfile]
      exact ⟨rfl, (hfinds.included name hname).1⟩
    · intro name hname path hfile htracked hignored
      have hstays : (stays capture source target path).isSome := by
        cases hclassified : classifiedFile capture manifest source path with
        | none =>
          rw [find?_metFiles, hclassified, Option.none_or] at hfile
          exact hfile
        | some file =>
          rcases captured_cases haccepts hreads (by rw [hclassified]; rfl) with hindex | hother
          · obtain ⟨entry, hentry⟩ := Option.isSome_iff_exists.mp hfile
            rw [tracked, find?_addUpdate, tracked_readTree, hindex, if_pos rfl, hentry]
              at htracked
            cases htracked
          · rw [(hfinds.included path hother).1] at hignored
            cases hignored
      have hself := hfinds.staying hmagic path hstays name hname
      rw [if_pos hignored] at hself
      exact hself

/-- The verification passes on what an apply leaves. -/
theorem verified_arrived (hrecords : Records capture source classified m)
    (hway : NothingInTheWay capture source target (includedPaths classified) m.excluded)
    (hfinds : FindsAgain capture manifest source target (includedPaths classified)
      (excludedPaths classified)) :
    Verified (env.alike capture) m (arrived capture source m refs target) := by
  have hfiles : (arrived capture source m refs target).files = _ :=
    files_arrived haccepts hreads hrecords
  have hindex : (arrived capture source m refs target).indexTree = source.indexTree :=
    writeTree_readTree _
  refine {
    head := headOid_of_checkedOut ⟨rfl, rfl⟩
    indexTree := (congrArg capture.objects.treeOid hindex).trans hrecords.indexTreeOid.symm
    added := ?_
    workTree := ?_
    stateHash := hrecords.stateHash
    included := ?_
    excluded := ?_ }
  · intro _
    rw [hrecords.included, hfiles]
    exact refuses_metFiles haccepts hreads hfinds
  · rw [hrecords.included, hrecords.workTreeOid]
    exact congrArg capture.objects.treeOid
      (workTreeOf_arrived haccepts hreads hrecords hway hfinds)
  · intro path hpath
    rw [hrecords.included] at hpath
    rw [hfiles]
    exact (hfinds.included path hpath).2
  · intro item hitem _
    obtain ⟨other, hother, heq⟩ := List.mem_map.mp
      ((hrecords.excluded item.path).mp (List.mem_map_of_mem hitem))
    rw [hfiles, ← heq]
    exact hfinds.excluded other hother

/-! ## What it leaves -/

/-- A state that is verified is that of the source. -/
theorem sameState_arrived (hrecords : Records capture source classified m)
    (hverified : Verified (env.alike capture) m (arrived capture source m refs target)) :
    SameState capture manifest source (arrived capture source m refs target) := by
  have htree : workTreeOf capture.add (arrived capture source m refs target)
      m.includedUntracked = workTreeOf capture.add source m.includedUntracked := by
    apply capture.objects.treeOid_injective
    rw [hrecords.included, ← hrecords.workTreeOid, ← hverified.workTree, hrecords.included]
    rfl
  have hclassified : ∀ path, (workTreeOf capture.add source m.includedUntracked).find? path =
      classifiedFile capture manifest source path := by
    rw [hrecords.included]
    exact find?_workTreeOf_of_literal haccepts hreads.names
  refine ⟨?_, ?_, writeTree_readTree _, ?_, ?_⟩
  · rw [hrecords.headOid]
    exact headOid_of_checkedOut ⟨rfl, rfl⟩
  · exact (currentBranch_restored.trans hrecords.branch).trans (currentBranch_of_head hreads.branch)
  · intro path htracked
    rw [find?_arrived, hclassified, classifiedFile, htracked, Bool.true_or, if_pos rfl]
    cases hfile : source.files.find? path with
    | some file => rfl
    | none =>
      rw [Option.none_or]
      by_cases hindex : source.indexTree.find? path = none
      · exact (hreads.intended path htracked hindex).2
      · -- the deleted file would be captured on the target
        have hself := congrArg (fun tree => tree.find? path) htree
        have htracked' : tracked (arrived capture source m refs target).index path = true := by
          exact tracked_readTree.trans (Option.isSome_iff_ne_none.mpr hindex)
        simp only [hclassified] at hself
        rw [find?_workTreeOf, htracked', Bool.true_or, if_pos rfl, find?_arrived, hclassified,
          classifiedFile, htracked, Bool.true_or, if_pos rfl, hfile, Option.none_or] at hself
        exact hself
  · intro path hpath hincluded
    obtain ⟨hfile, htracked, -⟩ := mem_untrackedPaths.mp hpath
    obtain ⟨file, hfile⟩ := Option.isSome_iff_exists.mp hfile
    rw [find?_arrived, hclassified, classifiedFile, List.contains_iff_mem.mpr hpath, hincluded,
      htracked, hfile]
    rfl

/-- A snapshot that records the source comes back. -/
theorem comesBack_of_records (hrecords : Records capture source classified m)
    (hfinds : NothingInTheWay capture source target (includedPaths classified)
        (excludedPaths classified) →
      FindsAgain capture manifest source target (includedPaths classified)
        (excludedPaths classified)) :
    ComesBack capture manifest source target env anchor m := by
  constructor
  · rintro ⟨commits, hchecks⟩ hway
    rw [hrecords.included] at hway
    have hfinds := hfinds (hway.congr hrecords.excluded)
    have hverified : Verified (env.alike capture) m (arrived capture source m
        (fetched (env.alike capture) anchor m commits target).refs target) :=
      verified_arrived haccepts hreads hrecords hway hfinds
    obtain ⟨details, hdetails⟩ := verifySnapshot_isOk.mpr hverified
    exact ⟨details, _, (run_apply_records hrecords).mpr ⟨commits, hchecks, rfl, hdetails⟩⟩
  · intro fault details after hexec
    obtain ⟨commits, -, rfl, hdetails⟩ :=
      (run_apply_records hrecords).mp (Prog.run_of_exec_ok hexec)
    exact sameState_arrived haccepts hreads hrecords
      (verifySnapshot_isOk.mp ⟨details, hdetails⟩)

end

/-- A target without references of the snapshot accepts them. -/
theorem fetchAccepted_of_absent {objects : GitObjects} {snapshot : SnapshotMetadata}
    {commits : String × String} (hindex : target.refs.find? snapshot.indexRef = none)
    (hwork : target.refs.find? snapshot.workRef = none) :
    fetchAccepted objects snapshot commits target = true := by
  have haccepts : target.acceptsRef objects snapshot.indexRef commits.1 = true := by
    rw [Repository.acceptsRef, hindex]
  have hafter : (target.refs.insert snapshot.indexRef commits.1).find? snapshot.workRef = none := by
    rw [SortedMap.find?_insert_of_ne (SnapshotMetadata.indexRef_ne_workRef _ _).symm, hwork]
  unfold fetchAccepted
  rw [fetchRef_of_accepted haccepts, haccepts, Bool.true_and, Repository.acceptsRef]
  simp only [hafter]

/-- The references that `create_snapshot` leaves are found by an apply to a target that
has only `main`. -/
theorem checksPass_quiet (source : Repository) {objects : GitObjects}
    {snapshot : SnapshotMetadata} (hclean : (gitStatus objects target).isClean = true)
    (hmain : target.refs = .singleton (branchRef "main") (objects.commitOid rootCommit))
    (add : AddPaths) (digest : Blake3) :
    ChecksPass (quietEnv objects add digest)
      (updateRef snapshot.workRef snapshot.workCommitOid
        (updateRef snapshot.indexRef snapshot.indexCommitOid source))
      snapshot target (snapshot.indexCommitOid, snapshot.workCommitOid) := by
  have hrefs : ensureSourceSnapshotRefs (updateRef snapshot.workRef snapshot.workCommitOid
      (updateRef snapshot.indexRef snapshot.indexCommitOid source)) snapshot =
        .ok (snapshot.indexCommitOid, snapshot.workCommitOid) := by
    apply ensureSourceSnapshotRefs_eq_ok.mpr
    refine ⟨?_, SortedMap.find?_insert_self ..⟩
    exact (SortedMap.find?_insert_of_ne (SnapshotMetadata.indexRef_ne_workRef _ _)).trans
      (SortedMap.find?_insert_self ..)
  have habsent : ∀ name, branchRef "main" ≠ name → target.refs.find? name = none := by
    intro name hne
    simp [hmain, SortedMap.find?, hne.symm]
  refine ⟨?_, fetchAccepted_of_absent (habsent _ (branchRef_ne_indexRef _ _))
    (habsent _ (branchRef_ne_workRef _ _)), rfl, rfl, rfl, rfl⟩
  unfold preflight planApplySnapshot
  have hclean' : (gitStatus (quietEnv objects add digest).objects target).isClean = true := hclean
  simp only [hclean', hrefs]
  rfl

theorem headTree_at_root {objects : GitObjects} {repo : Repository}
    (hhead : repo.headOid = some (objects.commitOid rootCommit)) :
    repo.headTree objects = .empty := by
  rw [Repository.headTree, hhead, Option.bind_some, objects.commitOf_commitOid]
  rfl

theorem clean_at_root {objects : GitObjects} {repo : Repository}
    (hhead : repo.headOid = some (objects.commitOid rootCommit)) (hindex : repo.index = .empty)
    (hunmerged : repo.unmerged = []) (huntracked : untrackedPaths repo = []) :
    (gitStatus objects repo).isClean = true := by
  have hstaged : changedPaths (repo.headTree objects) repo.indexTree = [] := by
    rw [headTree_at_root hhead, Repository.indexTree, hindex]
    rfl
  have hunstaged : unstagedPaths repo = [] := by
    rw [unstagedPaths, hindex]
    rfl
  simp [gitStatus, GitStatus.isClean, hstaged, hunstaged, huntracked, hunmerged]

def notesSource (objects : GitObjects) : Repository :=
  plainRepository objects (.branch "main") (.singleton "kept" ⟨⟨"100644", "kept"⟩, false⟩)
    ((SortedMap.singleton "kept" ⟨"100644", "edited"⟩).insert "notes" ⟨"100644", "notes"⟩)

def notesClassified : List ClassifiedPath :=
  [included "notes" ClassificationReason.safeUntracked]

theorem notesSource_accepted :
    Accepts (plainCapture numberedObjects) plainManifest (notesSource numberedObjects)
      notesClassified :=
  accepted_at_root rfl rfl rfl (by rfl) fun _ => by rfl

def notesMetadata (objects : GitObjects) : SnapshotMetadata :=
  capturedMetadata (plainCapture objects) plainManifest (notesSource objects) notesClassified

/-- The source after its snapshot. -/
def notesAnchor (objects : GitObjects) : Repository :=
  updateRef (notesMetadata objects).workRef (notesMetadata objects).workCommitOid
    (updateRef (notesMetadata objects).indexRef (notesMetadata objects).indexCommitOid
      (notesSource objects))

/-- A target with an ignored file. -/
def cacheTarget (objects : GitObjects) : Repository :=
  { plainRepository objects (.branch "main") .empty (.singleton "cache" ⟨"100644", "cache"⟩) with
    ignored := fun _ path => path = "cache" }

theorem stays_cacheTarget {path : String}
    (h : (stays (plainCapture numberedObjects) (notesSource numberedObjects)
      (cacheTarget numberedObjects) path).isSome) : path = "cache" := by
  by_contra hne
  have hnone : (cacheTarget numberedObjects).files.find? path = none := by
    simp [cacheTarget, plainRepository, SortedMap.find?, hne]
  rw [stays, leftover, hnone, ite_self] at h
  cases h

theorem nothingInTheWay_notes : NothingInTheWay (plainCapture numberedObjects)
    (notesSource numberedObjects) (cacheTarget numberedObjects) ["notes"] [] := by
  intro path hfile _
  have hpath : path = "cache" := by
    by_contra hne
    have hnone : (cacheTarget numberedObjects).files.find? path = none := by
      simp [cacheTarget, plainRepository, SortedMap.find?, hne]
    rw [hnone] at hfile
    cases hfile
  have hhead : (notesSource numberedObjects).headTree numberedObjects = .empty :=
    headTree_at_root rfl
  rw [hpath]
  change ((notesSource numberedObjects).headTree numberedObjects).find? "cache" = none ∧ _
  rw [hhead]
  decide

theorem readsAsMeant_notes : ReadsAsMeant (plainCapture numberedObjects) plainManifest
    (notesSource numberedObjects) (cacheTarget numberedObjects) ["notes"] where
  branch := by
    change Head.branch "main" ≠ _
    decide
  names := {
    noBackslash := by decide
    othersLeft := by decide
    magicSelects := fun h => absurd h (by decide) }
  intended := by
    intro path htracked hindex
    by_cases hpath : path = "kept"
    · rw [hpath] at hindex
      cases hindex
    · have hnone : (notesSource numberedObjects).index.find? path = none := by
        simp [notesSource, plainRepository, SortedMap.find?, hpath]
      rw [tracked, hnone] at htracked
      cases htracked

theorem findsAgain_notes : FindsAgain (plainCapture numberedObjects) plainManifest
    (notesSource numberedObjects) (cacheTarget numberedObjects) ["notes"] [] where
  included := by
    intro path hpath
    rw [List.mem_singleton.mp hpath]
    refine ⟨rfl, ?_⟩
    change ((metFiles _ _ _ _).find? "notes").isSome = true
    rw [find?_metFiles]
    rfl
  excluded := nofun
  staying := by
    intro _ path hpath name hname
    rw [stays_cacheTarget hpath, List.mem_singleton.mp hname]
    decide
  magicSelects h := absurd h (by decide)

def intendedSource (objects : GitObjects) : Repository :=
  plainRepository objects (.branch "main") (.singleton "notes" ⟨⟨"100644", "notes"⟩, true⟩)
    (.singleton "notes" ⟨"100644", "notes"⟩)

theorem intendedSource_accepted :
    Accepts (plainCapture numberedObjects) plainManifest (intendedSource numberedObjects) [] :=
  accepted_at_root rfl rfl rfl (by rfl) fun h => absurd rfl h

end DevRelay.Snapshot
