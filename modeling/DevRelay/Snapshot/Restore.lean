import DevRelay.Snapshot.Capture
import DevRelay.Snapshot.CommitReachability

/-!
# What an apply leaves

An apply that returns has gone through all of its steps, so the target it
leaves is `restored`: the checkout of the snapshot, the tree of the index in
the index, and the tree of the work tree over the files that no step removes.
-/

namespace DevRelay.Snapshot

open DevRelay.Core DevRelay.Git DevRelay.Lib

/-- The files after the checkout, the reset and the step to the work tree. -/
def restoredFiles (head work : Files) (target : Repository) : Files :=
  updateFiles (readTree head) work
    (updateFiles (readTree head) head (updateFiles target.index head target.files))

/-- The target after the steps of an apply. -/
def restored (snapshot : SnapshotMetadata) (refs : SortedMap String String)
    (head work index : Files) (target : Repository) : Repository :=
  { target with
    head := checkedOutHead snapshot
    refs := checkedOutRefs snapshot refs
    index := readTree index
    unmerged := []
    files := restoredFiles head work target }

/-- The file of the target under a path that is untracked there and not in the commit. -/
def leftover (head : Files) (target : Repository) (path : String) : Option TreeEntry :=
  if (head.find? path).isSome || tracked target.index path then none
  else target.files.find? path

theorem find?_restoredFiles {head work : Files} {target : Repository} {path : String} :
    (restoredFiles head work target).find? path =
      (work.find? path).or (leftover head target path) := by
  unfold restoredFiles leftover
  rw [find?_updateFiles, find?_updateFiles, find?_updateFiles, tracked_readTree]
  cases head.find? path with
  | none => simp
  | some file => simp

/-! ## An apply that returns -/

/-- The checks of an apply pass on these two repositories, and no fault is injected. -/
structure ChecksPass (env : ApplyEnv) (source : Repository) (snapshot : SnapshotMetadata)
    (target : Repository) (commits : String × String) : Prop where
  preflight : preflight env source snapshot target = .ok commits
  accepted : fetchAccepted env.objects snapshot commits target = true
  headBlobs : env.missingBlobs snapshot.headOid = .ok ()
  indexBlobs : env.missingBlobs snapshot.indexTreeOid = .ok ()
  workBlobs : env.missingBlobs snapshot.workTreeOid = .ok ()
  notInjected : env.injected = none

/-- The commits of the snapshot. -/
structure Resolves (objects : GitObjects) (snapshot : SnapshotMetadata)
    (head work index : Commit) : Prop where
  head : objects.commitOf snapshot.headOid = some head
  work : objects.commitOf snapshot.workCommitOid = some work
  index : objects.commitOf snapshot.indexCommitOid = some index

variable {env : ApplyEnv} {source target after : Repository} {snapshot : SnapshotMetadata}
  {commits : String × String} {head work index : Commit} {details : VerificationDetails}

theorem checkoutSnapshot_eq {objects : GitObjects} {before : Repository}
    (h : objects.commitOf snapshot.headOid = some head) :
    checkoutSnapshot objects snapshot before = some
      { before.update head.tree with
        head := checkedOutHead snapshot
        refs := checkedOutRefs snapshot before.refs } := by
  unfold checkoutSnapshot checkedOutHead checkedOutRefs
  cases snapshot.branch with
  | none =>
    simp only [Repository.checkoutDetached, h, Option.map_some]
    rfl
  | some branch => simp only [Repository.checkoutBranch, h, Option.map_some]

theorem resetHard_eq {objects : GitObjects} {refs : SortedMap String String}
    {before : Repository} (hout : CheckedOut snapshot refs before)
    (h : objects.commitOf snapshot.headOid = some head) :
    before.resetHard objects snapshot.headOid = some (before.update head.tree) := by
  obtain ⟨hhead, hrefs⟩ := hout
  unfold checkedOutHead at hhead
  unfold checkedOutRefs at hrefs
  rw [Repository.resetHard, h, Option.map_some]
  cases hbranch : snapshot.branch with
  | none =>
    simp only [hbranch] at hhead
    simp only [hhead]
    rw [← hhead]
    rfl
  | some branch =>
    simp only [hbranch] at hhead hrefs
    simp only [hhead]
    have hsame : before.refs.insert (branchRef branch) snapshot.headOid = before.refs := by
      rw [hrefs, insert_same]
    rw [hsame]
    rfl

/-- The steps of an apply up to its verification. -/
theorem run_applyTrees_ok (hresolves : Resolves env.objects snapshot head work index)
    (hinjected : env.injected = none) {refs : SortedMap String String} {before : Repository}
    (hout : CheckedOut snapshot refs before) :
    (applyTrees env snapshot).run before = (.ok details, after) ↔
      after = { ((before.update head.tree).update work.tree) with
        index := readTree index.tree, unmerged := [] } ∧
      verifySnapshot env snapshot after = .ok details := by
  have hreset := resetHard_eq hout hresolves.head
  unfold applyTrees injectApplyFault injectApplyDiskFullFault
  simp only [Prog.run_attempt_bind_ok, Prog.run_ensure_bind_ok, Prog.run_query_bind,
    Prog.run_ofExcept_ok, hreset, hinjected, Repository.readTreeUpdate, Repository.readTreeIndex,
    hresolves.work, hresolves.index, Option.map_some, Option.some.injEq]
  constructor
  · rintro ⟨_, rfl, -, -, _, rfl, -, _, rfl, -, -, hverified, rfl⟩
    exact ⟨rfl, hverified⟩
  · rintro ⟨rfl, hverified⟩
    exact ⟨_, rfl, by simp, by simp, _, rfl, by simp, _, rfl, by simp, by simp, hverified, rfl⟩

/-- The steps of an apply need the commits of the snapshot, and no fault. -/
theorem resolves_of_run_applyTrees {before : Repository}
    (hfetch : env.injected ≠ some .afterTargetFetch)
    (h : (applyTrees env snapshot).run before = (.ok details, after)) :
    (∃ head work index, Resolves env.objects snapshot head work index) ∧ env.injected = none := by
  unfold applyTrees injectApplyFault injectApplyDiskFullFault at h
  simp only [Prog.run_attempt_bind_ok, Prog.run_ensure_bind_ok] at h
  obtain ⟨base, hreset, hbase, hdisk, work, hwork, hafterWork, index, hindex, hafterIndex,
    hverification, -⟩ := h
  obtain ⟨headCommit, hhead, -⟩ := Option.map_eq_some_iff.mp hreset
  obtain ⟨workCommit, hworkCommit, -⟩ := Option.map_eq_some_iff.mp hwork
  obtain ⟨indexCommit, hindexCommit, -⟩ := Option.map_eq_some_iff.mp hindex
  refine ⟨⟨_, _, _, hhead, hworkCommit, hindexCommit⟩, ?_⟩
  cases hinjected : env.injected with
  | none => rfl
  | some point =>
    rw [hinjected] at hfetch hbase hdisk hafterWork hafterIndex hverification
    cases point with
    | afterTargetFetch => exact absurd rfl hfetch
    | duringTargetApplyDiskFull => exact absurd rfl hdisk
    | afterBaseApply => exact absurd rfl hbase
    | afterWorkApply => exact absurd rfl hafterWork
    | afterIndexApply => exact absurd rfl hafterIndex
    | duringVerification => exact absurd rfl hverification

/-- An apply returns exactly when its checks pass, the commits are there, and the
target it leaves is verified. -/
theorem run_applySnapshotInner_ok :
    (applySnapshotInner env source snapshot).run target = (.ok details, after) ↔
      ∃ commits head work index, ChecksPass env source snapshot target commits ∧
        Resolves env.objects snapshot head work index ∧
        after = restored snapshot (fetched env source snapshot commits target).refs head.tree
          work.tree index.tree target ∧ verifySnapshot env snapshot after = .ok details := by
  have hsteps : ∀ {commits head work index}, Resolves env.objects snapshot head work index →
      ChecksPass env source snapshot target commits →
      { (((({ (fetched env source snapshot commits target).update head.tree with
          head := checkedOutHead snapshot
          refs := checkedOutRefs snapshot (fetched env source snapshot commits target).refs }) :
            Repository).update head.tree).update work.tree) with
        index := readTree index.tree, unmerged := [] } =
        restored snapshot (fetched env source snapshot commits target).refs head.tree work.tree
          index.tree target := by
    intro commits head work index _ hchecks
    have hfetched : fetched env source snapshot commits target = _ := fetched_eq hchecks.accepted
    unfold restored restoredFiles Repository.update
    rw [hfetched]
  unfold applySnapshotInner injectApplyFault
  simp only [Prog.run_query_bind, Prog.run_ofExcept_bind_ok, Prog.run_update_bind,
    Prog.run_ensure_bind_ok, Prog.run_attempt_bind_ok]
  constructor
  · rintro ⟨commits, hpreflight, haccepted, _, hheadBlobs, _, hindexBlobs, _, hworkBlobs,
      hfetch, before, hcheckout, happly⟩
    obtain ⟨⟨head, work, index, hresolves⟩, hinjected⟩ :=
      resolves_of_run_applyTrees hfetch happly
    have hchecks : ChecksPass env source snapshot target commits :=
      ⟨hpreflight, haccepted, hheadBlobs, hindexBlobs, hworkBlobs, hinjected⟩
    obtain ⟨hafter, hverified⟩ := (run_applyTrees_ok hresolves hinjected
      (checkedOut_of_checkoutSnapshot hcheckout)).mp happly
    rw [checkoutSnapshot_eq hresolves.head] at hcheckout
    rw [← Option.some.inj hcheckout] at hafter
    exact ⟨commits, head, work, index, hchecks, hresolves,
      hafter.trans (hsteps hresolves hchecks), hverified⟩
  · rintro ⟨commits, head, work, index, hchecks, hresolves, hafter, hverified⟩
    refine ⟨commits, hchecks.preflight, hchecks.accepted, (), hchecks.headBlobs, (),
      hchecks.indexBlobs, (), hchecks.workBlobs, ?_, _, checkoutSnapshot_eq hresolves.head, ?_⟩
    · rw [hchecks.notInjected]
      simp
    · apply (run_applyTrees_ok hresolves hchecks.notInjected
        (checkedOut_of_checkoutSnapshot (checkoutSnapshot_eq hresolves.head))).mpr
      exact ⟨hafter.trans (hsteps hresolves hchecks).symm, hverified⟩

/-! ## The verification -/

/-- What the verification of a snapshot finds. -/
structure Verified (env : ApplyEnv) (snapshot : SnapshotMetadata) (repo : Repository) : Prop where
  head : repo.headOid = some snapshot.headOid
  indexTree : env.objects.treeOid repo.indexTree = snapshot.indexTreeOid
  added : snapshot.includedUntracked ≠ [] →
    env.add.refuses snapshot.includedUntracked (addUpdate repo.index repo.files) repo.files
      (repo.ignored repo.files) = none
  workTree : env.objects.treeOid (workTreeOf env.add repo snapshot.includedUntracked) =
    snapshot.workTreeOid
  stateHash : calculateStateHash env.digest snapshot = snapshot.stateHash
  included : ∀ path ∈ snapshot.includedUntracked, repo.pathExists repo.files path = true
  excluded : ∀ item ∈ snapshot.excluded,
    (∀ sidecar ∈ snapshot.sidecars, sidecar.logicalPath ≠ item.path) →
      repo.pathExists repo.files item.path = false

theorem verifyIncludedUntrackedPaths_eq_ok {repo : Repository} {paths : List String} {u : Unit} :
    verifyIncludedUntrackedPaths repo paths = .ok u ↔
      ∀ path ∈ paths, repo.pathExists repo.files path = true := by
  induction paths with
  | nil => simp [verifyIncludedUntrackedPaths]
  | cons path paths ih =>
    rw [verifyIncludedUntrackedPaths, List.forall_mem_cons]
    cases repo.pathExists repo.files path with
    | true => simpa using ih
    | false => simp

theorem verifyExcludedPathsAbsent_eq_ok {repo : Repository} {sidecars : List SnapshotSidecar}
    {items : List ClassifiedPath} {u : Unit} :
    verifyExcludedPathsAbsent repo sidecars items = .ok u ↔
      ∀ item ∈ items, (∀ sidecar ∈ sidecars, sidecar.logicalPath ≠ item.path) →
        repo.pathExists repo.files item.path = false := by
  induction items with
  | nil => simp [verifyExcludedPathsAbsent]
  | cons item items ih =>
    rw [verifyExcludedPathsAbsent, List.forall_mem_cons]
    by_cases hsidecar : ∀ sidecar ∈ sidecars, sidecar.logicalPath ≠ item.path
    · have hany : (sidecars.any fun sidecar => sidecar.logicalPath = item.path) = false := by
        simpa using hsidecar
      rw [if_neg (by simp [hany])]
      cases repo.pathExists repo.files item.path with
      | true =>
        rw [if_pos rfl]
        constructor
        · intro h
          cases h
        · intro h
          exact absurd (h.1 hsidecar) (by decide)
      | false => simpa [hsidecar] using ih
    · have hany : (sidecars.any fun sidecar => sidecar.logicalPath = item.path) = true := by
        simpa using hsidecar
      rw [if_pos hany, ih]
      simp [hsidecar]

theorem verifyEqual_eq_ok {what expected got : String} {u : Unit} :
    verifyEqual what expected got = .ok u ↔ got = expected := by
  unfold verifyEqual
  split_ifs with h
  · simp [h]
  · simp [h]

theorem revParseHead_eq_ok {repo : Repository} {oid : String} :
    revParseHead repo = .ok oid ↔ repo.headOid = some oid := by
  unfold revParseHead
  cases repo.headOid with
  | none => simp
  | some head => simp

/-- The verification passes exactly on what it asks for. -/
theorem verifySnapshot_isOk {repo : Repository} :
    (∃ details, verifySnapshot env snapshot repo = .ok details) ↔ Verified env snapshot repo := by
  unfold verifySnapshot
  simp only [bind_eq_ok_iff, revParseHead_eq_ok, verifyEqual_eq_ok, writeWorkTree_eq_ok,
    verifyIncludedUntrackedPaths_eq_ok, verifyExcludedPathsAbsent_eq_ok]
  constructor
  · rintro ⟨_, _, hhead, _, rfl, _, hindex, _, ⟨hadded, rfl⟩, _, hwork, _, hhash, _, hincluded, _,
      hexcluded, -⟩
    exact ⟨hhead, hindex, hadded, hwork, hhash, hincluded, hexcluded⟩
  · intro h
    exact ⟨_, _, h.head, (), rfl, (), h.indexTree, _, ⟨h.added, rfl⟩, (), h.workTree, (),
      h.stateHash, (), h.included, (), h.excluded, rfl⟩

end DevRelay.Snapshot
