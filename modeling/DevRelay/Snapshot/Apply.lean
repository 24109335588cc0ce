import DevRelay.Snapshot.Create

/-!
# Applying a snapshot

`plan_apply_snapshot`, `apply_snapshot_inner` and `verify_snapshot` of
`snapshot.rs`: fetch the two references of the snapshot, check its commit out
over the branch of the same name, write the work tree, put the index back, and
verify the result by capturing it again.
-/

namespace DevRelay.Snapshot

open DevRelay.Core DevRelay.Git DevRelay.Lib

inductive SnapshotApplyFaultPoint where
  | afterTargetFetch
  | duringTargetApplyDiskFull
  | afterBaseApply
  | afterWorkApply
  | afterIndexApply
  | duringVerification
  deriving DecidableEq, Repr

def SnapshotApplyFaultPoint.asStr : SnapshotApplyFaultPoint → String
  | afterTargetFetch => "after-target-fetch"
  | duringTargetApplyDiskFull => "disk-full-during-target-apply"
  | afterBaseApply => "after-base-apply"
  | afterWorkApply => "after-work-apply"
  | afterIndexApply => "after-index-apply"
  | duringVerification => "during-verification"

structure ApplyPlan where
  snapshotId : String
  branch : Option String
  detached : Bool
  headOid : String
  indexRef : String
  workRef : String
  deriving DecidableEq, Repr

structure VerificationDetails where
  headOid : String
  indexTreeOid : String
  workTreeOid : String
  stateHash : String
  includedUntracked : List String
  excludedPaths : List String
  deriving DecidableEq, Repr

/-- What an apply finds outside the two repositories. -/
structure ApplyEnv where
  objects : GitObjects
  add : AddPaths
  digest : Blake3
  /-- `ensure_snapshot_lfs_objects_available` -/
  lfsObjects : SnapshotMetadata → Except DevRelayError Unit
  /-- `ensure_no_reparse_points_before_materialization` -/
  reparsePoints : Except DevRelayError Unit
  /-- `ensure_snapshot_paths_supported` -/
  pathsSupported : SnapshotMetadata → Except DevRelayError Unit
  /-- `ensure_snapshot_materialization_supported` -/
  materializationSupported : SnapshotMetadata → Except DevRelayError Unit
  /-- whether the target has an object once those of the snapshot are fetched -/
  holds : String → Bool
  /-- `fetch_missing_blobs_on_demand` -/
  missingBlobs : String → Except DevRelayError Unit
  /-- the fault point that is configured -/
  injected : Option SnapshotApplyFaultPoint
  /-- the Git commands that fail -/
  fault : Fault DevRelayError

/-! ## The plan -/

def ensureSourceSnapshotRef (source : Repository) (gitRef : String) : Except DevRelayError String :=
  match source.refs.find? gitRef with
  | some oid => .ok oid
  | none => .error (.missingSourceObject ("missing source ref " ++ gitRef))

/-- The commits behind the index reference and the work reference. -/
def ensureSourceSnapshotRefs (source : Repository) (snapshot : SnapshotMetadata) :
    Except DevRelayError (String × String) := do
  let index ← ensureSourceSnapshotRef source snapshot.indexRef
  let work ← ensureSourceSnapshotRef source snapshot.workRef
  return (index, work)

def planApplySnapshot (objects : GitObjects) (target source : Repository)
    (snapshot : SnapshotMetadata) : Except DevRelayError ApplyPlan := do
  let targetStatus := gitStatus objects target
  if !targetStatus.isClean then
    throw (.targetDirty targetStatus.shortSummary)
  let _ ← ensureSourceSnapshotRefs source snapshot
  return {
    snapshotId := snapshot.snapshotId
    branch := snapshot.branch
    detached := snapshot.branch.isNone
    headOid := snapshot.headOid
    indexRef := snapshot.indexRef
    workRef := snapshot.workRef }

/-! ## Verification -/

def verifyIncludedUntrackedPaths (repo : Repository) :
    List String → Except DevRelayError Unit
  | [] => .ok ()
  | path :: paths =>
    if repo.pathExists repo.files path then verifyIncludedUntrackedPaths repo paths
    else .error (.verification ("included untracked path missing after apply: " ++ path))

/-- A path that came as a sidecar is excluded from the trees and may be there. -/
def verifyExcludedPathsAbsent (repo : Repository) (sidecars : List SnapshotSidecar) :
    List ClassifiedPath → Except DevRelayError Unit
  | [] => .ok ()
  | item :: items =>
    if sidecars.any fun sidecar => sidecar.logicalPath = item.path then
      verifyExcludedPathsAbsent repo sidecars items
    else if repo.pathExists repo.files item.path then
      .error (.verification ("excluded path materialized after apply: " ++ item.path))
    else
      verifyExcludedPathsAbsent repo sidecars items

def verifyEqual (what expected got : String) : Except DevRelayError Unit :=
  if got = expected then .ok ()
  else .error (.verification (what ++ " mismatch: expected " ++ expected ++ ", got " ++ got))

/-- `git rev-parse HEAD` -/
def revParseHead (repo : Repository) : Except DevRelayError String :=
  match repo.headOid with
  | some oid => .ok oid
  | none => .error (.gitCommand "rev-parse HEAD" "fatal: ambiguous argument 'HEAD'")

def verifySnapshot (env : ApplyEnv) (snapshot : SnapshotMetadata) (repo : Repository) :
    Except DevRelayError VerificationDetails := do
  let head ← revParseHead repo
  verifyEqual "HEAD" snapshot.headOid head
  verifyEqual "index tree" snapshot.indexTreeOid (env.objects.treeOid repo.indexTree)
  let workTree ← writeWorkTree env.add repo snapshot.includedUntracked
  verifyEqual "work tree" snapshot.workTreeOid (env.objects.treeOid workTree)
  verifyEqual "state hash" snapshot.stateHash (calculateStateHash env.digest snapshot)
  verifyIncludedUntrackedPaths repo snapshot.includedUntracked
  verifyExcludedPathsAbsent repo snapshot.sidecars snapshot.excluded
  return {
    headOid := head
    indexTreeOid := env.objects.treeOid repo.indexTree
    workTreeOid := env.objects.treeOid workTree
    stateHash := calculateStateHash env.digest snapshot
    includedUntracked := snapshot.includedUntracked
    excludedPaths := snapshot.excluded.map ClassifiedPath.path }

/-! ## The apply -/

abbrev Applying := Prog Repository DevRelayError

def injectApplyFault (configured : Option SnapshotApplyFaultPoint)
    (fault : SnapshotApplyFaultPoint) : Applying Unit :=
  Prog.ensure (configured ≠ some fault) (.config ("injected apply fault at " ++ fault.asStr))

def injectApplyDiskFullFault (configured : Option SnapshotApplyFaultPoint)
    (fault : SnapshotApplyFaultPoint) : Applying Unit :=
  Prog.ensure (configured ≠ some fault) (.io ("injected apply fault at " ++ fault.asStr))

/-- The checks before anything is written, and the commits to be fetched. -/
def preflight (env : ApplyEnv) (source : Repository) (snapshot : SnapshotMetadata)
    (target : Repository) : Except DevRelayError (String × String) := do
  let _ ← planApplySnapshot env.objects target source snapshot
  env.lfsObjects snapshot
  env.reparsePoints
  env.pathsSupported snapshot
  env.materializationSupported snapshot
  ensureSourceSnapshotRefs source snapshot

def isTagRef (name : String) : Bool := "refs/tags/".toList.isPrefixOf name.toList

/-- `git fetch` follows a tag if the target has none of its name, and has its object. -/
def followsTag (env : ApplyEnv) (target : Repository) (name oid : String) : Bool :=
  isTagRef name && (target.refs.find? name).isNone &&
    (env.holds oid || (env.objects.tagged oid).any env.holds)

/-- `git fetch` of the two references, as one command, which brings tags along. -/
def fetchSnapshotRefs (env : ApplyEnv) (source : Repository) (snapshot : SnapshotMetadata)
    (commits : String × String) (target : Repository) : Repository :=
  let fetched := (target.fetchRef env.objects snapshot.indexRef commits.1).fetchRef env.objects
    snapshot.workRef commits.2
  { fetched with refs := fetched.refs.covering (source.refs.filterMap fun name oid =>
      if followsTag env target name oid then some oid else none) }

/-- Both references are accepted. -/
def fetchAccepted (objects : GitObjects) (snapshot : SnapshotMetadata)
    (commits : String × String) (target : Repository) : Bool :=
  target.acceptsRef objects snapshot.indexRef commits.1 &&
    (target.fetchRef objects snapshot.indexRef commits.1).acceptsRef objects snapshot.workRef
      commits.2

def gitFailure (args : String) : DevRelayError := .gitCommand args "fatal: bad object"

/-- `git checkout -B branch oid`, or `git checkout --detach oid` -/
def checkoutSnapshot (objects : GitObjects) (snapshot : SnapshotMetadata)
    (target : Repository) : Option Repository :=
  match snapshot.branch with
  | some branch => target.checkoutBranch objects branch snapshot.headOid
  | none => target.checkoutDetached objects snapshot.headOid

/-- What follows the checkout. -/
def applyTrees (env : ApplyEnv) (snapshot : SnapshotMetadata) : Applying VerificationDetails := do
  Prog.attempt (Repository.resetHard env.objects snapshot.headOid)
    (gitFailure ("reset --hard " ++ snapshot.headOid))
  injectApplyFault env.injected .afterBaseApply
  injectApplyDiskFullFault env.injected .duringTargetApplyDiskFull
  Prog.attempt (Repository.readTreeUpdate env.objects snapshot.workCommitOid)
    (gitFailure ("read-tree --reset -u " ++ snapshot.workCommitOid))
  injectApplyFault env.injected .afterWorkApply
  Prog.attempt (Repository.readTreeIndex env.objects snapshot.indexCommitOid)
    (gitFailure ("read-tree --reset " ++ snapshot.indexCommitOid))
  injectApplyFault env.injected .afterIndexApply
  injectApplyFault env.injected .duringVerification
  let verification ← Prog.query (verifySnapshot env snapshot)
  Prog.ofExcept verification

def applySnapshotInner (env : ApplyEnv) (source : Repository) (snapshot : SnapshotMetadata) :
    Applying VerificationDetails := do
  let checked ← Prog.query (preflight env source snapshot)
  let commits ← Prog.ofExcept checked
  let accepted ← Prog.update (fetchSnapshotRefs env source snapshot commits)
    (fetchAccepted env.objects snapshot commits)
  Prog.ensure (accepted = true)
    (.missingSourceObject "git fetch: updates of the snapshot references were rejected")
  Prog.ofExcept (env.missingBlobs snapshot.headOid)
  Prog.ofExcept (env.missingBlobs snapshot.indexTreeOid)
  Prog.ofExcept (env.missingBlobs snapshot.workTreeOid)
  injectApplyFault env.injected .afterTargetFetch
  Prog.attempt (checkoutSnapshot env.objects snapshot)
    (gitFailure ("checkout " ++ snapshot.headOid))
  applyTrees env snapshot

end DevRelay.Snapshot
