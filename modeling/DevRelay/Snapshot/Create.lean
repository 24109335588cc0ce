import DevRelay.Core.Policy
import DevRelay.Git.Repository
import DevRelay.Lib.Statements
import DevRelay.Snapshot.StateHash

/-!
# Creating a snapshot

`create_snapshot` of `snapshot.rs`: the commit that is checked out, the tree of
the index, and the tree of the work tree, which is written through a copy of
the index.  The included untracked paths go to `git add` as arguments.
-/

namespace DevRelay.Snapshot

open DevRelay.Core DevRelay.Git DevRelay.Lib

structure StatusCounts where
  staged : Nat
  unstaged : Nat
  untracked : Nat
  unmerged : Nat
  deriving DecidableEq, Repr

structure GitStatus where
  headOid : String
  branch : Option String
  untrackedPaths : List String
  counts : StatusCounts
  deriving DecidableEq, Repr

namespace GitStatus

def isClean (status : GitStatus) : Bool :=
  status.counts.staged = 0 && status.counts.unstaged = 0 && status.counts.untracked = 0 &&
    status.counts.unmerged = 0

def isInitial (status : GitStatus) : Bool := status.headOid = "(initial)"

def shortSummary (status : GitStatus) : String :=
  toString status.counts.staged ++ " staged, " ++ toString status.counts.unstaged ++
    " unstaged, " ++ toString status.counts.untracked ++ " untracked, " ++
    toString status.counts.unmerged ++ " unmerged"

end GitStatus

/-! ## The status of a repository -/

/-- The value of the `# branch.head` line. -/
def branchHeadValue : Head → String
  | .branch name => name
  | .detached _ => "(detached)"

/-- How `parse_status_porcelain_v2` reads that value. -/
def parseBranchHead (value : String) : Option String :=
  if value ≠ "(detached)" then some value else none

/-- The paths at which two trees differ. -/
def changedPaths (old new : Files) : List String :=
  (old.covering new).keys.filter fun path => old.find? path ≠ new.find? path

/-- The index entries that do not show the file on the disk. -/
def unstagedPaths (repo : Repository) : List String :=
  repo.index.keys.filter fun path =>
    (repo.index.find? path).any fun entry =>
      entry.intentToAdd || repo.files.find? path ≠ some entry.file

def untrackedPaths (repo : Repository) : List String :=
  untrackedIn repo.index repo.files (repo.ignored repo.files)

/-- `GitRepo::status`.  The counts are by path; Git counts a rename, which is two
changed paths here, once. -/
def gitStatus (objects : GitObjects) (repo : Repository) : GitStatus where
  headOid := repo.headOid.getD "(initial)"
  branch := parseBranchHead (branchHeadValue repo.head)
  untrackedPaths := untrackedPaths repo
  counts := {
    staged := (changedPaths (repo.headTree objects) repo.indexTree).length
    unstaged := (unstagedPaths repo).length
    untracked := (untrackedPaths repo).length
    unmerged := repo.unmerged.length }

def ensureStatusSupportsCheckpoint (status : GitStatus) : Except DevRelayError Unit :=
  if status.isInitial then
    .error (.unsupportedRepositoryState "repository has no HEAD commit")
  else if 0 < status.counts.unmerged then
    .error (.unsupportedRepositoryState
      "unmerged index entries are not supported in M0")
  else
    .ok ()

def ensureCheckpointSupported (repo : Repository) (status : GitStatus) :
    Except DevRelayError Unit :=
  match repo.operation with
  | some name =>
    .error (.unsupportedRepositoryState (name ++ " state is not supported for " ++
      "checkpoint; finish, abort, or recover the operation before handoff"))
  | none => ensureStatusSupportsCheckpoint status

/-! ## The trees and their commits -/

/-- What the capture of a snapshot takes from outside the repository. -/
structure CaptureEnv where
  objects : GitObjects
  add : AddPaths
  digest : Blake3
  classification : ClassificationEnv
  /-- the check of the large file storage -/
  lfsObjects : Except DevRelayError Unit
  /-- author, committer, times and message of a commit with this message -/
  commitInfo : String → String
  unixSeconds : UInt64
  /-- `unix_nanos().to_le_bytes()` -/
  unixNanos : ByteArray

/-- `git commit-tree` with one parent. -/
def commitTree (env : CaptureEnv) (tree : Files) (parentOid message : String) :
    Except DevRelayError String :=
  match env.objects.commitOf parentOid with
  | none =>
    .error (.gitCommand ("commit-tree " ++ env.objects.treeOid tree ++ " -p " ++ parentOid ++
      " -m " ++ message) ("fatal: not a valid object name " ++ parentOid))
  | some _ => .ok (env.objects.commitOid ⟨tree, [parentOid], env.commitInfo message⟩)

/-- The tree of `write_work_tree`, through a copy of the index. -/
def writeWorkTree (add : AddPaths) (repo : Repository) (includedUntracked : List String) :
    Except DevRelayError Files :=
  let tempIndex := addUpdate repo.index repo.files
  if includedUntracked = [] then
    .ok (writeTree tempIndex)
  else
    match add.refuses includedUntracked tempIndex repo.files (repo.ignored repo.files) with
    | some stderr =>
      .error (.gitCommand ("add -- " ++ " ".intercalate includedUntracked) stderr)
    | none =>
      .ok (writeTree (addSelected add includedUntracked tempIndex repo.files
        (repo.ignored repo.files)))

def snapshotId (digest : Blake3) (status : GitStatus) (indexTreeOid workTreeOid : String)
    (unixNanos : ByteArray) : String :=
  let hasher := Hasher.new.update status.headOid.toUTF8
  let hasher := match status.branch with
    | some branch => hasher.update branch.toUTF8
    | none => hasher
  let hasher := hasher.update indexTreeOid.toUTF8
  let hasher := hasher.update workTreeOid.toUTF8
  let hasher := hasher.update unixNanos
  snapshotIdPrefix ++ String.ofList ((digest.hex hasher.fed).toList.take 24)

/-! ## The snapshot -/

def pathsDecided (decision : PathDecision) (classified : List ClassifiedPath) :
    List ClassifiedPath :=
  classified.filter fun item => item.decision = decision

/-- The paths that a snapshot of these classified paths includes, sorted. -/
def includedPaths (classified : List ClassifiedPath) : List String :=
  ((pathsDecided .include classified).map ClassifiedPath.path).insertionSort (· ≤ ·)

def excludedPaths (classified : List ClassifiedPath) : List ClassifiedPath :=
  (pathsDecided .exclude classified).insertionSort fun left right =>
    lexLe [left.path, left.reason] [right.path, right.reason]

/-- What is recorded of the captured state, without the state hash. -/
def snapshotMetadata (env : CaptureEnv) (manifest : Manifest) (status : GitStatus)
    (indexTree workTree : Files) (indexCommitOid workCommitOid : String)
    (includedUntracked : List String) (excluded : List ClassifiedPath) : SnapshotMetadata where
  schemaVersion := snapshotSchemaVersion
  snapshotId := snapshotId env.digest status (env.objects.treeOid indexTree)
    (env.objects.treeOid workTree) env.unixNanos
  projectId := manifest.projectId
  projectName := manifest.name
  sessionId := none
  parentSnapshotId := none
  childSnapshots := []
  branch := status.branch
  headOid := status.headOid
  indexTreeOid := env.objects.treeOid indexTree
  indexCommitOid := indexCommitOid
  workTreeOid := env.objects.treeOid workTree
  workCommitOid := workCommitOid
  includedUntracked := includedUntracked
  excluded := excluded
  sidecars := []
  stateHash := ""
  createdAtUnixSeconds := env.unixSeconds

def withStateHash (digest : Blake3) (metadata : SnapshotMetadata) : SnapshotMetadata :=
  { metadata with stateHash := calculateStateHash digest metadata }

/-- The part of `create_snapshot` up to the validated metadata. -/
def captureSnapshot (env : CaptureEnv) (manifest : Manifest) (repo : Repository) :
    Except DevRelayError SnapshotMetadata := do
  let status := gitStatus env.objects repo
  ensureCheckpointSupported repo status
  env.lfsObjects
  let classified ← classifyUntrackedPaths env.classification manifest status.untrackedPaths
  let includedUntracked := includedPaths classified
  let indexCommitOid ← commitTree env repo.indexTree status.headOid
    "DevRelay synthetic index snapshot"
  let workTree ← writeWorkTree env.add repo includedUntracked
  let workCommitOid ← commitTree env workTree indexCommitOid "DevRelay synthetic work snapshot"
  let metadata := withStateHash env.digest (snapshotMetadata env manifest status repo.indexTree
    workTree indexCommitOid workCommitOid includedUntracked (excludedPaths classified))
  metadata.validate
  return metadata

/-- `git update-ref` -/
def updateRef (name oid : String) (repo : Repository) : Repository :=
  { repo with refs := repo.refs.insert name oid }

def createSnapshot (env : CaptureEnv) (manifest : Manifest) :
    Prog Repository DevRelayError SnapshotMetadata := do
  let captured ← Prog.query (captureSnapshot env manifest)
  let metadata ← Prog.ofExcept captured
  Prog.write (updateRef metadata.indexRef metadata.indexCommitOid)
  Prog.write (updateRef metadata.workRef metadata.workCommitOid)
  pure metadata

end DevRelay.Snapshot
