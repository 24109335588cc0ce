import DevRelay.Core.Error

/-!
# Snapshot metadata

The schema of `snapshot_schema.rs` and its validation.  A list of required
fields is checked in order, and the first empty one is named in the error.
-/

namespace DevRelay.Core

def snapshotSchemaVersion : UInt32 := 1
def snapshotIdPrefix : String := "s1_"
def snapshotIdHexLen : Nat := 24

def isAsciiHexdigit (c : Char) : Bool :=
  ('0' ≤ c && c ≤ '9') || ('a' ≤ c && c ≤ 'f') || ('A' ≤ c && c ≤ 'F')

def isValidSnapshotId (snapshotId : String) : Bool :=
  match snapshotIdPrefix.toList.isPrefixOf? snapshotId.toList with
  | none => false
  | some hex => hex.length = snapshotIdHexLen && hex.all isAsciiHexdigit

/-- The loop over `(field, value)` pairs shared by the three validations. -/
def requireNonEmpty : List (String × String) → Except DevRelayError Unit
  | [] => .ok ()
  | (field, value) :: rest =>
    if value.isEmpty then .error (.snapshotMetadata (field ++ " must not be empty"))
    else requireNonEmpty rest

theorem requireNonEmpty_eq_ok {fields : List (String × String)} :
    requireNonEmpty fields = .ok () ↔ ∀ pair ∈ fields, pair.2 ≠ "" := by
  induction fields with
  | nil => simp [requireNonEmpty]
  | cons pair rest ih =>
    rw [requireNonEmpty, List.forall_mem_cons]
    by_cases hempty : pair.2 = ""
    · simp [hempty]
    · rw [if_neg (by simpa using hempty), ih]
      exact (and_iff_right hempty).symm

/-- Not absolute, no backslash, no `..` component. -/
def isRepositoryRelative (path : String) : Bool :=
  !(['/'].isPrefixOf path.toList) && !path.toList.contains '\\' &&
    !((path.toList.splitOn '/').contains ['.', '.'])

structure SnapshotSidecar where
  logicalPath : String
  fileMode : String
  classification : String
  sizeBytes : UInt64
  chunkSizeBytes : UInt64
  rootHash : String
  casManifestId : String
  deriving DecidableEq, Repr

def SnapshotSidecar.validate (self : SnapshotSidecar) : Except DevRelayError Unit := do
  requireNonEmpty [
    ("sidecar.logical_path", self.logicalPath),
    ("sidecar.file_mode", self.fileMode),
    ("sidecar.classification", self.classification),
    ("sidecar.root_hash", self.rootHash),
    ("sidecar.cas_manifest_id", self.casManifestId)]
  if !isRepositoryRelative self.logicalPath then
    throw (.snapshotMetadata
      ("sidecar logical_path " ++ self.logicalPath ++ " must be repository-relative"))
  if self.sizeBytes = 0 then
    throw (.snapshotMetadata
      ("sidecar " ++ self.logicalPath ++ " size_bytes must be positive"))
  if self.chunkSizeBytes = 0 then
    throw (.snapshotMetadata
      ("sidecar " ++ self.logicalPath ++ " chunk_size_bytes must be positive"))
  if self.rootHash ≠ self.casManifestId then
    throw (.snapshotMetadata
      ("sidecar " ++ self.logicalPath ++ " root_hash must match cas_manifest_id"))

structure SnapshotChildSnapshot where
  relationship : String
  path : String
  projectId : String
  sessionId : String
  snapshotId : String
  stateHash : String
  deriving DecidableEq, Repr

def SnapshotChildSnapshot.validate (self : SnapshotChildSnapshot) : Except DevRelayError Unit := do
  requireNonEmpty [
    ("child_snapshots.relationship", self.relationship),
    ("child_snapshots.path", self.path),
    ("child_snapshots.project_id", self.projectId),
    ("child_snapshots.session_id", self.sessionId),
    ("child_snapshots.snapshot_id", self.snapshotId),
    ("child_snapshots.state_hash", self.stateHash)]
  if !isRepositoryRelative self.path then
    throw (.snapshotMetadata
      ("child snapshot path " ++ self.path ++ " must be repository-relative"))
  if !isValidSnapshotId self.snapshotId then
    throw (.snapshotMetadata ("child snapshot " ++ self.path ++
      " has malformed snapshot_id " ++ self.snapshotId))

inductive PathDecision where
  | include
  | exclude
  deriving DecidableEq, Repr

structure ClassifiedPath where
  path : String
  decision : PathDecision
  reason : String
  deriving DecidableEq, Repr

structure SnapshotMetadata where
  schemaVersion : UInt32
  snapshotId : String
  projectId : String
  projectName : String
  sessionId : Option String
  parentSnapshotId : Option String
  childSnapshots : List SnapshotChildSnapshot
  branch : Option String
  headOid : String
  indexTreeOid : String
  indexCommitOid : String
  workTreeOid : String
  workCommitOid : String
  includedUntracked : List String
  excluded : List ClassifiedPath
  sidecars : List SnapshotSidecar
  stateHash : String
  createdAtUnixSeconds : UInt64
  deriving DecidableEq, Repr

namespace SnapshotMetadata

def indexRef (self : SnapshotMetadata) : String :=
  "refs/devrelay/snapshots/" ++ self.snapshotId ++ "/index"

def workRef (self : SnapshotMetadata) : String :=
  "refs/devrelay/snapshots/" ++ self.snapshotId ++ "/work"

theorem indexRef_injective {m m' : SnapshotMetadata} (h : m.indexRef = m'.indexRef) :
    m.snapshotId = m'.snapshotId := by
  unfold indexRef at h
  rwa [String.append_left_inj, String.append_right_inj] at h

theorem workRef_injective {m m' : SnapshotMetadata} (h : m.workRef = m'.workRef) :
    m.snapshotId = m'.snapshotId := by
  unfold workRef at h
  rwa [String.append_left_inj, String.append_right_inj] at h

/-- One ends in `x`, the other in `k`. -/
theorem indexRef_ne_workRef (m m' : SnapshotMetadata) : m.indexRef ≠ m'.workRef := by
  intro h
  have hindex : m.indexRef.toList.getLast? = some 'x' := by
    unfold indexRef
    rw [String.toList_append, List.getLast?_append]
    rfl
  have hwork : m'.workRef.toList.getLast? = some 'k' := by
    unfold workRef
    rw [String.toList_append, List.getLast?_append]
    rfl
  rw [h, hwork] at hindex
  exact absurd hindex (by decide)

def validate (self : SnapshotMetadata) : Except DevRelayError Unit := do
  if self.schemaVersion ≠ snapshotSchemaVersion then
    throw (.snapshotMetadata ("unsupported snapshot schema " ++
      toString self.schemaVersion ++ ", expected " ++ toString snapshotSchemaVersion))
  if !isValidSnapshotId self.snapshotId then
    throw (.snapshotMetadata ("malformed snapshot_id " ++ self.snapshotId))
  requireNonEmpty [
    ("project_id", self.projectId),
    ("project_name", self.projectName),
    ("head_oid", self.headOid),
    ("index_tree_oid", self.indexTreeOid),
    ("index_commit_oid", self.indexCommitOid),
    ("work_tree_oid", self.workTreeOid),
    ("work_commit_oid", self.workCommitOid),
    ("state_hash", self.stateHash)]
  self.sidecars.forM SnapshotSidecar.validate
  self.childSnapshots.forM SnapshotChildSnapshot.validate

/-- Validation does not read the session or the parent, so both can be filled
in after it. -/
theorem validate_withSession (self : SnapshotMetadata) (session parent : Option String) :
    ({ self with sessionId := session, parentSnapshotId := parent } :
      SnapshotMetadata).validate = self.validate := rfl

end SnapshotMetadata

end DevRelay.Core
