import DevRelay.Core.SnapshotSchema
import DevRelay.Lib.Checks
import DevRelay.Lib.Machine
import DevRelay.Lib.PartialMap

/-!
# The anchor's snapshot repository

`anchor_snapshot.rs` and the policy of `data_plane.rs`.  A repository is its
references and the objects it has; the object a reference points to stands for
everything reachable from it, which a fetch brings along.
-/

namespace DevRelay.Upload

open DevRelay.Lib DevRelay.Core

def devrelayRefNamespace : String := "refs/devrelay/"
def devrelaySnapshotRefNamespace : String := "refs/devrelay/snapshots/"

/-! ## Policy -/

structure GitDataPlanePolicy where
  allowedRefNamespace : String
  snapshotRefNamespace : String
  maxObjectBytes : UInt64
  repositoryQuotaBytes : UInt64
  deriving DecidableEq, Repr

/-- `GitDataPlanePolicy::default`. -/
def GitDataPlanePolicy.default : GitDataPlanePolicy where
  allowedRefNamespace := devrelayRefNamespace
  snapshotRefNamespace := devrelaySnapshotRefNamespace
  maxObjectBytes := 128 * 1024 * 1024
  repositoryQuotaBytes := 10 * 1024 * 1024 * 1024

structure GitDataPlaneRefSpec where
  source : String
  destination : String
  deriving DecidableEq, Repr

structure GitObjectInspection where
  objectId : String
  objectType : String
  sizeBytes : UInt64
  deriving DecidableEq, Repr

structure GitRepositorySize where
  looseObjectsBytes : UInt64
  packedObjectsBytes : UInt64
  totalBytes : UInt64
  deriving DecidableEq, Repr

/-- The bytes git does not permit in the name of a reference. -/
def isForbiddenRefChar (c : Char) : Bool :=
  c.toNat ≤ 0x20 || c.toNat = 0x7f || ['~', '^', ':', '?', '*', '[', '\\'].contains c

def validateRefname (refname label : String) : Except DevRelayError Unit := do
  let chars := refname.toList
  require (!refname.isEmpty) (.config (label ++ " ref must not be empty"))
  require (!(chars.head? = some '/') && !(chars.getLast? = some '/'))
    (.config (label ++ " ref " ++ refname ++ " must not start or end with /"))
  require (!(decide (['.', '.'] <:+: chars) || decide (".lock".toList <:+ chars) ||
      decide (['/', '/'] <:+: chars) || chars.any isForbiddenRefChar ||
      (chars.splitOn '/').any fun part => part.head? = some '.'))
    (.config (label ++ " ref " ++ refname ++ " is not a permitted Git ref name"))

namespace GitDataPlanePolicy

variable (self : GitDataPlanePolicy)

def validateAllowedRef (refname label : String) : Except DevRelayError Unit := do
  validateRefname refname label
  require (self.allowedRefNamespace.toList.isPrefixOf refname.toList)
    (.config (label ++ " " ++ refname ++ " must stay under " ++ self.allowedRefNamespace))

def validateFetchRefspec (refspec : GitDataPlaneRefSpec) : Except DevRelayError Unit := do
  self.validateAllowedRef refspec.source "fetch source"
  self.validateAllowedRef refspec.destination "fetch destination"

def validateSnapshotRef (refname label : String) : Except DevRelayError Unit := do
  self.validateAllowedRef refname label
  match self.snapshotRefNamespace.toList.isPrefixOf? refname.toList with
  | none =>
    throw (.config (label ++ " " ++ refname ++ " must stay under " ++
      self.snapshotRefNamespace))
  | some suffix =>
    require (match suffix.splitOn '/' with
      | [snapshotId, leaf] =>
        !snapshotId.isEmpty && (leaf = "index".toList || leaf = "work".toList)
      | _ => false)
      (.config (label ++ " " ++ refname ++ " must target a snapshot index or work ref"))

def validateObjectSize (object : GitObjectInspection) : Except DevRelayError Unit :=
  require (object.sizeBytes ≤ self.maxObjectBytes)
    (.config ("git object " ++ object.objectId ++ " is " ++ toString object.sizeBytes ++
      " bytes, above limit " ++ toString self.maxObjectBytes))

def validateRepositoryQuota (size : GitRepositorySize) : Except DevRelayError Unit :=
  require (size.totalBytes ≤ self.repositoryQuotaBytes)
    (.config ("git object store is " ++ toString size.totalBytes ++ " bytes, above quota " ++
      toString self.repositoryQuotaBytes))

end GitDataPlanePolicy

/-! ## Repositories -/

structure GitObject where
  objectType : String
  sizeBytes : UInt64
  deriving DecidableEq, Repr

structure GitRepo where
  refs : String → Option String
  objects : String → Option GitObject

/-- What `git count-objects -v` reports. -/
structure CountObjects where
  count : UInt64
  size : UInt64
  sizePack : UInt64
  deriving DecidableEq, Repr

def inspectGitRepositorySize (report : CountObjects) : GitRepositorySize :=
  let loose := saturatingMul report.size 1024
  let looseObjectsBytes := if loose < report.count then report.count else loose
  let packedObjectsBytes := saturatingMul report.sizePack 1024
  { looseObjectsBytes, packedObjectsBytes
    totalBytes := saturatingAdd looseObjectsBytes packedObjectsBytes }

def validateObjectId (objectId : String) : Except DevRelayError Unit :=
  let digits := objectId.toList
  require ((digits.length = 40 || digits.length = 64) && digits.all isAsciiHexdigit)
    (.config ("git object id " ++ objectId ++ " must be a SHA-1 or SHA-256 hex object id"))

namespace GitRepo

variable (self : GitRepo)

def empty : GitRepo := ⟨fun _ => none, fun _ => none⟩

/-- `git rev-parse --verify` -/
def revParse (refname : String) : Except DevRelayError String :=
  match self.refs refname with
  | none => .error (.gitCommand ("rev-parse --verify " ++ refname)
      "fatal: Needed a single revision")
  | some oid => .ok oid

/-- `git cat-file`, for the existence, the type and the size of an object. -/
def catFile (flag objectId : String) : Except DevRelayError GitObject :=
  match self.objects objectId with
  | none => .error (.gitCommand ("cat-file " ++ flag ++ " " ++ objectId)
      ("fatal: Not a valid object name " ++ objectId))
  | some object => .ok object

def inspectGitObject (objectId : String) (policy : GitDataPlanePolicy) :
    Except DevRelayError GitObjectInspection := do
  validateObjectId objectId
  let typed ← self.catFile "-t" objectId
  let sized ← self.catFile "-s" objectId
  let inspection := {
    objectId, objectType := typed.objectType, sizeBytes := sized.sizeBytes }
  policy.validateObjectSize inspection
  return inspection

def ensureGitObjectAvailable (objectId : String) (policy : GitDataPlanePolicy) :
    Except DevRelayError GitObjectInspection := do
  validateObjectId objectId
  let _ ← self.catFile "-e" objectId
  self.inspectGitObject objectId policy

/-- What a fetch can take from a remote: the object a reference points to. -/
def advertise (refname : String) : Except DevRelayError String :=
  match self.refs refname with
  | none => .error (.gitCommand "fetch"
      ("fatal: couldn't find remote ref " ++ refname))
  | some oid =>
    if (self.objects oid).isSome then .ok oid
    else .error (.gitCommand "fetch" ("fatal: bad object " ++ oid))

/-- The objects of a fetch; those that are there stay. -/
def receive (source : GitRepo) (oids : List String) : GitRepo :=
  { self with objects := fun oid =>
      self.objects oid <|> if oid ∈ oids then source.objects oid else none }

def setRef (refname oid : String) : GitRepo :=
  { self with refs := assign self.refs refname oid }

/-- `git update-ref -d` -/
def deleteRef (refname : String) : GitRepo :=
  { self with refs := fun name => if name = refname then none else self.refs name }

/-- A reference that resolves to an object the repository has. -/
def Resolves (refname : String) : Prop :=
  ∃ oid, self.refs refname = some oid ∧ (self.objects oid).isSome

end GitRepo

/-! ## The anchor's repository -/

structure AnchorSnapshotRepo where
  projectId : String
  policy : GitDataPlanePolicy
  deriving DecidableEq, Repr

def expectedSnapshotRefs (snapshotId : String) : List String :=
  [devrelaySnapshotRefNamespace ++ snapshotId ++ "/index",
    devrelaySnapshotRefNamespace ++ snapshotId ++ "/work"]

namespace AnchorSnapshotRepo

variable (self : AnchorSnapshotRepo)

/-- The check of the project, made by the upload and again by the import. -/
def ensureProject (metadata : SnapshotMetadata) : Except DevRelayError Unit :=
  require (metadata.projectId = self.projectId)
    (.config ("snapshot project_id " ++ metadata.projectId ++
      " does not match anchor project_id " ++ self.projectId))

def validateSnapshotMetadata (metadata : SnapshotMetadata) : Except DevRelayError Unit := do
  metadata.validate
  self.ensureProject metadata
  self.policy.validateFetchRefspec ⟨metadata.indexRef, metadata.indexRef⟩
  self.policy.validateFetchRefspec ⟨metadata.workRef, metadata.workRef⟩
  self.policy.validateSnapshotRef metadata.indexRef "snapshot index ref"
  self.policy.validateSnapshotRef metadata.workRef "snapshot work ref"

def ensureSnapshotObjects (metadata : SnapshotMetadata) (repo : GitRepo) :
    Except DevRelayError Unit := do
  let indexOid ← repo.revParse metadata.indexRef
  let workOid ← repo.revParse metadata.workRef
  let _ ← repo.ensureGitObjectAvailable indexOid self.policy
  let _ ← repo.ensureGitObjectAvailable workOid self.policy

def verifySnapshotAvailable (metadata : SnapshotMetadata) (repo : GitRepo) :
    Except DevRelayError Unit := do
  self.validateSnapshotMetadata metadata
  self.ensureSnapshotObjects metadata repo

def validateQuota (report : CountObjects) : Except DevRelayError Unit :=
  self.policy.validateRepositoryQuota (inspectGitRepositorySize report)

end AnchorSnapshotRepo

/-! ## References that resolve -/

section Resolving

variable {self : GitRepo} {refname : String}

theorem expectedSnapshotRefs_eq (metadata : SnapshotMetadata) :
    expectedSnapshotRefs metadata.snapshotId = [metadata.indexRef, metadata.workRef] := rfl

theorem revParse_eq_ok {oid : String} :
    self.revParse refname = .ok oid ↔ self.refs refname = some oid := by
  unfold GitRepo.revParse
  split <;> simp_all

theorem isSome_of_ensureGitObjectAvailable {objectId : String}
    {policy : GitDataPlanePolicy} {inspection : GitObjectInspection}
    (h : self.ensureGitObjectAvailable objectId policy = .ok inspection) :
    (self.objects objectId).isSome := by
  obtain ⟨_, _, h⟩ := bind_eq_ok_iff.mp h
  obtain ⟨object, hobject, _⟩ := bind_eq_ok_iff.mp h
  unfold GitRepo.catFile at hobject
  split at hobject
  · cases hobject
  · rename_i hsome
    rw [hsome]
    rfl

/-- A snapshot that is verified has both of its references. -/
theorem resolves_of_verifySnapshotAvailable {anchor : AnchorSnapshotRepo}
    {metadata : SnapshotMetadata} (h : anchor.verifySnapshotAvailable metadata self = .ok ()) :
    ∀ name ∈ expectedSnapshotRefs metadata.snapshotId, self.Resolves name := by
  obtain ⟨_, _, h⟩ := bind_eq_ok_iff.mp h
  obtain ⟨indexOid, hindex, h⟩ := bind_eq_ok_iff.mp h
  obtain ⟨workOid, hwork, h⟩ := bind_eq_ok_iff.mp h
  obtain ⟨_, hindexObject, h⟩ := bind_eq_ok_iff.mp h
  obtain ⟨_, hworkObject, _⟩ := bind_eq_ok_iff.mp h
  rw [expectedSnapshotRefs_eq]
  simp only [List.forall_mem_cons, List.not_mem_nil, false_implies, implies_true, and_true]
  exact ⟨⟨indexOid, revParse_eq_ok.mp hindex, isSome_of_ensureGitObjectAvailable hindexObject⟩,
    ⟨workOid, revParse_eq_ok.mp hwork, isSome_of_ensureGitObjectAvailable hworkObject⟩⟩

theorem isSome_of_advertise {oid : String} (h : self.advertise refname = .ok oid) :
    (self.objects oid).isSome := by
  unfold GitRepo.advertise at h
  split at h
  · cases h
  · split at h
    · cases h
      assumption
    · cases h

theorem isSome_receive {source : GitRepo} {oids : List String} {oid : String}
    (h : (self.objects oid).isSome ∨ (oid ∈ oids ∧ (source.objects oid).isSome)) :
    ((self.receive source oids).objects oid).isSome := by
  unfold GitRepo.receive
  rcases h with hhere | ⟨hmem, hsent⟩
  · simp [Option.isSome_or, hhere]
  · simp [Option.isSome_or, hmem, hsent]

theorem resolves_receive {source : GitRepo} {oids : List String}
    (h : self.Resolves refname) : (self.receive source oids).Resolves refname := by
  obtain ⟨oid, href, hobject⟩ := h
  exact ⟨oid, href, isSome_receive (Or.inl hobject)⟩

/-- Pointing a reference to an object that is there leaves every reference resolving. -/
theorem resolves_setRef {name oid : String} (hobject : (self.objects oid).isSome)
    (h : self.Resolves refname) : (self.setRef name oid).Resolves refname := by
  by_cases heq : refname = name
  · subst heq
    exact ⟨oid, assign_self, hobject⟩
  · obtain ⟨old, href, hold⟩ := h
    exact ⟨old, (assign_of_ne heq).trans href, hold⟩

theorem resolves_deleteRef {name : String} (hne : refname ≠ name)
    (h : self.Resolves refname) : (self.deleteRef name).Resolves refname := by
  obtain ⟨oid, href, hobject⟩ := h
  exact ⟨oid, by simpa [GitRepo.deleteRef, hne] using href, hobject⟩

end Resolving

end DevRelay.Upload
