import DevRelay.Snapshot.UnmergedEntries
import Mathlib.Data.List.Destutter

/-!
# Git LFS pointers

`lfs.rs`: what is taken for a pointer among the tracked files of a work tree and the
blobs of a snapshot's trees, and the checks of `create_snapshot` and `apply_snapshot`
that its object is there.  Git's commands and the reads of files are taken to succeed.
-/

namespace DevRelay.Snapshot

open DevRelay.Lib DevRelay.Core

def lfsPointerVersion : String := "https://git-lfs.github.com/spec/v1"

structure ParsedLfsPointer where
  oidSha256 : String
  size : UInt64
  deriving DecidableEq, Repr

/-! ## One text -/

/-- What the lines so far have said. -/
structure PointerLines where
  versionOk : Bool := false
  oidSha256 : Option String := none
  size : Option UInt64 := none
  deriving DecidableEq, Repr

/-- 64 hexadecimal digits; only these make 64 bytes of hexadecimal digits. -/
def isOidText (oid : List Char) : Bool := oid.length = 64 && oid.all isAsciiHexdigit

def asciiLowercase (text : List Char) : String := String.ofList (text.map Char.toLower)

section

-- Rust's `{:?}` of a text
variable (debug : String → String)

def readPointerLine (found : PointerLines) (line : List Char) : Except DevRelayError PointerLines :=
  match "version ".toList.isPrefixOf? line with
  | some version => .ok { found with versionOk := version = lfsPointerVersion.toList }
  | none =>
    match "oid sha256:".toList.isPrefixOf? line with
    | some oid =>
      if isOidText oid then .ok { found with oidSha256 := some (asciiLowercase oid) }
      else .ok found
    | none =>
      match "size ".toList.isPrefixOf? line with
      | some rawSize =>
        match parseUnsigned 64 rawSize with
        | some size => .ok { found with size := some (UInt64.ofNat size) }
        | none => .error (.config
            ("invalid Git LFS pointer size: " ++ debug (String.ofList rawSize)))
      | none => .ok found

def PointerLines.pointer? : PointerLines → Option ParsedLfsPointer
  | ⟨true, some oid, some size⟩ => some ⟨oid, size⟩
  | _ => none

def parseLfsPointer (text : List Char) : Except DevRelayError (Option ParsedLfsPointer) := do
  let found ← (lines text).foldlM (readPointerLine debug) {}
  return found.pointer?

/-- The bytes of a regular file in the work tree. -/
def parseLfsPointerFromWorktree (content : List UInt8) :
    Except DevRelayError (Option ParsedLfsPointer) :=
  if 1024 < content.length then .ok none
  else
    match fromUtf8 content with
    | none => .ok none
    | some text => parseLfsPointer debug text

/-- What `git cat-file -p` prints reaches the code without the white space at its end. -/
def parseLfsPointerFromBlob (content : List UInt8) :
    Except DevRelayError (Option ParsedLfsPointer) :=
  if 1024 < content.length then .ok none
  else parseLfsPointer debug (trimEnd (fromUtf8Lossy content))

end

/-! ## Reports -/

structure LfsPointer where
  path : String
  oidSha256 : String
  size : UInt64
  localObjectPresent : Bool
  upstreamObjectPresent : Option Bool
  deriving DecidableEq, Repr

/-- A path and the object its pointer names. -/
structure LfsNamedObject where
  path : String
  oidSha256 : String
  deriving DecidableEq, Repr

structure LfsObjectReport where
  pointers : List LfsPointer
  missingObjects : List LfsNamedObject
  localOnlyObjects : List LfsNamedObject
  deriving DecidableEq, Repr

/-- A repository as the inspection sees it. -/
structure LfsRepo where
  /-- the output of `git ls-files -z` -/
  lsFiles : List Char
  /-- the bytes of a path of the work tree that is a regular file -/
  regularFile : String → Option (List UInt8)
  /-- the output of `git ls-tree -r -z` -/
  lsTree : String → List Char
  blob : String → List UInt8
  /-- `verify_lfs_object` in the git directory -/
  localObject : String → UInt64 → Bool
  /-- `verify_lfs_object` in the upstream git directory -/
  upstreamObject : Option (String → UInt64 → Bool) := none

def pointerBefore (left right : LfsPointer) : Bool :=
  left.path < right.path || (left.path = right.path && left.oidSha256 ≤ right.oidSha256)

def LfsPointer.named (pointer : LfsPointer) : LfsNamedObject := ⟨pointer.path, pointer.oidSha256⟩

def reportForPointers (pointers : List LfsPointer) : LfsObjectReport :=
  let sorted := pointers.insertionSort fun left right => pointerBefore left right = true
  let distinct := sorted.destutter (· ≠ ·)
  { pointers := distinct
    missingObjects := (distinct.filter fun pointer => !pointer.localObjectPresent).map
      LfsPointer.named
    localOnlyObjects := (distinct.filter fun pointer =>
      pointer.localObjectPresent && pointer.upstreamObjectPresent = some false).map
        LfsPointer.named }

namespace LfsRepo

variable (debug : String → String) (repo : LfsRepo)

def lfsPointerReport (path : String) (pointer : ParsedLfsPointer)
    (upstream : Option (String → UInt64 → Bool)) : LfsPointer where
  path := path
  oidSha256 := pointer.oidSha256
  size := pointer.size
  localObjectPresent := repo.localObject pointer.oidSha256 pointer.size
  upstreamObjectPresent := upstream.map fun present => present pointer.oidSha256 pointer.size

/-- The pointers that a reader finds, in order. -/
def collectPointers {α : Type}
    (read : α → Except DevRelayError (Option (String × ParsedLfsPointer)))
    (upstream : Option (String → UInt64 → Bool)) :
    List α → Except DevRelayError (List LfsPointer)
  | [] => .ok []
  | a :: rest => do
    match ← read a with
    | none => collectPointers read upstream rest
    | some (path, pointer) =>
      let pointers ← collectPointers read upstream rest
      return repo.lfsPointerReport path pointer upstream :: pointers

def trackedPaths : List String :=
  (((trimEnd repo.lsFiles).splitOn '\x00').filter fun path => !path.isEmpty).map
    normalizeSeparators

/-- What is not there, or is not a regular file, is no pointer. -/
def readTracked (path : String) : Except DevRelayError (Option (String × ParsedLfsPointer)) :=
  match repo.regularFile path with
  | none => .ok none
  | some content => do
    let pointer ← parseLfsPointerFromWorktree debug content
    return pointer.map fun pointer => (path, pointer)

def inspectLfsObjects : Except DevRelayError LfsObjectReport := do
  let pointers ← repo.collectPointers (repo.readTracked debug) repo.upstreamObject
    repo.trackedPaths
  return reportForPointers pointers

def treeRecords (treeish : String) : List (List Char) :=
  ((trimEnd (repo.lsTree treeish)).splitOn '\x00').filter fun record => !record.isEmpty

/-- The regular blob of a record, with its path. -/
def blobOfRecord (record : List Char) : Except DevRelayError (Option (String × String)) :=
  match splitn '\t' 2 record with
  | [metadata, path] =>
    let fields := splitWhitespace metadata
    let mode := fields.headD []
    let objectType := (fields.drop 1).headD []
    let oid := (fields.drop 2).headD []
    if objectType ≠ "blob".toList || !(mode = "100644".toList || mode = "100755".toList) then
      .ok none
    else .ok (some (normalizeSeparators path, String.ofList oid))
  | _ => .error (.config ("unexpected git ls-tree record: " ++ debug (String.ofList record)))

def readRecord (record : List Char) :
    Except DevRelayError (Option (String × ParsedLfsPointer)) := do
  match ← blobOfRecord debug record with
  | none => return none
  | some (path, oid) =>
    let pointer ← parseLfsPointerFromBlob debug (repo.blob oid)
    return pointer.map fun pointer => (path, pointer)

def lfsPointersInTree (treeish : String) : Except DevRelayError (List LfsPointer) :=
  repo.collectPointers (repo.readRecord debug) none (repo.treeRecords treeish)

def inspectSnapshotLfsObjects (indexTreeOid workTreeOid : String) :
    Except DevRelayError LfsObjectReport := do
  let index ← repo.lfsPointersInTree debug indexTreeOid
  let work ← repo.lfsPointersInTree debug workTreeOid
  return reportForPointers (index ++ work)

end LfsRepo

/-! ## The checks -/

def objectTexts (objects : List LfsNamedObject) : String :=
  String.intercalate ", " (objects.map fun object => object.path ++ " (" ++ object.oidSha256 ++ ")")

def ensureLfsReportObjectsAvailable (report : LfsObjectReport) : Except DevRelayError Unit :=
  if report.missingObjects = [] then .ok ()
  else .error (.unsupportedRepositoryState
    ("missing or invalid Git LFS objects required for handoff: " ++
      objectTexts report.missingObjects))

def lfsLocalObjectSidecarClassification : String := "git-lfs-local-object"

def lfsObjectSidecarPath (oidSha256 : String) : Except DevRelayError String :=
  if isOidText oidSha256.toList then
    let oid := oidSha256.toList.map Char.toLower
    .ok (".git/lfs/objects/" ++ String.ofList (oid.take 2) ++ "/" ++
      String.ofList ((oid.drop 2).take 2) ++ "/" ++ String.ofList oid)
  else .error (.config ("invalid Git LFS object id " ++ oidSha256))

def snapshotHasLfsObjectSidecar (sidecars : List SnapshotSidecar) (oidSha256 : String) : Bool :=
  match lfsObjectSidecarPath oidSha256 with
  | .error _ => false
  | .ok logicalPath => sidecars.any fun sidecar =>
    sidecar.classification = lfsLocalObjectSidecarClassification &&
      sidecar.logicalPath = logicalPath

def ensureSnapshotLfsObjectsAvailableInner (debug : String → String) (repo : LfsRepo)
    (indexTreeOid workTreeOid : String) (sidecars : List SnapshotSidecar)
    (allowLfsSidecars : Bool) : Except DevRelayError Unit := do
  let report ← repo.inspectSnapshotLfsObjects debug indexTreeOid workTreeOid
  let missing := report.missingObjects.filter fun object =>
    !allowLfsSidecars || !snapshotHasLfsObjectSidecar sidecars object.oidSha256
  if missing = [] then .ok ()
  else .error (.missingSourceObject
    ("missing or invalid Git LFS objects required by snapshot: " ++ objectTexts missing))

/-- The LFS part of `create_snapshot_inner`. -/
def createLfsCheck (debug : String → String) (repo : LfsRepo) : Except DevRelayError Unit := do
  let report ← repo.inspectLfsObjects debug
  ensureLfsReportObjectsAvailable report

/-- The LFS part of `apply_snapshot`, which has no sidecars to fall back on. -/
def applyLfsCheck (debug : String → String) (repo : LfsRepo)
    (indexTreeOid workTreeOid : String) : Except DevRelayError Unit :=
  ensureSnapshotLfsObjectsAvailableInner debug repo indexTreeOid workTreeOid [] false

end DevRelay.Snapshot
