import DevRelay.Core.Error
import DevRelay.Core.Hashing
import DevRelay.Lib.Checks
import DevRelay.Lib.DirTree
import DevRelay.Lib.SortedMap
import Mathlib.Data.List.Lex
import Mathlib.Data.List.Sort
import Mathlib.Data.String.Basic

/-!
# Backup generations

A generation of `backup_anchor.rs`: a directory with the metadata database, the
snapshot repositories, the content addressed store, and a manifest that the root
key has signed.  `verify_backup_anchor_generation` compares the three with the
manifest, each by a summary of its own.
-/

namespace DevRelay.Backup

open DevRelay.Core DevRelay.Lib

def backupGenerationSchemaVersion : UInt32 := 1

structure BackupRepositoryManifest where
  repositoryName : String
  refTips : SortedMap String String
  deriving DecidableEq

structure BackupAnchorManifest where
  schemaVersion : UInt32
  generationId : String
  fabricId : String
  sourceAnchorDeviceId : String
  createdAtUnixSeconds : UInt64
  metadataBackupBlake3 : String
  metadataBackupBytes : UInt64
  repositories : List BackupRepositoryManifest
  casFileCount : UInt64
  casByteCount : UInt64
  casDigestBlake3 : String
  revocationCount : UInt64
  latestRevocationAtUnixSeconds : Option UInt64
  rootPublicKeyHex : String
  signatureHex : String
  deriving DecidableEq

structure BackupAnchorVerification where
  generationId : String
  metadataBackupVerified : Bool
  repositoriesVerified : Nat
  casFilesVerified : UInt64
  signatureVerified : Bool
  deriving DecidableEq, Repr

/-- A generation directory as its files are read.  A directory that is missing reads as an
empty one. -/
structure Generation where
  /-- `load_backup_manifest` -/
  manifest : Except DevRelayError BackupAnchorManifest
  /-- the contents of `metadata.sqlite` -/
  metadata : Option (List UInt8)
  repos : DirTree
  cas : DirTree

/-- What git reads in a repository: its references, and of an object the objects it names. -/
structure BareRepository where
  refs : SortedMap String String
  links : String → Option (List String)

/-- The parts of a verification that are not in the generation. -/
structure BackupEnv where
  digest : Blake3
  /-- `serde_json::to_vec` -/
  toJson : BackupAnchorManifest → ByteArray
  /-- why `VerifyingKey::from_bytes` refuses a key -/
  keyError : List UInt8 → Option String
  /-- why `verify` refuses a signature of a payload -/
  signatureError : List UInt8 → ByteArray → List UInt8 → Option String
  /-- the repository that git finds in a directory -/
  git : DirStore → Option BareRepository
  /-- the repository that git finds around the generation -/
  enclosing : Option BareRepository
  /-- `to_string_lossy` of a relative path -/
  renderPath : Location → String

/-! ## Directories -/

/-- What is at a location below the directory. -/
def nodeIn (tree : DirTree) : DirStore := fun location =>
  (tree.entries.nodes []).lookup location

/-- The part of a store below a directory of it. -/
def below (base : Location) (store : DirStore) : DirStore := fun location =>
  store (base ++ location)

def filesIn (tree : DirTree) : List (Location × List UInt8) :=
  (tree.entries.nodes []).filterMap fun node =>
    match node.2 with
    | .file contents => some (node.1, contents)
    | .directory => none

def sortedFilesRecursive (tree : DirTree) : List (Location × List UInt8) :=
  (filesIn tree).insertionSort fun a b => a.1 ≤ b.1

/-- The number of files and their bytes. -/
def directoryStats (tree : DirTree) : UInt64 × UInt64 :=
  (sortedFilesRecursive tree).foldl
    (fun stats file => (stats.1 + 1, stats.2 + UInt64.ofNat file.2.length)) (0, 0)

/-! ## References -/

def isDevrelayRef (name : String) : Bool := "refs/devrelay/".toList.isPrefixOf name.toList

/-- `git for-each-ref` lists a reference whether its object is there or not. -/
def devrelayRefs (repository : BareRepository) : SortedMap String String :=
  repository.refs.filterMap fun name oid => if isDevrelayRef name then some oid else none

/-! ## Hexadecimal fields -/

/-- `to_digit(16)` of a byte. -/
def hexDigit? (byte : UInt8) : Option UInt8 :=
  if 48 ≤ byte ∧ byte ≤ 57 then some (byte - 48)
  else if 97 ≤ byte ∧ byte ≤ 102 then some (byte - 87)
  else if 65 ≤ byte ∧ byte ≤ 70 then some (byte - 55)
  else none

def decodeHexPairs : List UInt8 → Option (List UInt8)
  | high :: low :: rest => do
    let high ← hexDigit? high
    let low ← hexDigit? low
    let bytes ← decodeHexPairs rest
    pure ((high <<< 4 ||| low) :: bytes)
  | _ => some []

def decodeFixedHex (n : Nat) (field value : String) : Except DevRelayError (List UInt8) :=
  if value.utf8ByteSize ≠ n * 2 then
    .error (.config (field ++ " must be " ++ toString (n * 2) ++ " hex characters"))
  else
    match decodeHexPairs value.toByteArray.data.toList with
    | some bytes => .ok bytes
    | none => .error (.config (field ++ " contains non-hex characters"))

/-- Read `metadata.sqlite`. -/
def readMetadata (generation : Generation) : Except DevRelayError (List UInt8) :=
  match generation.metadata with
  | some contents => .ok contents
  | none => .error (.io "No such file or directory (os error 2)")

/-! ## Verification -/

namespace BackupEnv

variable (env : BackupEnv)

/-- `hash_file`, of the bytes that are read. -/
def hashFile (contents : List UInt8) : String := env.digest.hex ⟨contents.toArray⟩

def updateFileHash (hasher : Hasher) (file : Location × List UInt8) : Hasher :=
  let hasher := hasher.update (env.renderPath file.1).toByteArray
  let hasher := hasher.update ":".toByteArray
  let hasher := hasher.update (env.hashFile file.2).toByteArray
  hasher.update "\n".toByteArray

/-- The bytes fed to the hasher of `hash_directory`. -/
def directoryStream (tree : DirTree) : ByteArray :=
  ((sortedFilesRecursive tree).foldl env.updateFileHash Hasher.new).fed

def hashDirectory (tree : DirTree) : String := env.digest.hex (env.directoryStream tree)

/-- `ref_tips` of a directory.  Where it is no repository, git looks around it. -/
def refTips (repos : DirTree) (name : String) : Except DevRelayError (SortedMap String String) :=
  match nodeIn repos [name] with
  | some .directory =>
    match env.git (below [name] (nodeIn repos)) <|> env.enclosing with
    | some repository => .ok (devrelayRefs repository)
    | none =>
      .error (.gitCommand "for-each-ref --format=%(objectname) %(refname) refs/devrelay/"
        "fatal: not a git repository (or any of the parent directories): .git")
  | _ => .error (.io "No such file or directory (os error 2)")

def signedManifestPayload (manifest : BackupAnchorManifest) : ByteArray :=
  env.toJson { manifest with rootPublicKeyHex := "", signatureHex := "" }

def verifyRootSignature (rootPublicKeyHex : String) (payload : ByteArray)
    (signatureHex : String) : Except DevRelayError Unit := do
  let keyBytes ← decodeFixedHex 32 "root_public_key_hex" rootPublicKeyHex
  let signatureBytes ← decodeFixedHex 64 "signature_hex" signatureHex
  match env.keyError keyBytes with
  | some err => throw (.config ("invalid fabric root key: " ++ err))
  | none =>
    match env.signatureError keyBytes payload signatureBytes with
    | some err => throw (.config ("backup manifest signature is invalid: " ++ err))
    | none => return ()

/-- The loop over the repositories of the manifest. -/
def verifyRepositories (repos : DirTree) :
    List BackupRepositoryManifest → Except DevRelayError Unit
  | [] => .ok ()
  | repository :: rest => do
    let actual ← env.refTips repos repository.repositoryName
    if actual.entries ≠ repository.refTips.entries then
      throw (.config ("backup repository " ++ repository.repositoryName ++
        " refs do not match the signed manifest"))
    verifyRepositories repos rest

def verifyBackupAnchorGeneration (generation : Generation) :
    Except DevRelayError BackupAnchorVerification := do
  let manifest ← generation.manifest
  if manifest.schemaVersion ≠ backupGenerationSchemaVersion then
    throw (.config ("unsupported backup generation schema " ++
      toString manifest.schemaVersion))
  env.verifyRootSignature manifest.rootPublicKeyHex (env.signedManifestPayload manifest)
    manifest.signatureHex
  let metadata ← readMetadata generation
  if env.hashFile metadata ≠ manifest.metadataBackupBlake3 then
    throw (.config "backup metadata database does not match the signed manifest")
  env.verifyRepositories generation.repos manifest.repositories
  if env.hashDirectory generation.cas ≠ manifest.casDigestBlake3 then
    throw (.config "backup CAS contents do not match the signed manifest")
  if (directoryStats generation.cas).1 ≠ manifest.casFileCount then
    throw (.config "backup CAS file count does not match the signed manifest")
  return {
    generationId := manifest.generationId
    metadataBackupVerified := true
    repositoriesVerified := manifest.repositories.length
    casFilesVerified := (directoryStats generation.cas).1
    signatureVerified := true }

/-- What a generation has passed that is verified. -/
structure Verified (generation : Generation) (manifest : BackupAnchorManifest)
    (metadata : List UInt8) : Prop where
  manifest_read : generation.manifest = .ok manifest
  schema : manifest.schemaVersion = backupGenerationSchemaVersion
  signature : env.verifyRootSignature manifest.rootPublicKeyHex
    (env.signedManifestPayload manifest) manifest.signatureHex = .ok ()
  metadata_read : readMetadata generation = .ok metadata
  metadata_hash : env.hashFile metadata = manifest.metadataBackupBlake3
  repositories : env.verifyRepositories generation.repos manifest.repositories = .ok ()
  cas_digest : env.hashDirectory generation.cas = manifest.casDigestBlake3
  cas_count : (directoryStats generation.cas).1 = manifest.casFileCount

theorem verified_of_ok {generation : Generation} {verification : BackupAnchorVerification}
    (h : env.verifyBackupAnchorGeneration generation = .ok verification) :
    ∃ manifest metadata, env.Verified generation manifest metadata := by
  unfold verifyBackupAnchorGeneration at h
  simp only [bind_eq_ok_iff, guard_eq_ok, ne_eq, not_not] at h
  obtain ⟨manifest, hmanifest, hschema, _, hsignature, metadata, hmetadata, hhash, _,
    hrepositories, hdigest, hcount, -⟩ := h
  exact ⟨manifest, metadata, hmanifest, hschema, hsignature, hmetadata, hhash, hrepositories,
    hdigest, hcount⟩

end BackupEnv

theorem readMetadata_eq_ok {generation : Generation} {contents : List UInt8} :
    readMetadata generation = .ok contents ↔ generation.metadata = some contents := by
  unfold readMetadata
  cases generation.metadata with
  | none => simp
  | some bytes => simp

end DevRelay.Backup
