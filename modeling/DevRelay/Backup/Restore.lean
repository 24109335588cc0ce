import DevRelay.Backup.Generation
import DevRelay.Lib.Machine
import DevRelay.Manifest.Schema

/-!
# Restore and promotion

`restore_backup_anchor_generation` and `promote_backup_anchor_generation` of
`backup_anchor.rs`, statement by statement.  The metadata file, which makes a
home an anchor, is the first one that is copied.
-/

namespace DevRelay.Backup

open DevRelay.Core DevRelay.Lib

/-- The `anchor` directory of a home, and the audit events recorded in its database since the
file was made. -/
structure AnchorHome where
  tree : DirStore
  recorded : List AuditEventInput

def metadataLocation : Location := ["metadata.sqlite"]
def snapshotsLocation : Location := ["snapshots"]
def casLocation : Location := ["cas"]

abbrev Restoring := Prog AnchorHome DevRelayError

def inTree {α : Type} (p : Prog DirStore DevRelayError α) : Restoring α :=
  p.within AnchorHome.tree fun tree home => { home with tree }

/-- What the system says of a node that cannot be written. -/
def copyError (location : Location) : DevRelayError :=
  .io ("cannot write " ++ "/".intercalate location)

/-! ## Copying -/

/-- The loop over the entries of a directory, with the files copied and their bytes. -/
def copyEntries (target : Location) : Entries → Prog DirStore DevRelayError (UInt64 × UInt64)
  | .nil => pure (0, 0)
  | .file name contents rest => do
    copyFile (copyError (target ++ [name])) (target ++ [name]) contents
    let length ← Prog.query (DirStore.fileLength (target ++ [name]))
    let (files, bytes) ← copyEntries target rest
    pure (files + 1, bytes + UInt64.ofNat length)
  | .dir name children rest => do
    Prog.attempt (DirStore.makeDirectory? (target ++ [name])) (copyError (target ++ [name]))
    let (childFiles, childBytes) ← copyEntries (target ++ [name]) children
    let (files, bytes) ← copyEntries target rest
    pure (files + childFiles, bytes + childBytes)

def copyDirectoryRecursive (source : DirTree) (target : Location) :
    Prog DirStore DevRelayError (UInt64 × UInt64) := do
  Prog.attempt (DirStore.makeDirectory? target) (copyError target)
  copyEntries target source.entries

/-! ## Restore -/

/-- `create_anchor_dirs`: the directories that are not the anchor's own, then these. -/
def createAnchorDirs : Restoring Unit := do
  Prog.write id
  inTree (copyNodes copyError [([], .directory), (snapshotsLocation, .directory),
    (casLocation, .directory)])

/-- The metadata file is made, and with it a database in which nothing is recorded. -/
def createMetadata? (home : AnchorHome) : Option AnchorHome :=
  (DirStore.createFile? metadataLocation home.tree).map fun tree => { tree, recorded := [] }

/-- `fs::copy` of the metadata file. -/
def copyMetadata (generation : Generation) : Restoring Unit := do
  Prog.write id
  let contents ← Prog.ofExcept (readMetadata generation)
  Prog.attempt createMetadata? (copyError metadataLocation)
  inTree (writeBytes metadataLocation contents)

def restoreBackupAnchorGeneration (env : BackupEnv) (targetDb : String)
    (generation : Generation) : Restoring BackupAnchorVerification := do
  let verification ← Prog.ofExcept (env.verifyBackupAnchorGeneration generation)
  let present ← Prog.query fun home => (home.tree metadataLocation).isSome
  Prog.ensure (present = false)
    (.config ("refusing to restore over existing anchor metadata at " ++ targetDb))
  createAnchorDirs
  copyMetadata generation
  let _ ← inTree (copyDirectoryRecursive generation.repos snapshotsLocation)
  let _ ← inTree (copyDirectoryRecursive generation.cas casLocation)
  pure verification

/-! ## Promotion -/

structure BackupPromotionRequest where
  /-- `root_public_key_hex` of the identity -/
  localRoot : Except DevRelayError String
  promotedDeviceId : String
  operatorConfirmation : String
  allowStaleRevocations : Bool
  maxAgeSeconds : UInt64
  nowUnixSeconds : UInt64
  /-- `last_insert_rowid()` behind the insertion of the event -/
  auditId : Int64

structure BackupAnchorPromotion where
  generationId : String
  sourceAnchorDeviceId : String
  promotedDeviceId : String
  generationAgeSeconds : UInt64
  revocationCount : UInt64
  auditId : Int64
  deriving DecidableEq

def generationAge (request : BackupPromotionRequest) (manifest : BackupAnchorManifest) : UInt64 :=
  saturatingSub request.nowUnixSeconds manifest.createdAtUnixSeconds

def expectedConfirmation (request : BackupPromotionRequest) (manifest : BackupAnchorManifest) :
    String :=
  manifest.sourceAnchorDeviceId ++ "->" ++ request.promotedDeviceId

/-- The checks in front of the restore. -/
def admitPromotion (request : BackupPromotionRequest) (manifest : BackupAnchorManifest) :
    Except DevRelayError Unit := do
  if request.operatorConfirmation ≠ expectedConfirmation request manifest then
    throw (.config ("promotion requires operator confirmation " ++
      debugString (expectedConfirmation request manifest) ++ ", got " ++
      debugString request.operatorConfirmation))
  let localRoot ← request.localRoot
  if manifest.rootPublicKeyHex ≠ localRoot then
    throw (.config "backup generation was signed by a different fabric root")
  if request.maxAgeSeconds < generationAge request manifest ∧
      request.allowStaleRevocations = false then
    throw (.config ("backup generation is " ++ toString (generationAge request manifest) ++
      "s old; revocation state may be stale. Re-run with an explicit stale-revocation " ++
      "override after checking device revocations"))

def ofOptionU64 : Option UInt64 → Core.JsonScalar
  | none => .null
  | some n => .number n.toNat

def promotionEvent (request : BackupPromotionRequest) (manifest : BackupAnchorManifest) :
    AuditEventInput :=
  { AuditEventInput.new .backupPromoted .succeeded
      "backup anchor generation promoted to primary" with
    actorDeviceId := some request.promotedDeviceId
    detail := [
      ("generation_id", .text manifest.generationId),
      ("source_anchor_device_id", .text manifest.sourceAnchorDeviceId),
      ("promoted_device_id", .text request.promotedDeviceId),
      ("generation_age_seconds", .number (generationAge request manifest).toNat),
      ("revocation_count", .number manifest.revocationCount.toNat),
      ("latest_revocation_at_unix_seconds", ofOptionU64 manifest.latestRevocationAtUnixSeconds),
      ("allow_stale_revocations", .bool request.allowStaleRevocations)] }

/-- `record_audit_event`, one insertion. -/
def recordAuditEvent (input : AuditEventInput) : Restoring Unit := do
  Prog.ofExcept (validateAuditInput input)
  Prog.write fun home => { home with recorded := home.recorded ++ [input] }

def promoteBackupAnchorGeneration (env : BackupEnv) (targetDb : String)
    (generation : Generation) (request : BackupPromotionRequest) :
    Restoring BackupAnchorPromotion := do
  let manifest ← Prog.ofExcept generation.manifest
  Prog.ofExcept (admitPromotion request manifest)
  let _ ← restoreBackupAnchorGeneration env targetDb generation
  -- `MetadataDb::open`
  Prog.write id
  recordAuditEvent (promotionEvent request manifest)
  pure {
    generationId := manifest.generationId
    sourceAnchorDeviceId := manifest.sourceAnchorDeviceId
    promotedDeviceId := request.promotedDeviceId
    generationAgeSeconds := generationAge request manifest
    revocationCount := manifest.revocationCount
    auditId := request.auditId }

end DevRelay.Backup
