import DevRelay.Storage.Publish
import DevRelay.Upload.Anchor
import DevRelay.Upload.Cas

/-!
# Snapshot uploads

`snapshot_upload.rs`: the data of a snapshot is brought to the anchor before its
row is published, and a marker file names what has been brought so far.  The
marker, the references, the content-addressed store and the database are written
one after the other; a crash can fall in front of every write.
-/

namespace DevRelay.Upload

open DevRelay.Lib DevRelay.Core DevRelay.Storage

inductive SnapshotDataUploadFaultPoint where
  | afterPendingMarker
  | afterGitObjects
  | duringCasUploadDiskFull
  | afterCasObjects
  | afterDataVerification
  deriving DecidableEq, Repr

def SnapshotDataUploadFaultPoint.asStr : SnapshotDataUploadFaultPoint → String
  | afterPendingMarker => "after-pending-marker"
  | afterGitObjects => "after-git-objects"
  | duringCasUploadDiskFull => "disk-full-during-cas-upload"
  | afterCasObjects => "after-cas-objects"
  | afterDataVerification => "after-data-verification"

/-- The source side of an upload; `anchorCas` says whether the anchor's store is given. -/
structure SnapshotDataUpload where
  sourceRepo : GitRepo
  sourceCas : Option CasStore
  anchorCas : Bool
  fault : Option SnapshotDataUploadFaultPoint

structure PendingSnapshotUpload where
  snapshotId : String
  projectId : String
  indexRef : String
  workRef : String
  casManifestIds : List String
  casReachabilityRootIds : List String
  createdAtUnixSeconds : UInt64
  deriving DecidableEq, Repr

structure PendingSnapshotUploadCleanup where
  snapshotId : String
  removedRefs : List String
  removedCasReachabilityRootIds : List String
  markerRemoved : Bool
  deriving DecidableEq, Repr

/-- What an anchor keeps: its metadata store, its snapshot repository, the marker files
by the snapshot id in their name, and its content-addressed store. -/
structure AnchorState where
  db : MetadataDb
  repo : GitRepo
  markers : String → Option PendingSnapshotUpload
  cas : CasStore

/-- The anchor's repository settings, the hash function, and git's count of objects. -/
structure Anchor where
  repo : AnchorSnapshotRepo
  blake3 : Blake3
  countObjects : GitRepo → CountObjects

abbrev Uploading := Prog AnchorState DevRelayError

def onRepo (f : GitRepo → GitRepo) : Uploading Unit :=
  Prog.write fun s => { s with repo := f s.repo }

def onCas {α : Type} (f : CasStore → Except DevRelayError (α × CasStore)) : Uploading α :=
  Prog.call fun s => do
    let (a, cas) ← f s.cas
    return (a, { s with cas })

/-- A check of the stores as they are. -/
def check {α : Type} (f : AnchorState → Except DevRelayError α) : Uploading α := do
  let result ← Prog.query f
  Prog.ofExcept result

/-! ## Markers -/

def sidecarReachabilityRootId (snapshotId : String) (sidecarIndex : Nat) : String :=
  "snapshot-upload-" ++ snapshotId ++ "-" ++ toString sidecarIndex

def validatePendingSnapshotId (snapshotId : String) : Except DevRelayError Unit :=
  if isSafeFileName snapshotId then .ok ()
  else .error (.config ("snapshot upload id " ++ snapshotId ++
    " is not safe for a file path"))

def pendingUploadFor (now : UInt64) (metadata : SnapshotMetadata) : PendingSnapshotUpload where
  snapshotId := metadata.snapshotId
  projectId := metadata.projectId
  indexRef := metadata.indexRef
  workRef := metadata.workRef
  casManifestIds := metadata.sidecars.map SnapshotSidecar.casManifestId
  casReachabilityRootIds := (List.range metadata.sidecars.length).map
    (sidecarReachabilityRootId metadata.snapshotId)
  createdAtUnixSeconds := now

section Programs

variable (anchor : Anchor) (now : UInt64)

def markSnapshotUploadPending (metadata : SnapshotMetadata) : Uploading PendingSnapshotUpload := do
  Prog.ofExcept metadata.validate
  Prog.ofExcept (anchor.repo.ensureProject metadata)
  let marker := pendingUploadFor now metadata
  Prog.ofExcept (validatePendingSnapshotId metadata.snapshotId)
  Prog.write fun s => { s with markers := assign s.markers metadata.snapshotId marker }
  pure marker

def validatePendingMarker (marker : PendingSnapshotUpload) : Except DevRelayError Unit := do
  validatePendingSnapshotId marker.snapshotId
  require (marker.projectId = anchor.repo.projectId)
    (.config ("pending upload project_id " ++ marker.projectId ++
      " does not match anchor project_id " ++ anchor.repo.projectId))
  require ([marker.indexRef, marker.workRef] = expectedSnapshotRefs marker.snapshotId)
    (.config ("pending upload " ++ marker.snapshotId ++
      " contains unexpected snapshot refs"))

/-- The result says whether there was a marker. -/
def finishSnapshotUpload (snapshotId : String) : Uploading Bool := do
  Prog.ofExcept (validatePendingSnapshotId snapshotId)
  Prog.update
    (fun s => { s with
      markers := fun name => if name = snapshotId then none else s.markers name })
    fun s => (s.markers snapshotId).isSome

/-! ## Data -/

def injectFault (configured : Option SnapshotDataUploadFaultPoint)
    (fault : SnapshotDataUploadFaultPoint) : Uploading Unit :=
  Prog.ensure (configured ≠ some fault)
    (.config ("injected upload fault at " ++ fault.asStr))

def injectDiskFullFault (configured : Option SnapshotDataUploadFaultPoint)
    (fault : SnapshotDataUploadFaultPoint) : Uploading Unit :=
  Prog.ensure (configured ≠ some fault)
    (.io ("injected upload fault at " ++ fault.asStr))

/-- A fetch writes the objects, and then one reference after the other. -/
def importSnapshotFromRepo (source : GitRepo) (metadata : SnapshotMetadata) : Uploading Unit := do
  Prog.ofExcept (anchor.repo.validateSnapshotMetadata metadata)
  let indexOid ← Prog.ofExcept (source.advertise metadata.indexRef)
  let workOid ← Prog.ofExcept (source.advertise metadata.workRef)
  onRepo fun repo => repo.receive source [indexOid, workOid]
  onRepo fun repo => repo.setRef metadata.indexRef indexOid
  onRepo fun repo => repo.setRef metadata.workRef workOid
  check fun s => anchor.repo.ensureSnapshotObjects metadata s.repo
  check fun s => anchor.repo.validateQuota (anchor.countObjects s.repo)

def casMissing (side : String) : DevRelayError :=
  .config ("snapshot has sidecars but " ++ side ++ " CAS was not provided")

/-- The manifest of a sidecar agrees with what the metadata says about it. -/
def matchesSidecar (sidecar : SnapshotSidecar) (manifest : CasManifest) : Bool :=
  manifest.manifestId = sidecar.rootHash && manifest.totalBytes = sidecar.sizeBytes

/-- The loop over the chunks of a manifest. -/
def copyChunks (sourceCas : CasStore) (fault : Option SnapshotDataUploadFaultPoint)
    (sidecar : SnapshotSidecar) : List CasManifestChunk → Uploading (List CasChunkHash)
  | [] => pure []
  | chunk :: chunks => do
    Prog.ensure (chunk.sizeBytes ≤ sidecar.chunkSizeBytes)
      (.verification ("sidecar " ++ sidecar.logicalPath ++ " chunk " ++
        chunk.hash.value ++ " exceeds declared chunk size"))
    let bytes ← Prog.ofExcept (sourceCas.downloadChunk anchor.blake3 chunk.hash)
    Prog.ensure (UInt64.ofNat bytes.size = chunk.sizeBytes)
      (.verification ("sidecar " ++ sidecar.logicalPath ++ " chunk " ++
        chunk.hash.value ++ " size mismatch"))
    let _ ← onCas fun cas => cas.uploadChunk anchor.blake3 bytes chunk.hash
    injectDiskFullFault fault .duringCasUploadDiskFull
    let hashes ← copyChunks sourceCas fault sidecar chunks
    pure (chunk.hash :: hashes)

/-- The body of the loop over the sidecars. -/
def copySidecar (sourceCas : CasStore) (fault : Option SnapshotDataUploadFaultPoint)
    (snapshotId : String) (sidecarIndex : Nat) (sidecar : SnapshotSidecar) :
    Uploading Unit := do
  Prog.ofExcept sidecar.validate
  let manifest ← Prog.ofExcept
    (sourceCas.fetchManifest anchor.blake3 sidecar.casManifestId)
  Prog.ensure (matchesSidecar sidecar manifest)
    (.verification ("sidecar " ++ sidecar.logicalPath ++
      " CAS manifest does not match snapshot metadata"))
  let hashes ← copyChunks anchor sourceCas fault sidecar manifest.chunks
  let copied ← onCas fun cas => cas.createManifest anchor.blake3 now hashes
  Prog.ensure (copied.manifestId = manifest.manifestId)
    (.verification ("sidecar " ++ sidecar.logicalPath ++ " copied manifest id mismatch"))
  let _ ← onCas fun cas => cas.addReachabilityRoot anchor.blake3 now
    (sidecarReachabilityRootId snapshotId sidecarIndex) copied.manifestId
  pure ()

def copySidecars (sourceCas : CasStore) (fault : Option SnapshotDataUploadFaultPoint)
    (snapshotId : String) : Nat → List SnapshotSidecar → Uploading Unit
  | _, [] => pure ()
  | sidecarIndex, sidecar :: sidecars => do
    copySidecar anchor now sourceCas fault snapshotId sidecarIndex sidecar
    copySidecars sourceCas fault snapshotId (sidecarIndex + 1) sidecars

def copySnapshotSidecarsToAnchorCas (metadata : SnapshotMetadata)
    (upload : SnapshotDataUpload) : Uploading Unit :=
  if metadata.sidecars.isEmpty then pure () else do
    let sourceCas ← Prog.orFail upload.sourceCas (casMissing "source")
    Prog.ensure upload.anchorCas (casMissing "anchor")
    copySidecars anchor now sourceCas upload.fault metadata.snapshotId 0 metadata.sidecars

/-- The body of the loop over the sidecars. -/
def ensureSidecarInAnchorCas (cas : CasStore) (sidecar : SnapshotSidecar) :
    Except DevRelayError Unit := do
  sidecar.validate
  let manifest ← cas.fetchManifest anchor.blake3 sidecar.casManifestId
  require (matchesSidecar sidecar manifest)
    (.verification ("sidecar " ++ sidecar.logicalPath ++
      " is not available in anchor CAS"))
  let missing := cas.missingChunks anchor.blake3 (manifest.chunks.map (·.hash))
  require missing.isEmpty
    (.missingSourceObject ("anchor CAS is missing " ++ toString missing.length ++
      " chunks for sidecar " ++ sidecar.logicalPath))

def ensureSnapshotSidecarsInAnchorCas (metadata : SnapshotMetadata) (anchorCas : Bool) :
    Uploading Unit :=
  if metadata.sidecars.isEmpty then pure () else do
    Prog.ensure anchorCas (casMissing "anchor")
    check fun s => checkEach (ensureSidecarInAnchorCas anchor s.cas) metadata.sidecars

/-! ## Publish and cleanup -/

/-- `SELECT EXISTS(SELECT 1 FROM snapshots WHERE snapshot_id = ?1)` -/
def snapshotMetadataExists (db : MetadataDb) (snapshotId : String) : Bool :=
  (db.snapshots.lookup snapshotId).isSome

/-- Whatever the publish of the row returns, the marker goes once there is a row. -/
def publishSnapshotCanonicalWithData (env : Env) (request : CanonicalPublishRequest)
    (upload : SnapshotDataUpload) : Uploading CanonicalPublishResult := do
  Prog.ofExcept request.metadata.validate
  let _ ← markSnapshotUploadPending anchor env.unixNowSeconds request.metadata
  injectFault upload.fault .afterPendingMarker
  importSnapshotFromRepo anchor upload.sourceRepo request.metadata
  injectFault upload.fault .afterGitObjects
  copySnapshotSidecarsToAnchorCas anchor env.unixNowSeconds request.metadata upload
  injectFault upload.fault .afterCasObjects
  check fun s => anchor.repo.verifySnapshotAvailable request.metadata s.repo
  ensureSnapshotSidecarsInAnchorCas anchor request.metadata upload.anchorCas
  injectFault upload.fault .afterDataVerification
  let result ← Prog.update
    (fun s => { s with db := (publishSnapshotCanonical env request s.db).2 })
    fun s => (publishSnapshotCanonical env request s.db).1
  let stored ← Prog.query fun s => snapshotMetadataExists s.db request.metadata.snapshotId
  if stored then
    let _ ← finishSnapshotUpload request.metadata.snapshotId
  Prog.ofExcept result

/-- The loop over the roots; its result is the roots there were. -/
def removeReachabilityRoots : List String → Uploading (List String)
  | [] => pure []
  | rootId :: rootIds => do
    let removed ← onCas fun cas => cas.removeReachabilityRoot rootId
    let rest ← removeReachabilityRoots rootIds
    pure (if removed then rootId :: rest else rest)

/-- Without the anchor's store the roots stay. -/
def cleanupRoots (anchorCas : Bool) (marker : PendingSnapshotUpload) : Uploading (List String) :=
  if anchorCas then removeReachabilityRoots marker.casReachabilityRootIds else pure []

def cleanupPendingSnapshotUpload (anchorCas : Bool) (snapshotId : String) :
    Uploading (Option PendingSnapshotUploadCleanup) := do
  Prog.ofExcept (validatePendingSnapshotId snapshotId)
  let found ← Prog.query fun s => s.markers snapshotId
  match found with
  | none => pure none
  | some marker =>
    Prog.ofExcept (validatePendingMarker anchor marker)
    onRepo fun repo => repo.deleteRef marker.indexRef
    onRepo fun repo => repo.deleteRef marker.workRef
    let removedRoots ← cleanupRoots anchorCas marker
    Prog.write fun s => { s with
      markers := fun name => if name = snapshotId then none else s.markers name }
    pure (some {
      snapshotId := marker.snapshotId
      removedRefs := [marker.indexRef, marker.workRef]
      removedCasReachabilityRootIds := removedRoots
      markerRemoved := true })

end Programs

end DevRelay.Upload
