import DevRelay.Storage.Handoffs

/-!
# Snapshot publishing

`publish_snapshot_canonical`, `publish_inactive_snapshot_as_fork` and
`revoke_device`.  A stale publish commits its snapshot row and returns an error:
the body ends `committed` with an error value.
-/

namespace DevRelay.Storage

open DevRelay.Lib DevRelay.Core

structure CanonicalPublishRequest where
  leaseId : String
  sessionId : String
  expectedEpoch : UInt64
  holderDeviceId : String
  expectedLatestSnapshotId : Option String
  metadata : SnapshotMetadata
  pinned : Bool
  label : Option String
  deriving DecidableEq, Repr

structure CanonicalPublishResult where
  snapshot : StoredSnapshot
  latestSnapshotId : String
  deriving DecidableEq, Repr

structure InactiveForkPublishRequest where
  leaseId : String
  sessionId : String
  holderDeviceId : String
  metadata : SnapshotMetadata
  label : Option String
  deriving DecidableEq, Repr

structure InactiveForkPublishResult where
  forkSession : StoredSession
  snapshot : StoredSnapshot
  canonicalLatestSnapshotId : Option String
  deriving DecidableEq, Repr

namespace MetadataDb

/-- `SELECT COALESCE(MAX(sequence_number), 0) + 1 FROM snapshots WHERE project_id = ?1` -/
def nextSequenceNumber (projectId : String) (db : MetadataDb) : Int :=
  let numbers := (db.snapshots.rows.filter fun r => r.projectId = projectId).map
    SnapshotRow.sequenceNumber
  numbers.max?.getD 0 + 1

/-- `UPDATE leases SET latest_snapshot_id = ?1 WHERE lease_id = ?2` -/
def advanceLatest (leaseId snapshotId : String) (db : MetadataDb) : MetadataDb :=
  db.updateLeases (fun r => r.leaseId = leaseId)
    (fun r => { r with latestSnapshotId := some snapshotId })
    fun _ => rfl

/-- The condition of the lease update of a fork. -/
def forkable (leaseId : String) (r : LeaseRow) : Bool :=
  r.leaseId = leaseId && r.state = LeaseState.inactive.asStr

/-- `UPDATE leases SET state = 'forked' WHERE lease_id = ?2 AND state = 'inactive'` -/
def forkLease (leaseId : String) (db : MetadataDb) : MetadataDb :=
  db.updateLeases (forkable leaseId)
    (fun r => { r with state := LeaseState.forked.asStr })
    fun _ => rfl

end MetadataDb

/-! ## Canonical publish -/

def stalePublishError (detail : String) : DevRelayError :=
  .config ("stale publish: " ++ detail ++ "; safe action: refresh lease")

/-- What the caller expected against what the lease says. -/
def publishStaleError (lease : LeaseRecord) (request : CanonicalPublishRequest) :
    Option DevRelayError :=
  if lease.epoch ≠ request.expectedEpoch then
    some (stalePublishError "lease epoch changed; refresh before publishing")
  else if lease.latestSnapshotId ≠ request.expectedLatestSnapshotId then
    some (stalePublishError
      "canonical latest changed; recover or fork before publishing")
  else
    none

def snapshotPublishedEvent (lease : LeaseRecord) (request : CanonicalPublishRequest) :
    AuditEventInput :=
  let stale := (publishStaleError lease request).isSome
  { AuditEventInput.new .snapshotPublished
      (if stale then .blocked else .succeeded)
      (if stale then "snapshot stored without advancing canonical latest"
        else "snapshot published as canonical latest") with
    detail := [
      ("expected_epoch", .number request.expectedEpoch.toNat),
      ("actual_epoch", .number lease.epoch.toNat),
      ("expected_latest_snapshot_id", .ofOption request.expectedLatestSnapshotId),
      ("previous_latest_snapshot_id", .ofOption lease.latestSnapshotId),
      ("pinned", .bool request.pinned),
      ("label", .ofOption request.label)]
    projectId := some request.metadata.projectId
    actorDeviceId := some request.holderDeviceId
    sessionId := some request.sessionId
    snapshotId := some request.metadata.snapshotId
    leaseId := some request.leaseId }

def canonicalSnapshotRow (request : CanonicalPublishRequest) (sequenceNumber : Int) :
    SnapshotRow where
  snapshotId := request.metadata.snapshotId
  projectId := request.metadata.projectId
  sessionId := some request.sessionId
  parentSnapshotId := request.metadata.parentSnapshotId
  sequenceNumber := sequenceNumber
  pinned := request.pinned
  label := request.label
  metadata := request.metadata
  createdAtUnixSeconds := asI64 request.metadata.createdAtUnixSeconds

def canonicalStoredSnapshot (request : CanonicalPublishRequest) (sequenceNumber : Int) :
    StoredSnapshot where
  snapshotId := request.metadata.snapshotId
  projectId := request.metadata.projectId
  sessionId := some request.sessionId
  parentSnapshotId := request.metadata.parentSnapshotId
  sequenceNumber := sequenceNumber
  pinned := request.pinned
  label := request.label
  metadata := request.metadata
  createdAtUnixSeconds := request.metadata.createdAtUnixSeconds

/-- The checks of a canonical publish, up to the first write. -/
def publishGuards (request : CanonicalPublishRequest) : Sql LeaseRecord := do
  let lease ← selectLease request.leaseId
  Prog.ensure (lease.projectId = request.metadata.projectId)
    (.config "lease project_id does not match snapshot project_id")
  Prog.ensure (lease.sessionId = request.sessionId)
    (.config "lease session_id does not match publish session")
  let session ← Prog.query fun db => db.sessions.lookup request.sessionId
  Prog.ensure (∃ s ∈ session, s.projectId = request.metadata.projectId)
    (.config ("unknown session " ++ request.sessionId))
  Prog.ensure (lease.holderDeviceId = some request.holderDeviceId)
    (.config "publish rejected: holder device mismatch")
  ensureDeviceNotRevokedConn request.holderDeviceId "snapshot publish"
  Prog.ensure (lease.state = .active)
    (.config ("publish rejected: lease state is " ++ lease.state.asStr))
  pure lease

def publishSnapshotCanonicalBody (request : CanonicalPublishRequest) :
    Sql (Ending (Except DevRelayError CanonicalPublishResult)) := do
  let lease ← publishGuards request
  let sequenceNumber ← Prog.query
    (MetadataDb.nextSequenceNumber request.metadata.projectId)
  Prog.attempt (insertSnapshotRow? (canonicalSnapshotRow request sequenceNumber))
    constraintError
  match publishStaleError lease request with
  | some err =>
    insertAuditEventTx (snapshotPublishedEvent lease request)
      request.metadata.createdAtUnixSeconds
    Prog.commitWith (.error err)
  | none =>
    Prog.write (MetadataDb.advanceLatest request.leaseId request.metadata.snapshotId)
    insertAuditEventTx (snapshotPublishedEvent lease request)
      request.metadata.createdAtUnixSeconds
    Prog.commitWith (.ok {
      snapshot := canonicalStoredSnapshot request sequenceNumber
      latestSnapshotId := request.metadata.snapshotId })

/-- The checks made before the transaction is opened. -/
def publishPrecheck (request : CanonicalPublishRequest) : Except DevRelayError Unit := do
  request.metadata.validate
  if request.metadata.sessionId ≠ some request.sessionId then
    throw (.config "snapshot session_id does not match publish session")

def publishSnapshotCanonical (env : Env) (request : CanonicalPublishRequest)
    (db : MetadataDb) : Except DevRelayError CanonicalPublishResult × MetadataDb :=
  match publishPrecheck request with
  | .error e => (.error e, db)
  | .ok () => (publishSnapshotCanonicalBody request).transaction env.fault db

/-! ## Fork of an inactive workspace -/

def forkName (parent : StoredSession) : String := "Separate work from " ++ parent.name

def forkSessionRow (env : Env) (parent : StoredSession) : SessionRow where
  sessionId := env.generatedSessionId
  projectId := parent.projectId
  activeWorkspaceId := parent.activeWorkspaceId
  state := SessionState.fork.asStr
  name := some (forkName parent)
  parentSessionId := some parent.sessionId
  archivedAtUnixSeconds := none
  createdAtUnixSeconds := asI64 env.unixNowSeconds
  updatedAtUnixSeconds := asI64 env.unixNowSeconds

def forkStoredSession (env : Env) (parent : StoredSession) : StoredSession where
  sessionId := env.generatedSessionId
  projectId := parent.projectId
  name := forkName parent
  parentSessionId := some parent.sessionId
  activeWorkspaceId := parent.activeWorkspaceId
  state := .fork
  archivedAtUnixSeconds := none
  createdAtUnixSeconds := env.unixNowSeconds
  updatedAtUnixSeconds := env.unixNowSeconds

/-- The metadata stored for a fork: its own session, and the canonical latest as
parent unless the snapshot names one. -/
def forkMetadata (env : Env) (lease : LeaseRecord) (request : InactiveForkPublishRequest) :
    SnapshotMetadata :=
  { request.metadata with
    sessionId := some env.generatedSessionId
    parentSnapshotId := request.metadata.parentSnapshotId <|> lease.latestSnapshotId }

def forkLabel (request : InactiveForkPublishRequest) : String :=
  request.label.getD "separate work from inactive workspace"

def forkSnapshotRow (env : Env) (metadata : SnapshotMetadata) (label : String)
    (sequenceNumber : Int) : SnapshotRow where
  snapshotId := metadata.snapshotId
  projectId := metadata.projectId
  sessionId := some env.generatedSessionId
  parentSnapshotId := metadata.parentSnapshotId
  sequenceNumber := sequenceNumber
  pinned := true
  label := some label
  metadata := metadata
  createdAtUnixSeconds := asI64 metadata.createdAtUnixSeconds

def forkStoredSnapshot (env : Env) (metadata : SnapshotMetadata) (label : String)
    (sequenceNumber : Int) : StoredSnapshot where
  snapshotId := metadata.snapshotId
  projectId := metadata.projectId
  sessionId := some env.generatedSessionId
  parentSnapshotId := metadata.parentSnapshotId
  sequenceNumber := sequenceNumber
  pinned := true
  label := some label
  metadata := metadata
  createdAtUnixSeconds := metadata.createdAtUnixSeconds

def snapshotForkedEvent (env : Env) (lease : LeaseRecord)
    (request : InactiveForkPublishRequest) (metadata : SnapshotMetadata) :
    AuditEventInput :=
  { AuditEventInput.new .snapshotPublished .blocked
      "inactive workspace snapshot stored as fork" with
    detail := [
      ("source_session_id", .text request.sessionId),
      ("fork_session_id", .text env.generatedSessionId),
      ("canonical_latest_snapshot_id", .ofOption lease.latestSnapshotId),
      ("pinned", .bool true),
      ("label", .text (forkLabel request))]
    projectId := some metadata.projectId
    actorDeviceId := some request.holderDeviceId
    sessionId := some env.generatedSessionId
    snapshotId := some metadata.snapshotId
    leaseId := some request.leaseId }

/-- The checks of a fork, up to the first write. -/
def forkGuards (request : InactiveForkPublishRequest) : Sql (LeaseRecord × StoredSession) := do
  let lease ← selectLease request.leaseId
  Prog.ensure (lease.projectId = request.metadata.projectId)
    (.config "lease project_id does not match snapshot project_id")
  Prog.ensure (lease.sessionId = request.sessionId)
    (.config "lease session_id does not match inactive publish session")
  Prog.ensure (lease.holderDeviceId = some request.holderDeviceId)
    (.config "inactive publish rejected: holder device mismatch")
  ensureDeviceNotRevokedConn request.holderDeviceId "inactive publish"
  Prog.ensure (lease.state = .inactive)
    (.config ("inactive edit fork requires inactive lease; found " ++ lease.state.asStr))
  let row ← Prog.query fun db => db.sessions.lookup request.sessionId
  let parent ← Prog.orFail
    ((row.filter fun r => r.projectId = request.metadata.projectId).map
      storedSessionFromRow)
    (.config ("unknown session " ++ request.sessionId))
  Prog.ofExcept (lease.validateTransitionTo { lease with state := .forked })
  pure (lease, parent)

def publishInactiveSnapshotAsForkBody (env : Env) (request : InactiveForkPublishRequest) :
    Sql (Ending (Except DevRelayError InactiveForkPublishResult)) := do
  let (lease, parent) ← forkGuards request
  Prog.attempt (insertSessionRow? (forkSessionRow env parent)) constraintError
  let metadata := forkMetadata env lease request
  Prog.ofExcept metadata.validate
  let sequenceNumber ← Prog.query (MetadataDb.nextSequenceNumber metadata.projectId)
  let label := forkLabel request
  Prog.attempt (insertSnapshotRow? (forkSnapshotRow env metadata label sequenceNumber))
    constraintError
  let changed ← Prog.update (MetadataDb.forkLease request.leaseId)
    fun db => db.leases.countWhere (MetadataDb.forkable request.leaseId)
  Prog.ensure (changed = 1) (.config "inactive edit fork lost lease state race")
  insertAuditEventTx (snapshotForkedEvent env lease request metadata)
    metadata.createdAtUnixSeconds
  Prog.commitWith (.ok {
    forkSession := forkStoredSession env parent
    snapshot := forkStoredSnapshot env metadata label sequenceNumber
    canonicalLatestSnapshotId := lease.latestSnapshotId })

def publishInactiveSnapshotAsFork (env : Env) (request : InactiveForkPublishRequest)
    (db : MetadataDb) : Except DevRelayError InactiveForkPublishResult × MetadataDb :=
  if request.metadata.sessionId ≠ some request.sessionId then
    (.error (.config "snapshot session_id does not match inactive publish session"), db)
  else
    (publishInactiveSnapshotAsForkBody env request).transaction env.fault db

/-! ## Revocation -/

def validateNonEmpty (field value : String) : Except DevRelayError Unit :=
  if value.isEmpty then .error (.config (field ++ " must not be empty")) else .ok ()

def deviceRevokedEvent (deviceId revokedByDeviceId reason : String)
    (keyRotationRequired : Bool) : AuditEventInput :=
  { AuditEventInput.new .deviceRevoked .succeeded ("revoked device " ++ deviceId) with
    detail := [("reason", .text reason),
      ("key_rotation_required", .bool keyRotationRequired)]
    actorDeviceId := some revokedByDeviceId
    targetDeviceId := some deviceId }

/-- `INSERT .. ON CONFLICT(device_id) DO UPDATE` -/
def upsertRevocation (row : DeviceRevocationRow) (db : MetadataDb) : MetadataDb :=
  match db.deviceRevocations.insert? row with
  | some deviceRevocations => { db with deviceRevocations }
  | none => { db with
      deviceRevocations := db.deviceRevocations.updateWhere
        (fun r => r.deviceId = row.deviceId)
        (fun r => { row with deviceId := r.deviceId })
        fun _ => rfl }

def revokeDeviceAtBody (deviceId revokedByDeviceId reason : String)
    (keyRotationRequired : Bool) (revokedAt : UInt64) :
    Sql (Ending (Except DevRelayError DeviceRevocationRecord)) := do
  Prog.write (upsertRevocation {
    deviceId := deviceId
    revokedByDeviceId := revokedByDeviceId
    reason := reason
    keyRotationRequired := keyRotationRequired
    revokedAtUnixSeconds := asI64 revokedAt })
  insertAuditEventTx
    (deviceRevokedEvent deviceId revokedByDeviceId reason keyRotationRequired) revokedAt
  Prog.commitWith (.ok {
    deviceId := deviceId
    revokedByDeviceId := revokedByDeviceId
    reason := reason
    keyRotationRequired := keyRotationRequired
    revokedAtUnixSeconds := revokedAt })

def revokeDevice (env : Env) (deviceId revokedByDeviceId reason : String)
    (keyRotationRequired : Bool) (db : MetadataDb) :
    Except DevRelayError DeviceRevocationRecord × MetadataDb :=
  match (do
    validateNonEmpty "device_id" deviceId
    validateNonEmpty "revoked_by_device_id" revokedByDeviceId
    validateNonEmpty "reason" reason : Except DevRelayError Unit) with
  | .error e => (.error e, db)
  | .ok () =>
    (revokeDeviceAtBody deviceId revokedByDeviceId reason keyRotationRequired
      env.unixNowSeconds).transaction env.fault db

end DevRelay.Storage
