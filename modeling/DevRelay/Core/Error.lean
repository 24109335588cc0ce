import DevRelay.Lib.Words

/-!
# Errors

The error type of the core crate.  Errors of the libraries underneath (the
database, the file system, the JSON reader) carry the text those libraries give.
-/

namespace DevRelay.Core

inductive DevRelayError where
  | io (detail : String)
  | json (detail : String)
  | sqlite (detail : String)
  | config (detail : String)
  | manifest (detail : String)
  | gitCommand (args stderr : String)
  | targetDirty (detail : String)
  | missingSourceObject (detail : String)
  | snapshotMetadata (detail : String)
  | unsupportedRepositoryState (detail : String)
  | verification (detail : String)
  | watcher (detail : String)
  | ipc (detail : String)
  deriving DecidableEq, Repr

end DevRelay.Core

/-!
## Audit events

The event types and inputs of `audit.rs`.  The details recorded here are flat
JSON objects, kept as the list of their fields.
-/

namespace DevRelay.Core

inductive AuditEventType where
  | devicePaired
  | deviceRevoked
  | snapshotPublished
  | snapshotApplied
  | leaseTransferred
  | editorContextUpdated
  | editorRestoreAcked
  | commandApproved
  | securityBlocked
  | backupPromoted
  deriving DecidableEq, Repr

def AuditEventType.asStr : AuditEventType → String
  | devicePaired => "device.paired"
  | deviceRevoked => "device.revoked"
  | snapshotPublished => "snapshot.published"
  | snapshotApplied => "snapshot.applied"
  | leaseTransferred => "lease.transferred"
  | editorContextUpdated => "editor.context.updated"
  | editorRestoreAcked => "editor.restore.acked"
  | commandApproved => "command.approved"
  | securityBlocked => "security.blocked"
  | backupPromoted => "backup.promoted"

inductive AuditOutcome where
  | succeeded
  | failed
  | blocked
  deriving DecidableEq, Repr

def AuditOutcome.asStr : AuditOutcome → String
  | succeeded => "succeeded"
  | failed => "failed"
  | blocked => "blocked"

/-- A JSON value that is not an array or an object. -/
inductive JsonScalar where
  | null
  | bool (b : Bool)
  | number (n : Nat)
  | text (s : String)
  deriving DecidableEq, Repr

def JsonScalar.ofOption : Option String → JsonScalar
  | none => null
  | some s => text s

structure AuditEventInput where
  eventType : AuditEventType
  outcome : AuditOutcome
  summary : String
  projectId : Option String
  actorDeviceId : Option String
  targetDeviceId : Option String
  sessionId : Option String
  snapshotId : Option String
  leaseId : Option String
  handoffId : Option String
  detail : List (String × JsonScalar)
  deriving DecidableEq, Repr

def AuditEventInput.new (eventType : AuditEventType) (outcome : AuditOutcome)
    (summary : String) : AuditEventInput where
  eventType := eventType
  outcome := outcome
  summary := summary
  projectId := none
  actorDeviceId := none
  targetDeviceId := none
  sessionId := none
  snapshotId := none
  leaseId := none
  handoffId := none
  detail := []

def validateAuditInput (input : AuditEventInput) : Except DevRelayError Unit :=
  if input.summary.toList.all Lib.isSpace then
    .error (.config "audit summary must not be empty")
  else
    .ok ()

end DevRelay.Core
