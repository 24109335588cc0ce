import DevRelay.Storage.Schema

/-!
# Handoff operations

`begin_handoff`, the journal and phase marks, `commit_handoff`, `abort_handoff`
and `recover_handoff`.  Each body runs inside one transaction; what a call finds
outside the store (the clock, generated identifiers, the JSON library, the
statements that fail) is in `Env`.
-/

namespace DevRelay.Storage

open DevRelay.Lib DevRelay.Core

inductive MetadataDbFaultPoint where
  | duringLeaseCommit
  deriving DecidableEq, Repr

def MetadataDbFaultPoint.asStr : MetadataDbFaultPoint → String
  | duringLeaseCommit => "during-lease-commit"

/-- The part of the JSON library the journal uses: parse a text and serialise
it again, and serialise `{"reason": reason}`. -/
structure JsonText where
  reserialize : String → Except String String
  reasonObject : String → String

structure Env where
  /-- `unix_now_seconds()` -/
  unixNowSeconds : UInt64
  /-- `generate_handoff_id()` -/
  generatedHandoffId : String
  /-- `generate_session_id()` -/
  generatedSessionId : String
  json : JsonText
  /-- the statements of the call's transaction that fail -/
  fault : Fault DevRelayError
  /-- the failure of a read that precedes the transaction -/
  readFault : Option DevRelayError
  /-- `MetadataDb::fault` -/
  injected : Option MetadataDbFaultPoint

def normalizeJournalDetail (json : JsonText) (detailJson : Option String) :
    Except DevRelayError String :=
  match detailJson with
  | some detailJson =>
    match json.reserialize detailJson with
    | .ok text => .ok text
    | .error e => .error (.json e)
  | none => .ok "{}"

def injectMetadataDbFault (configured : Option MetadataDbFaultPoint)
    (fault : MetadataDbFaultPoint) : Sql Unit :=
  Prog.ensure (configured ≠ some fault)
    (.config ("injected metadata DB fault at " ++ fault.asStr))

/-! ## Updates -/

namespace MetadataDb

def updateLeases (db : MetadataDb) (p : LeaseRow → Bool) (f : LeaseRow → LeaseRow)
    (hf : ∀ r, (f r).leaseId = r.leaseId) : MetadataDb :=
  { db with leases := db.leases.updateWhere p f hf }

def updateHandoffs (db : MetadataDb) (p : HandoffRow → Bool)
    (f : HandoffRow → HandoffRow) (hf : ∀ r, (f r).handoffId = r.handoffId) :
    MetadataDb :=
  { db with handoffs := db.handoffs.updateWhere p f hf }

/-- `UPDATE leases SET state = 'handoff-pending', handoff_id = ?2 WHERE lease_id = ?3` -/
def markLeasePending (leaseId handoffId : String) (db : MetadataDb) : MetadataDb :=
  db.updateLeases (fun r => r.leaseId = leaseId)
    (fun r => { r with
      state := LeaseState.handoffPending.asStr, handoffId := some handoffId })
    fun _ => rfl

/-- `UPDATE leases SET state = 'active', handoff_id = NULL
WHERE lease_id = ?2 AND handoff_id = ?3` -/
def releaseLease (leaseId handoffId : String) (db : MetadataDb) : MetadataDb :=
  db.updateLeases (fun r => r.leaseId = leaseId && r.handoffId = some handoffId)
    (fun r => { r with state := LeaseState.active.asStr, handoffId := none })
    fun _ => rfl

/-- The condition of the lease update of a commit. -/
def transferable (handoff : HandoffRecord) (r : LeaseRow) : Bool :=
  r.leaseId = handoff.leaseId && r.epoch = asI64 handoff.expectedEpoch &&
    r.handoffId = some handoff.handoffId

/-- The lease update of a commit. -/
def transferLease (handoff : HandoffRecord) (db : MetadataDb) : MetadataDb :=
  db.updateLeases (transferable handoff)
    (fun r => { r with
      state := LeaseState.active.asStr
      epoch := asI64 (saturatingAdd handoff.expectedEpoch 1)
      holderDeviceId := some handoff.targetDeviceId
      handoffId := none })
    fun _ => rfl

/-- `UPDATE handoffs SET state = 'aborted', aborted_at_unix_seconds = ?2 WHERE ..` -/
def markHandoffAborted (handoffId : String) (now : UInt64) (db : MetadataDb) : MetadataDb :=
  db.updateHandoffs (fun r => r.handoffId = handoffId)
    (fun r => { r with
      state := HandoffState.aborted.asStr, abortedAtUnixSeconds := some (asI64 now) })
    fun _ => rfl

/-- `UPDATE handoffs SET state = 'committed', committed_at_unix_seconds = ?2 WHERE ..` -/
def markHandoffCommitted (handoffId : String) (now : UInt64) (db : MetadataDb) : MetadataDb :=
  db.updateHandoffs (fun r => r.handoffId = handoffId)
    (fun r => { r with
      state := HandoffState.committed.asStr
      committedAtUnixSeconds := some (asI64 now) })
    fun _ => rfl

/-- The condition of the update of a phase mark. -/
def advanceable (handoffId : String) (expected : HandoffState) (r : HandoffRow) : Bool :=
  r.handoffId = handoffId && r.state = expected.asStr

/-- `UPDATE handoffs SET state = ?1 WHERE handoff_id = ?2 AND state = ?3` -/
def advanceHandoff (handoffId : String) (expected next : HandoffState)
    (db : MetadataDb) : MetadataDb :=
  db.updateHandoffs (advanceable handoffId expected)
    (fun r => { r with state := next.asStr })
    fun _ => rfl

/-- Rows of the query for a pending handoff of the lease. -/
def pendingHandoffRow (leaseId : String) (r : HandoffRow) : Bool :=
  r.leaseId = some leaseId && !(r.state = "committed" || r.state = "aborted")

/-- `ORDER BY created_at_unix_seconds ASC, handoff_id ASC LIMIT 1` -/
def earlierHandoff (a b : HandoffRow) : HandoffRow :=
  if b.createdAtUnixSeconds < a.createdAtUnixSeconds ∨
      (b.createdAtUnixSeconds = a.createdAtUnixSeconds ∧ b.handoffId < a.handoffId) then
    b
  else
    a

def existingPendingHandoff (leaseId : String) (db : MetadataDb) : Option String :=
  match db.handoffs.rows.filter (pendingHandoffRow leaseId) with
  | [] => none
  | r :: rows => some (rows.foldl earlierHandoff r).handoffId

end MetadataDb

/-! ## Begin -/

def beginHandoffRecord (env : Env) (lease : LeaseRecord) (leaseId sourceDeviceId
    targetDeviceId sourceGeneration : String) (ttlSeconds : UInt64) : HandoffRecord where
  handoffId := env.generatedHandoffId
  leaseId := leaseId
  projectId := lease.projectId
  expectedEpoch := lease.epoch
  sourceDeviceId := sourceDeviceId
  targetDeviceId := targetDeviceId
  sourceGeneration := sourceGeneration
  expiresAtUnixSeconds := saturatingAdd env.unixNowSeconds (max ttlSeconds 1)
  state := .targetPrepare

/-- The row `begin_handoff` inserts for a record. -/
def handoffRowOf (handoff : HandoffRecord) (now : UInt64) : HandoffRow where
  handoffId := handoff.handoffId
  projectId := handoff.projectId
  state := handoff.state.asStr
  leaseId := some handoff.leaseId
  expectedEpoch := some (asI64 handoff.expectedEpoch)
  sourceDeviceId := some handoff.sourceDeviceId
  targetDeviceId := some handoff.targetDeviceId
  sourceGeneration := some handoff.sourceGeneration
  expiresAtUnixSeconds := some (asI64 handoff.expiresAtUnixSeconds)
  createdAtUnixSeconds := asI64 now
  committedAtUnixSeconds := none
  abortedAtUnixSeconds := none

def beginHandoffBody (env : Env) (leaseId sourceDeviceId targetDeviceId
    sourceGeneration : String) (ttlSeconds : UInt64) :
    Sql (Ending (Except DevRelayError HandoffRecord)) := do
  let lease ← selectLease leaseId
  let existing ← Prog.query (MetadataDb.existingPendingHandoff leaseId)
  Prog.ensure (existing = none)
    (.config ("handoff already pending: " ++ existing.getD ""))
  Prog.ensure (lease.state = .active)
    (.config ("cannot begin handoff from " ++ lease.state.asStr ++ " lease"))
  Prog.ensure (lease.holderDeviceId = some sourceDeviceId)
    (.config "handoff source does not hold lease")
  ensureDeviceNotRevokedConn sourceDeviceId "begin handoff"
  ensureDeviceNotRevokedConn targetDeviceId "begin handoff"
  let now := env.unixNowSeconds
  let handoff := beginHandoffRecord env lease leaseId sourceDeviceId targetDeviceId
    sourceGeneration ttlSeconds
  Prog.attempt (insertHandoffRow? (handoffRowOf handoff now)) constraintError
  let _ ← insertHandoffJournal handoff .begin "{}" now
  let _ ← insertHandoffJournal handoff .targetPrepare "{}" now
  Prog.write (MetadataDb.markLeasePending leaseId handoff.handoffId)
  Prog.commitWith (.ok handoff)

def beginHandoff (env : Env) (leaseId sourceDeviceId targetDeviceId
    sourceGeneration : String) (ttlSeconds : UInt64) (db : MetadataDb) :
    Except DevRelayError HandoffRecord × MetadataDb :=
  (beginHandoffBody env leaseId sourceDeviceId targetDeviceId sourceGeneration
    ttlSeconds).transaction env.fault db

/-! ## Journal and phase marks -/

def recordHandoffTargetApplyBody (env : Env) (handoffId detailJson : String) :
    Sql (Ending (Except DevRelayError HandoffJournalRecord)) := do
  let handoff ← selectHandoff handoffId
  Prog.ensure (¬handoff.state.isTerminal)
    (.config ("cannot record target apply for " ++ handoff.state.asStr ++ " handoff"))
  let record ← insertHandoffJournal handoff .targetApply detailJson env.unixNowSeconds
  Prog.commitWith (.ok record)

def recordHandoffTargetApply (env : Env) (handoffId : String)
    (detailJson : Option String) (db : MetadataDb) :
    Except DevRelayError HandoffJournalRecord × MetadataDb :=
  match normalizeJournalDetail env.json detailJson with
  | .error e => (.error e, db)
  | .ok detailJson =>
    (recordHandoffTargetApplyBody env handoffId detailJson).transaction env.fault db

def updateHandoffStateBody (env : Env) (handoffId : String)
    (expected next : HandoffState) (journalPhase : HandoffJournalPhase) :
    Sql (Ending (Except DevRelayError HandoffRecord)) := do
  let handoff ← selectHandoff handoffId
  Prog.ensure (handoff.state = expected)
    (.config ("handoff " ++ handoffId ++ " is not " ++ expected.asStr))
  let changed ← Prog.update (MetadataDb.advanceHandoff handoffId expected next)
    fun db => db.handoffs.countWhere (MetadataDb.advanceable handoffId expected)
  Prog.ensure (changed ≠ 0)
    (.config ("handoff " ++ handoffId ++ " is not " ++ expected.asStr))
  let updated := { handoff with state := next }
  let _ ← insertHandoffJournal updated journalPhase "{}" env.unixNowSeconds
  Prog.commitWith (.ok updated)

def updateHandoffState (env : Env) (handoffId : String)
    (expected next : HandoffState) (journalPhase : HandoffJournalPhase)
    (db : MetadataDb) : Except DevRelayError HandoffRecord × MetadataDb :=
  (updateHandoffStateBody env handoffId expected next journalPhase).transaction
    env.fault db

def markHandoffTargetVerified (env : Env) (handoffId : String) (db : MetadataDb) :
    Except DevRelayError HandoffRecord × MetadataDb :=
  updateHandoffState env handoffId .targetPrepare .targetVerified .targetVerified db

def markHandoffSourceReady (env : Env) (handoffId : String) (db : MetadataDb) :
    Except DevRelayError HandoffRecord × MetadataDb :=
  updateHandoffState env handoffId .targetVerified .sourceReady .sourceReady db

/-! ## Abort -/

def abortHandoffAtBody (env : Env) (handoffId : String) (nowUnixSeconds : UInt64)
    (reason : String) : Sql (Ending (Except DevRelayError HandoffRecord)) := do
  let handoff ← selectHandoff handoffId
  Prog.ensure (handoff.state ≠ .committed) (.config "cannot abort committed handoff")
  if handoff.state = .aborted then
    Prog.dropWith (.ok handoff)
  else
    Prog.write (MetadataDb.markHandoffAborted handoffId nowUnixSeconds)
    Prog.write (MetadataDb.releaseLease handoff.leaseId handoffId)
    let aborted := { handoff with state := .aborted }
    let detailJson ← Prog.ofExcept
      (normalizeJournalDetail env.json (some (env.json.reasonObject reason)))
    let _ ← insertHandoffJournal aborted .aborted detailJson nowUnixSeconds
    Prog.commitWith (.ok aborted)

def abortHandoffAt (env : Env) (handoffId : String) (nowUnixSeconds : UInt64)
    (reason : String) (db : MetadataDb) :
    Except DevRelayError HandoffRecord × MetadataDb :=
  (abortHandoffAtBody env handoffId nowUnixSeconds reason).transaction env.fault db

def abortHandoffWithReason (env : Env) (handoffId reason : String) (db : MetadataDb) :
    Except DevRelayError HandoffRecord × MetadataDb :=
  abortHandoffAt env handoffId env.unixNowSeconds reason db

def abortHandoff (env : Env) (handoffId : String) (db : MetadataDb) :
    Except DevRelayError HandoffRecord × MetadataDb :=
  abortHandoffAt env handoffId env.unixNowSeconds "manual abort" db

/-! ## Commit -/

/-- The snapshot to be available on the target before the lease moves, and the
outcome of `ensure_sidecars_available` for it. -/
structure HandoffCommitSnapshotPreflight where
  snapshot : SnapshotMetadata
  sidecarsAvailable : Except DevRelayError Unit

def HandoffCommitSnapshotPreflight.verify (self : HandoffCommitSnapshotPreflight)
    (handoff : HandoffRecord) : Except DevRelayError Unit :=
  if self.snapshot.projectId ≠ handoff.projectId then
    .error (.config ("handoff snapshot project mismatch: expected " ++
      handoff.projectId ++ ", got " ++ self.snapshot.projectId))
  else
    self.sidecarsAvailable

/-- The two reasons for which a commit aborts the handoff instead. -/
def commitAbortReason (handoff : HandoffRecord) (observedSourceGeneration : String)
    (nowUnixSeconds : UInt64) : Option String :=
  if nowUnixSeconds > handoff.expiresAtUnixSeconds then
    some "handoff expired"
  else if observedSourceGeneration ≠ handoff.sourceGeneration then
    some "source generation changed"
  else
    none

def commitRejected (reason : String) : DevRelayError :=
  .config ("handoff commit rejected: " ++ reason)

def leaseTransferredEvent (handoff : HandoffRecord) : AuditEventInput :=
  { AuditEventInput.new .leaseTransferred .succeeded
      "lease transferred to target device" with
    detail := [
      ("from_device_id", .text handoff.sourceDeviceId),
      ("to_device_id", .text handoff.targetDeviceId),
      ("previous_epoch", .number handoff.expectedEpoch.toNat),
      ("next_epoch", .number (saturatingAdd handoff.expectedEpoch 1).toNat)]
    projectId := some handoff.projectId
    actorDeviceId := some handoff.sourceDeviceId
    targetDeviceId := some handoff.targetDeviceId
    leaseId := some handoff.leaseId
    handoffId := some handoff.handoffId }

/-- The writes of a commit that was not rejected. -/
def commitTransfer (env : Env) (handoff : HandoffRecord) (nowUnixSeconds : UInt64) :
    Sql (Ending (Except DevRelayError Unit)) := do
  let changed ← Prog.update (MetadataDb.transferLease handoff)
    fun db => db.leases.countWhere (MetadataDb.transferable handoff)
  Prog.ensure (changed = 1) (.config "handoff commit lost lease state race")
  injectMetadataDbFault env.injected .duringLeaseCommit
  Prog.write (MetadataDb.markHandoffCommitted handoff.handoffId nowUnixSeconds)
  let committed := { handoff with state := .committed }
  let _ ← insertHandoffJournal committed .leaseCommitted "{}" nowUnixSeconds
  insertAuditEventTx (leaseTransferredEvent handoff) nowUnixSeconds
  Prog.commitWith (.ok ())

def commitHandoffBody (env : Env) (handoffId observedSourceGeneration : String)
    (nowUnixSeconds : UInt64) (preflight : Option HandoffCommitSnapshotPreflight) :
    Sql (Ending (Except DevRelayError Unit)) := do
  let handoff ← selectHandoff handoffId
  Prog.ensure (handoff.state = .sourceReady)
    (.config ("handoff is not source-ready: " ++ handoff.state.asStr))
  match commitAbortReason handoff observedSourceGeneration nowUnixSeconds with
  | some reason =>
    Prog.write (MetadataDb.markHandoffAborted handoffId nowUnixSeconds)
    Prog.write (MetadataDb.releaseLease handoff.leaseId handoffId)
    Prog.commitWith (.error (commitRejected reason))
  | none =>
    ensureDeviceNotRevokedConn handoff.targetDeviceId "handoff commit"
    match preflight with
    | some preflight => Prog.ofExcept (preflight.verify handoff)
    | none => pure ()
    commitTransfer env handoff nowUnixSeconds

/-- The record is read again after the commit; `reread` is the failure of that
read. -/
def commitReply (reread : Option DevRelayError) (handoffId : String)
    (db : MetadataDb) : Except DevRelayError HandoffRecord :=
  match reread, db.getHandoff handoffId with
  | some e, _ => .error e
  | none, some handoff => .ok handoff
  | none, none => .error (.config "handoff commit disappeared")

def commitHandoffInner (env : Env) (reread : Option DevRelayError)
    (handoffId observedSourceGeneration : String) (nowUnixSeconds : UInt64)
    (preflight : Option HandoffCommitSnapshotPreflight) (db : MetadataDb) :
    Except DevRelayError HandoffRecord × MetadataDb :=
  match (commitHandoffBody env handoffId observedSourceGeneration nowUnixSeconds
      preflight).transaction env.fault db with
  | (.error e, db') => (.error e, db')
  | (.ok (), db') => (commitReply reread handoffId db', db')

def commitHandoff (env : Env) (reread : Option DevRelayError)
    (handoffId observedSourceGeneration : String) (nowUnixSeconds : UInt64)
    (db : MetadataDb) : Except DevRelayError HandoffRecord × MetadataDb :=
  commitHandoffInner env reread handoffId observedSourceGeneration nowUnixSeconds
    none db

def commitHandoffWithSnapshotPreflight (env : Env) (reread : Option DevRelayError)
    (handoffId observedSourceGeneration : String) (nowUnixSeconds : UInt64)
    (preflight : HandoffCommitSnapshotPreflight) (db : MetadataDb) :
    Except DevRelayError HandoffRecord × MetadataDb :=
  commitHandoffInner env reread handoffId observedSourceGeneration nowUnixSeconds
    (some preflight) db

/-! ## Recovery -/

def recoverHandoff (env : Env) (reread : Option DevRelayError)
    (handoffId observedSourceGeneration : String) (nowUnixSeconds : UInt64)
    (db : MetadataDb) : Except DevRelayError HandoffRecoveryOutcome × MetadataDb :=
  match env.readFault, db.getHandoff handoffId with
  | some e, _ => (.error e, db)
  | none, none => (.error (.config ("unknown handoff " ++ handoffId)), db)
  | none, some handoff =>
    match handoff.state with
    | .committed => (.ok .alreadyCommitted, db)
    | .aborted => (.ok .alreadyAborted, db)
    | _ =>
      if nowUnixSeconds > handoff.expiresAtUnixSeconds then
        match abortHandoffAt env handoffId nowUnixSeconds
            "expired during recovery" db with
        | (.error e, db') => (.error e, db')
        | (.ok _, db') => (.ok .abortedExpired, db')
      else if handoff.state = .sourceReady then
        match commitHandoff env reread handoffId observedSourceGeneration
            nowUnixSeconds db with
        | (.error e, db') => (.error e, db')
        | (.ok _, db') => (.ok .committed, db')
      else
        (.ok .waitingForTarget, db)

end DevRelay.Storage
