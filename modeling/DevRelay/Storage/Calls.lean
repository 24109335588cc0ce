import DevRelay.Lib.Run
import DevRelay.Storage.Publish

/-!
# Calls on the store

The operations that write leases, handoffs and snapshots as one type of calls,
so that a run is a list of them.  A call is atomic, but statements of its
transaction may fail, and so may the read that follows the commit of a handoff.
-/

namespace DevRelay.Storage

open DevRelay.Lib DevRelay.Core

inductive Op where
  | beginHandoff (leaseId sourceDeviceId targetDeviceId sourceGeneration : String)
      (ttlSeconds : UInt64)
  | recordHandoffTargetApply (handoffId : String) (detailJson : Option String)
  | markHandoffTargetVerified (handoffId : String)
  | markHandoffSourceReady (handoffId : String)
  | commitHandoff (handoffId observedSourceGeneration : String) (nowUnixSeconds : UInt64)
  | commitHandoffWithSnapshotPreflight (handoffId observedSourceGeneration : String)
      (nowUnixSeconds : UInt64) (preflight : HandoffCommitSnapshotPreflight)
  | recoverHandoff (handoffId observedSourceGeneration : String)
      (nowUnixSeconds : UInt64)
  | abortHandoff (handoffId : String)
  | abortHandoffWithReason (handoffId reason : String)
  | publishSnapshotCanonical (request : CanonicalPublishRequest)
  | publishInactiveSnapshotAsFork (request : InactiveForkPublishRequest)
  | revokeDevice (deviceId revokedByDeviceId reason : String)
      (keyRotationRequired : Bool)

structure Call where
  env : Env
  op : Op
  /-- the failure of the read that follows the commit of a handoff -/
  reread : Option DevRelayError

/-- The reply of a call without its value. -/
def outcome {α : Type} (r : Except DevRelayError α × MetadataDb) :
    Except DevRelayError Unit × MetadataDb := (r.1.map fun _ => (), r.2)

def perform (db : MetadataDb) (call : Call) : Except DevRelayError Unit × MetadataDb :=
  match call.op with
  | .beginHandoff leaseId source target generation ttl =>
    outcome (beginHandoff call.env leaseId source target generation ttl db)
  | .recordHandoffTargetApply handoffId detailJson =>
    outcome (recordHandoffTargetApply call.env handoffId detailJson db)
  | .markHandoffTargetVerified handoffId =>
    outcome (markHandoffTargetVerified call.env handoffId db)
  | .markHandoffSourceReady handoffId =>
    outcome (markHandoffSourceReady call.env handoffId db)
  | .commitHandoff handoffId observed now =>
    outcome (commitHandoff call.env call.reread handoffId observed now db)
  | .commitHandoffWithSnapshotPreflight handoffId observed now preflight =>
    outcome (commitHandoffWithSnapshotPreflight call.env call.reread handoffId observed
      now preflight db)
  | .recoverHandoff handoffId observed now =>
    outcome (recoverHandoff call.env call.reread handoffId observed now db)
  | .abortHandoff handoffId => outcome (abortHandoff call.env handoffId db)
  | .abortHandoffWithReason handoffId reason =>
    outcome (abortHandoffWithReason call.env handoffId reason db)
  | .publishSnapshotCanonical request =>
    outcome (publishSnapshotCanonical call.env request db)
  | .publishInactiveSnapshotAsFork request =>
    outcome (publishInactiveSnapshotAsFork call.env request db)
  | .revokeDevice deviceId revokedBy reason keyRotationRequired =>
    outcome (revokeDevice call.env deviceId revokedBy reason keyRotationRequired db)

def step (db : MetadataDb) (call : Call) : MetadataDb := (perform db call).2

/-- The store after the first `n` calls of a run. -/
abbrev storeAt (db : MetadataDb) (calls : List Call) (n : Nat) : MetadataDb :=
  stateAt step db calls n

theorem storeAt_succ {db : MetadataDb} {calls : List Call} {n : Nat} (hn : n < calls.length) :
    storeAt db calls (n + 1) = step (storeAt db calls n) calls[n] := stateAt_succ hn

/-- Handoff, observed source generation and clock of a call that may commit. -/
def Op.commitArgs : Op → Option (String × String × UInt64)
  | commitHandoff handoffId observed now => some (handoffId, observed, now)
  | commitHandoffWithSnapshotPreflight handoffId observed now _ =>
    some (handoffId, observed, now)
  | recoverHandoff handoffId observed now => some (handoffId, observed, now)
  | _ => none

end DevRelay.Storage

/-!
## Creating a lease

`upsert_lease` writes a lease as it is given, over the one it finds.  Together
with the calls it makes the runs in which leases come into being.
-/

namespace DevRelay.Storage

open DevRelay.Lib DevRelay.Core

def leaseRowOf (lease : LeaseRecord) : LeaseRow where
  leaseId := lease.leaseId
  projectId := lease.projectId
  sessionId := some lease.sessionId
  state := lease.state.asStr
  epoch := asI64 lease.epoch
  holderDeviceId := lease.holderDeviceId
  latestSnapshotId := lease.latestSnapshotId
  handoffId := lease.handoffId

/-- `INSERT INTO leases .. ON CONFLICT(lease_id) DO UPDATE SET ..` -/
def upsertLeaseRow? (row : LeaseRow) (db : MetadataDb) : Option MetadataDb :=
  if (db.projects.lookup row.projectId).isSome then
    match db.leases.insert? row with
    | some leases => some { db with leases }
    | none =>
      some (db.updateLeases (fun r => r.leaseId = row.leaseId)
        (fun r => { row with leaseId := r.leaseId }) fun _ => rfl)
  else
    none

def upsertLease (env : Env) (lease : LeaseRecord) (db : MetadataDb) :
    Except DevRelayError Unit × MetadataDb :=
  (Prog.attempt (upsertLeaseRow? (leaseRowOf lease)) constraintError : Sql Unit).exec
    env.fault 0 db

/-- A call on the store, or the creation of a lease. -/
inductive LeaseCall where
  | upsertLease (env : Env) (lease : LeaseRecord)
  | call (call : Call)

def leaseStep (db : MetadataDb) : LeaseCall → MetadataDb
  | .upsertLease env lease => (upsertLease env lease db).2
  | .call call => step db call

/-- The store after the first `n` calls of a run. -/
abbrev leaseStoreAt (db : MetadataDb) (calls : List LeaseCall) (n : Nat) : MetadataDb :=
  stateAt leaseStep db calls n

theorem leaseStoreAt_succ {db : MetadataDb} {calls : List LeaseCall} {n : Nat}
    (hn : n < calls.length) :
    leaseStoreAt db calls (n + 1) = leaseStep (leaseStoreAt db calls n) calls[n] :=
  stateAt_succ hn

theorem upsertLease_cases (env : Env) (lease : LeaseRecord) (db : MetadataDb)
    (hfresh : db.getLease lease.leaseId = none) :
    (upsertLease env lease db).2 = db ∨
      ∃ leases, db.leases.insert? (leaseRowOf lease) = some leases ∧
        (upsertLease env lease db).2 = { db with leases } := by
  have hnone : db.leases.lookup (leaseRowOf lease).leaseId = none :=
    Option.map_eq_none_iff.mp hfresh
  obtain ⟨leases, hinsert⟩ := Table.insert?_isSome hnone
  unfold upsertLease
  cases hfault : env.fault 0 with
  | some e =>
    left
    simp [Prog.attempt, Prog.exec, hfault]
  | none =>
    by_cases hproject : (db.projects.lookup (leaseRowOf lease).projectId).isSome
    · right
      refine ⟨leases, hinsert, ?_⟩
      simp [Prog.attempt, Prog.exec, hfault, upsertLeaseRow?, hproject, hinsert]
    · left
      simp [Prog.attempt, Prog.exec, hfault, upsertLeaseRow?, hproject]

end DevRelay.Storage
