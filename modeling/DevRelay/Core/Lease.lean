import DevRelay.Core.Error

/-!
# Leases, handoffs and sessions

The records of `lease.rs`, `handoff.rs` and `session.rs`.  The states are
stored as text: `asStr` writes them, `parse` reads them back, and maps every
text it does not know to a default.
-/

namespace DevRelay.Core

/-! ## Leases -/

inductive LeaseState where
  | active
  | handoffPending
  | committing
  | inactive
  | forked
  | archived
  deriving DecidableEq, Repr

namespace LeaseState

def asStr : LeaseState → String
  | active => "active"
  | handoffPending => "handoff-pending"
  | committing => "committing"
  | inactive => "inactive"
  | forked => "forked"
  | archived => "archived"

/-- `parse_lease_state`. -/
def parse (value : String) : LeaseState :=
  match value with
  | "handoff-pending" => handoffPending
  | "committing" => committing
  | "inactive" => inactive
  | "forked" => forked
  | "archived" => archived
  | _ => active

@[simp] theorem parse_asStr (state : LeaseState) : parse state.asStr = state := by
  cases state <;> rfl

/-- Only the text of the inactive state reads as inactive. -/
theorem parse_eq_inactive {value : String} (h : parse value = inactive) :
    value = inactive.asStr := by
  unfold parse at h
  split at h <;> simp_all [asStr]

def canTransitionTo : LeaseState → LeaseState → Bool
  | active, active => true
  | active, handoffPending => true
  | active, committing => true
  | active, inactive => true
  | active, archived => true
  | handoffPending, active => true
  | handoffPending, handoffPending => true
  | handoffPending, committing => true
  | handoffPending, archived => true
  | committing, active => true
  | committing, committing => true
  | committing, inactive => true
  | inactive, inactive => true
  | inactive, forked => true
  | inactive, archived => true
  | forked, forked => true
  | forked, archived => true
  | archived, archived => true
  | _, _ => false

end LeaseState

structure LeaseRecord where
  leaseId : String
  projectId : String
  sessionId : String
  state : LeaseState
  epoch : UInt64
  holderDeviceId : Option String
  latestSnapshotId : Option String
  handoffId : Option String
  deriving DecidableEq, Repr

def LeaseRecord.validateTransitionTo (self next : LeaseRecord) : Except DevRelayError Unit :=
  if self.leaseId ≠ next.leaseId then
    .error (.config "lease transition cannot change lease_id")
  else if self.projectId ≠ next.projectId then
    .error (.config "lease transition cannot change project_id")
  else if self.sessionId ≠ next.sessionId then
    .error (.config "lease transition cannot change session_id")
  else if ¬self.state.canTransitionTo next.state then
    .error (.config
      ("illegal lease transition " ++ self.state.asStr ++ " -> " ++ next.state.asStr))
  else if next.epoch < self.epoch then
    .error (.config ("lease epoch cannot decrease from " ++ toString self.epoch ++
      " to " ++ toString next.epoch))
  else if self.state = .committing ∧ next.state = .active ∧ next.epoch = self.epoch then
    .error (.config "committed lease handoff must increment epoch")
  else
    .ok ()

/-! ## Handoffs -/

inductive HandoffState where
  | targetPrepare
  | targetVerified
  | sourceReady
  | committed
  | aborted
  deriving DecidableEq, Repr

namespace HandoffState

def asStr : HandoffState → String
  | targetPrepare => "target-prepare"
  | targetVerified => "target-verified"
  | sourceReady => "source-ready"
  | committed => "committed"
  | aborted => "aborted"

def parse (value : String) : HandoffState :=
  match value with
  | "target-verified" => targetVerified
  | "source-ready" => sourceReady
  | "committed" => committed
  | "aborted" => aborted
  | _ => targetPrepare

@[simp] theorem parse_asStr (state : HandoffState) : parse state.asStr = state := by
  cases state <;> rfl

def isTerminal : HandoffState → Bool
  | committed => true
  | aborted => true
  | _ => false

end HandoffState

inductive HandoffJournalPhase where
  | begin
  | targetPrepare
  | targetApply
  | targetVerified
  | sourceReady
  | leaseCommitted
  | aborted
  deriving DecidableEq, Repr

namespace HandoffJournalPhase

def asStr : HandoffJournalPhase → String
  | begin => "begin"
  | targetPrepare => "target-prepare"
  | targetApply => "target-apply"
  | targetVerified => "target-verified"
  | sourceReady => "source-ready"
  | leaseCommitted => "lease-committed"
  | aborted => "aborted"

def parse (value : String) : HandoffJournalPhase :=
  match value with
  | "target-prepare" => targetPrepare
  | "target-apply" => targetApply
  | "target-verified" => targetVerified
  | "source-ready" => sourceReady
  | "lease-committed" => leaseCommitted
  | "aborted" => aborted
  | _ => begin

@[simp] theorem parse_asStr (phase : HandoffJournalPhase) : parse phase.asStr = phase := by
  cases phase <;> rfl

end HandoffJournalPhase

structure HandoffRecord where
  handoffId : String
  leaseId : String
  projectId : String
  expectedEpoch : UInt64
  sourceDeviceId : String
  targetDeviceId : String
  sourceGeneration : String
  expiresAtUnixSeconds : UInt64
  state : HandoffState
  deriving DecidableEq, Repr

structure HandoffJournalRecord where
  journalId : Nat
  handoffId : String
  leaseId : String
  projectId : String
  phase : HandoffJournalPhase
  detailJson : String
  createdAtUnixSeconds : UInt64
  deriving DecidableEq, Repr

inductive HandoffRecoveryOutcome where
  | waitingForTarget
  | committed
  | abortedExpired
  | alreadyCommitted
  | alreadyAborted
  deriving DecidableEq, Repr

/-! ## Sessions -/

inductive SessionState where
  | active
  | archived
  | fork
  deriving DecidableEq, Repr

namespace SessionState

def asStr : SessionState → String
  | active => "active"
  | archived => "archived"
  | fork => "fork"

def parse (value : String) : SessionState :=
  match value with
  | "archived" => archived
  | "fork" => fork
  | _ => active

@[simp] theorem parse_asStr (state : SessionState) : parse state.asStr = state := by
  cases state <;> rfl

end SessionState

structure StoredSession where
  sessionId : String
  projectId : String
  name : String
  parentSessionId : Option String
  activeWorkspaceId : Option String
  state : SessionState
  archivedAtUnixSeconds : Option UInt64
  createdAtUnixSeconds : UInt64
  updatedAtUnixSeconds : UInt64
  deriving DecidableEq, Repr

end DevRelay.Core
