import DevRelay.Lib.Machine
import DevRelay.Lib.Statements
import DevRelay.Lib.Table
import DevRelay.Core.Lease
import DevRelay.Core.SnapshotSchema

/-!
# The metadata store

The tables of `storage.rs` that leases, handoffs and snapshots live in, the
readers that turn a row into a record, and the statements the operations share.
Columns have their SQL types: text states, nullable columns, signed integers.
A row is rejected when its primary key is taken or a foreign key dangles.
-/

namespace DevRelay.Storage

open DevRelay.Lib DevRelay.Core

/-! ## Rows -/

structure SessionRow where
  sessionId : String
  projectId : String
  activeWorkspaceId : Option String
  state : String
  name : Option String
  parentSessionId : Option String
  archivedAtUnixSeconds : Option Int64
  createdAtUnixSeconds : Int64
  updatedAtUnixSeconds : Int64
  deriving DecidableEq

/-- `metadata` is the value that `metadata_json` serialises. -/
structure SnapshotRow where
  snapshotId : String
  projectId : String
  sessionId : Option String
  parentSnapshotId : Option String
  sequenceNumber : Int
  pinned : Bool
  label : Option String
  metadata : SnapshotMetadata
  createdAtUnixSeconds : Int64
  deriving DecidableEq

structure LeaseRow where
  leaseId : String
  projectId : String
  sessionId : Option String
  state : String
  epoch : Int64
  holderDeviceId : Option String
  latestSnapshotId : Option String
  handoffId : Option String
  deriving DecidableEq

structure HandoffRow where
  handoffId : String
  projectId : String
  state : String
  leaseId : Option String
  expectedEpoch : Option Int64
  sourceDeviceId : Option String
  targetDeviceId : Option String
  sourceGeneration : Option String
  expiresAtUnixSeconds : Option Int64
  createdAtUnixSeconds : Int64
  committedAtUnixSeconds : Option Int64
  abortedAtUnixSeconds : Option Int64
  deriving DecidableEq

structure HandoffJournalRow where
  journalId : Nat
  handoffId : String
  leaseId : String
  projectId : String
  phase : String
  detailJson : String
  createdAtUnixSeconds : Int64
  deriving DecidableEq

structure DeviceRevocationRow where
  deviceId : String
  revokedByDeviceId : String
  reason : String
  keyRotationRequired : Bool
  revokedAtUnixSeconds : Int64
  deriving DecidableEq

structure AuditEventRow where
  auditId : Nat
  input : AuditEventInput
  createdAtUnixSeconds : Int64
  deriving DecidableEq

/-- The two append-only tables number their rows from 1. -/
structure MetadataDb where
  projects : Table (id : String → String)
  sessions : Table SessionRow.sessionId
  snapshots : Table SnapshotRow.snapshotId
  leases : Table LeaseRow.leaseId
  handoffs : Table HandoffRow.handoffId
  handoffJournal : List HandoffJournalRow
  deviceRevocations : Table DeviceRevocationRow.deviceId
  auditEvents : List AuditEventRow
  deriving DecidableEq

/-- One statement after the other against the store. -/
abbrev Sql := Prog MetadataDb DevRelayError

/-! ## Records read from rows -/

structure StoredSnapshot where
  snapshotId : String
  projectId : String
  sessionId : Option String
  parentSnapshotId : Option String
  sequenceNumber : Int
  pinned : Bool
  label : Option String
  metadata : SnapshotMetadata
  createdAtUnixSeconds : UInt64
  deriving DecidableEq, Repr

structure DeviceRevocationRecord where
  deviceId : String
  revokedByDeviceId : String
  reason : String
  keyRotationRequired : Bool
  revokedAtUnixSeconds : UInt64
  deriving DecidableEq, Repr

def storedSessionFromRow (row : SessionRow) : StoredSession where
  sessionId := row.sessionId
  projectId := row.projectId
  name := row.name.getD "Default"
  parentSessionId := row.parentSessionId
  activeWorkspaceId := row.activeWorkspaceId
  state := SessionState.parse row.state
  archivedAtUnixSeconds := row.archivedAtUnixSeconds.map clampU64
  createdAtUnixSeconds := clampU64 row.createdAtUnixSeconds
  updatedAtUnixSeconds := clampU64 row.updatedAtUnixSeconds

def storedSnapshotRecordFromRow (row : SnapshotRow) : StoredSnapshot where
  snapshotId := row.snapshotId
  projectId := row.projectId
  sessionId := row.sessionId
  parentSnapshotId := row.parentSnapshotId
  sequenceNumber := row.sequenceNumber
  pinned := row.pinned
  label := row.label
  metadata := row.metadata
  createdAtUnixSeconds := clampU64 row.createdAtUnixSeconds

def leaseRecordFromRow (row : LeaseRow) : LeaseRecord where
  leaseId := row.leaseId
  projectId := row.projectId
  sessionId := row.sessionId.getD "unknown-session"
  state := LeaseState.parse row.state
  epoch := clampU64 row.epoch
  holderDeviceId := row.holderDeviceId
  latestSnapshotId := row.latestSnapshotId
  handoffId := row.handoffId

def handoffRecordFromRow (row : HandoffRow) : HandoffRecord where
  handoffId := row.handoffId
  leaseId := row.leaseId.getD "unknown-lease"
  projectId := row.projectId
  expectedEpoch := clampU64 (row.expectedEpoch.getD 0)
  sourceDeviceId := row.sourceDeviceId.getD ""
  targetDeviceId := row.targetDeviceId.getD ""
  sourceGeneration := row.sourceGeneration.getD ""
  expiresAtUnixSeconds := clampU64 (row.expiresAtUnixSeconds.getD 0)
  state := HandoffState.parse row.state

def deviceRevocationFromRow (row : DeviceRevocationRow) : DeviceRevocationRecord where
  deviceId := row.deviceId
  revokedByDeviceId := row.revokedByDeviceId
  reason := row.reason
  keyRotationRequired := row.keyRotationRequired
  revokedAtUnixSeconds := clampU64 row.revokedAtUnixSeconds

namespace MetadataDb

def getLease (db : MetadataDb) (leaseId : String) : Option LeaseRecord :=
  (db.leases.lookup leaseId).map leaseRecordFromRow

def getHandoff (db : MetadataDb) (handoffId : String) : Option HandoffRecord :=
  (db.handoffs.lookup handoffId).map handoffRecordFromRow

def getDeviceRevocation (db : MetadataDb) (deviceId : String) : Option DeviceRevocationRecord :=
  (db.deviceRevocations.lookup deviceId).map deviceRevocationFromRow

theorem handoffId_of_getHandoff {db : MetadataDb} {handoffId : String}
    {handoff : HandoffRecord} (h : db.getHandoff handoffId = some handoff) :
    handoff.handoffId = handoffId := by
  obtain ⟨row, hrow, rfl⟩ := Option.map_eq_some_iff.mp h
  have hkey := Table.lookup_key hrow
  exact hkey

end MetadataDb

/-! ## Statements -/

/-- The text of a refused constraint. -/
def constraintError : DevRelayError := .sqlite "constraint failed"

/-- `SELECT .. FROM leases WHERE lease_id = ?1`, as a record or an error. -/
def selectLease (leaseId : String) : Sql LeaseRecord := do
  let lease ← Prog.query fun db => db.getLease leaseId
  Prog.orFail lease (.config ("unknown lease " ++ leaseId))

/-- `handoff_select_sql("WHERE handoff_id = ?1")`, as a record or an error. -/
def selectHandoff (handoffId : String) : Sql HandoffRecord := do
  let handoff ← Prog.query fun db => db.getHandoff handoffId
  Prog.orFail handoff (.config ("unknown handoff " ++ handoffId))

def ensureDeviceNotRevokedConn (deviceId operation : String) : Sql Unit := do
  let revocation ← Prog.query fun db => db.getDeviceRevocation deviceId
  match revocation with
  | some revocation =>
    Prog.fail (.config (operation ++ " rejected: device " ++ revocation.deviceId ++
      " was revoked by " ++ revocation.revokedByDeviceId ++ " at " ++
      toString revocation.revokedAtUnixSeconds ++ ": " ++ revocation.reason))
  | none => pure ()

def insertSessionRow? (row : SessionRow) (db : MetadataDb) : Option MetadataDb :=
  if (db.projects.lookup row.projectId).isSome then
    (db.sessions.insert? row).map fun sessions => { db with sessions }
  else
    none

/-- The parent may be the row itself: foreign keys are checked when the
statement ends. -/
def insertSnapshotRow? (row : SnapshotRow) (db : MetadataDb) : Option MetadataDb :=
  if (db.projects.lookup row.projectId).isSome ∧
      (∀ s ∈ row.sessionId, (db.sessions.lookup s).isSome) ∧
      (∀ p ∈ row.parentSnapshotId, p = row.snapshotId ∨ (db.snapshots.lookup p).isSome) then
    (db.snapshots.insert? row).map fun snapshots => { db with snapshots }
  else
    none

def insertHandoffRow? (row : HandoffRow) (db : MetadataDb) : Option MetadataDb :=
  if (db.projects.lookup row.projectId).isSome then
    (db.handoffs.insert? row).map fun handoffs => { db with handoffs }
  else
    none

def insertJournalRow? (row : HandoffJournalRow) (db : MetadataDb) : Option MetadataDb :=
  if (db.handoffs.lookup row.handoffId).isSome ∧
      (db.projects.lookup row.projectId).isSome then
    some { db with
      handoffJournal := db.handoffJournal ++
        [{ row with journalId := db.handoffJournal.length + 1 }] }
  else
    none

def insertHandoffJournal (handoff : HandoffRecord) (phase : HandoffJournalPhase)
    (detailJson : String) (createdAt : UInt64) : Sql HandoffJournalRecord := do
  Prog.attempt (insertJournalRow? {
    journalId := 0
    handoffId := handoff.handoffId
    leaseId := handoff.leaseId
    projectId := handoff.projectId
    phase := phase.asStr
    detailJson := detailJson
    createdAtUnixSeconds := asI64 createdAt }) constraintError
  let journalId ← Prog.query fun db => db.handoffJournal.length
  pure {
    journalId := journalId
    handoffId := handoff.handoffId
    leaseId := handoff.leaseId
    projectId := handoff.projectId
    phase := phase
    detailJson := detailJson
    createdAtUnixSeconds := createdAt }

def insertAuditEventTx (input : AuditEventInput) (createdAt : UInt64) : Sql Unit := do
  Prog.ofExcept (validateAuditInput input)
  Prog.write fun db => { db with
    auditEvents := db.auditEvents ++
      [{ auditId := db.auditEvents.length + 1
         input := input
         createdAtUnixSeconds := asI64 createdAt }] }

/-! ## What the statements do -/

@[simp] theorem run_selectLease_bind_ok {α : Type} (leaseId : String)
    (k : LeaseRecord → Sql α) (db db' : MetadataDb) (b : α) :
    (selectLease leaseId >>= k).run db = (.ok b, db') ↔
      ∃ lease, db.getLease leaseId = some lease ∧ (k lease).run db = (.ok b, db') := by
  simp [selectLease, Prog.run_bind_ok]

@[simp] theorem run_selectHandoff_bind_ok {α : Type} (handoffId : String)
    (k : HandoffRecord → Sql α) (db db' : MetadataDb) (b : α) :
    (selectHandoff handoffId >>= k).run db = (.ok b, db') ↔
      ∃ handoff, db.getHandoff handoffId = some handoff ∧ (k handoff).run db = (.ok b, db') := by
  simp [selectHandoff, Prog.run_bind_ok]

@[simp] theorem run_ensureDeviceNotRevokedConn_bind_ok {α : Type}
    (deviceId operation : String) (k : Unit → Sql α) (db db' : MetadataDb) (b : α) :
    (ensureDeviceNotRevokedConn deviceId operation >>= k).run db = (.ok b, db') ↔
      db.getDeviceRevocation deviceId = none ∧ (k ()).run db = (.ok b, db') := by
  simp only [ensureDeviceNotRevokedConn, Prog.run_bind_ok, Prog.run_query_bind]
  cases db.getDeviceRevocation deviceId with
  | none => simp [Unique.exists_iff]
  | some revocation => simp

theorem insertSessionRow?_eq_some {row : SessionRow} {db db' : MetadataDb}
    (h : insertSessionRow? row db = some db') :
    ∃ sessions, db.sessions.insert? row = some sessions ∧ db' = { db with sessions } := by
  unfold insertSessionRow? at h
  split at h
  · obtain ⟨sessions, hinsert, rfl⟩ := Option.map_eq_some_iff.mp h
    exact ⟨sessions, hinsert, rfl⟩
  · cases h

theorem insertSnapshotRow?_eq_some {row : SnapshotRow} {db db' : MetadataDb}
    (h : insertSnapshotRow? row db = some db') :
    ∃ snapshots, db.snapshots.insert? row = some snapshots ∧ db' = { db with snapshots } := by
  unfold insertSnapshotRow? at h
  split at h
  · obtain ⟨snapshots, hinsert, rfl⟩ := Option.map_eq_some_iff.mp h
    exact ⟨snapshots, hinsert, rfl⟩
  · cases h

theorem insertHandoffRow?_eq_some {row : HandoffRow} {db db' : MetadataDb}
    (h : insertHandoffRow? row db = some db') :
    ∃ handoffs, (db.projects.lookup row.projectId).isSome ∧
      db.handoffs.insert? row = some handoffs ∧ db' = { db with handoffs } := by
  unfold insertHandoffRow? at h
  split at h
  · rename_i hknown
    obtain ⟨handoffs, hinsert, rfl⟩ := Option.map_eq_some_iff.mp h
    exact ⟨handoffs, hknown, hinsert, rfl⟩
  · cases h

/-- The store with one more journal entry for the handoff. -/
def MetadataDb.journaled (handoff : HandoffRecord) (phase : HandoffJournalPhase)
    (detailJson : String) (createdAt : UInt64) (db : MetadataDb) : MetadataDb :=
  { db with
    handoffJournal := db.handoffJournal ++ [{
      journalId := db.handoffJournal.length + 1
      handoffId := handoff.handoffId
      leaseId := handoff.leaseId
      projectId := handoff.projectId
      phase := phase.asStr
      detailJson := detailJson
      createdAtUnixSeconds := asI64 createdAt }] }

theorem run_insertHandoffJournal_bind_ok {α : Type} {handoff : HandoffRecord}
    {phase : HandoffJournalPhase} {detailJson : String} {createdAt : UInt64}
    {k : HandoffJournalRecord → Sql α} {db db' : MetadataDb} {b : α}
    (h : (insertHandoffJournal handoff phase detailJson createdAt >>= k).run db =
      (.ok b, db')) :
    ∃ record, (k record).run (db.journaled handoff phase detailJson createdAt) = (.ok b, db') := by
  obtain ⟨record, u, hrun, hk⟩ := (Prog.run_bind_ok _ _ _ _ _).mp h
  simp only [insertHandoffJournal, Prog.run_attempt_bind_ok, Prog.run_query_bind,
    Prog.run_pure_ok] at hrun
  obtain ⟨v, hinsert, -, rfl⟩ := hrun
  unfold insertJournalRow? at hinsert
  split at hinsert
  · cases hinsert
    exact ⟨record, hk⟩
  · cases hinsert

/-- An entry of a stored handoff is written. -/
theorem run_insertHandoffJournal_bind {α : Type} (handoff : HandoffRecord)
    (phase : HandoffJournalPhase) (detailJson : String) (createdAt : UInt64)
    (k : HandoffJournalRecord → Sql α) {db : MetadataDb}
    (hstored : (db.handoffs.lookup handoff.handoffId).isSome)
    (hproject : (db.projects.lookup handoff.projectId).isSome) :
    ∃ record, (insertHandoffJournal handoff phase detailJson createdAt >>= k).run db =
      (k record).run (db.journaled handoff phase detailJson createdAt) := by
  have hrun : ∃ record, (insertHandoffJournal handoff phase detailJson createdAt).run db =
      (.ok record, db.journaled handoff phase detailJson createdAt) := by
    have hinsert : insertJournalRow? {
        journalId := 0
        handoffId := handoff.handoffId
        leaseId := handoff.leaseId
        projectId := handoff.projectId
        phase := phase.asStr
        detailJson := detailJson
        createdAtUnixSeconds := asI64 createdAt } db =
          some (db.journaled handoff phase detailJson createdAt) :=
      if_pos ⟨hstored, hproject⟩
    exact ⟨_, Prog.exec_attempt_bind rfl hinsert constraintError _⟩
  obtain ⟨record, hrun⟩ := hrun
  exact ⟨record, by rw [Prog.run_bind, hrun]⟩

theorem run_insertAuditEventTx_bind_ok {α : Type} {input : AuditEventInput}
    {createdAt : UInt64} {k : Unit → Sql α} {db db' : MetadataDb} {b : α}
    (h : (insertAuditEventTx input createdAt >>= k).run db = (.ok b, db')) :
    ∃ auditEvents, (k ()).run { db with auditEvents } = (.ok b, db') := by
  obtain ⟨_, u, hrun, hk⟩ := (Prog.run_bind_ok _ _ _ _ _).mp h
  simp only [insertAuditEventTx, Prog.run_ofExcept_bind_ok, Prog.run_write_ok] at hrun
  obtain ⟨_, -, rfl⟩ := hrun
  exact ⟨_, hk⟩

end DevRelay.Storage
