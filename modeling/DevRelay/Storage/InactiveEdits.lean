import DevRelay.Storage.StalePublish

/-!
# Inactive edits

The edits of an inactive workspace are stored as a fork, and the fork uses the
state of the lease up: it is inactive before and forked behind.  A later edit on
the same lease is refused, and nothing of it is written.
-/

namespace DevRelay.Storage

open DevRelay.Lib DevRelay.Core

/-! ## A fork that is valid -/

/-- A fork by the holder of the lease, apart from the state of the lease: the snapshot passes
validation, its session is the one of the lease, it is new and its parent is stored, the
device is not revoked, and no statement fails. -/
structure ForkValid (db : MetadataDb) (env : Env) (request : InactiveForkPublishRequest)
    (lease : LeaseRecord) : Prop where
  runs : env.fault = noFault
  stored : db.getLease request.leaseId = some lease
  project : lease.projectId = request.metadata.projectId
  session : lease.sessionId = request.sessionId
  holder : lease.holderDeviceId = some request.holderDeviceId
  notRevoked : db.getDeviceRevocation request.holderDeviceId = none
  metadataSession : request.metadata.sessionId = some request.sessionId
  metadataValid : request.metadata.validate = .ok ()
  projectStored : (db.projects.lookup request.metadata.projectId).isSome
  sessionStored : ∃ s, db.sessions.lookup request.sessionId = some s ∧
    s.projectId = request.metadata.projectId
  sessionFresh : db.sessions.lookup env.generatedSessionId = none
  fresh : db.snapshots.lookup request.metadata.snapshotId = none
  parent : ∀ p, (forkMetadata env lease request).parentSnapshotId = some p →
    p = request.metadata.snapshotId ∨ (db.snapshots.lookup p).isSome

/-- The edit is a pinned snapshot of a new fork session of the lease's session, and the lease
keeps its latest snapshot, its epoch and its holder. -/
structure PreservedAsFork (before after : MetadataDb) (request : InactiveForkPublishRequest)
    (lease : LeaseRecord) (fork : SessionRow) (row : SnapshotRow) : Prop where
  newSession : before.sessions.lookup fork.sessionId = none
  session : after.sessions.lookup fork.sessionId = some fork
  forked : fork.state = SessionState.fork.asStr
  parent : fork.parentSessionId = some lease.sessionId
  snapshot : after.snapshots.lookup request.metadata.snapshotId = some row
  inFork : row.sessionId = some fork.sessionId
  pinned : row.pinned = true
  content : row.metadata = { request.metadata with
    sessionId := row.sessionId, parentSnapshotId := row.parentSnapshotId }
  lease : after.getLease request.leaseId = some { lease with state := .forked }

section

variable {db : MetadataDb} {env : Env} {request : InactiveForkPublishRequest}
  {lease : LeaseRecord}

theorem validateTransitionTo_forked (hinactive : lease.state = .inactive) :
    lease.validateTransitionTo { lease with state := .forked } = .ok () := by
  unfold LeaseRecord.validateTransitionTo
  rw [hinactive]
  simp [LeaseState.canTransitionTo]

/-- The checks of a valid fork of an inactive lease. -/
theorem run_forkGuards_of_valid (h : ForkValid db env request lease)
    (hinactive : lease.state = .inactive) {s : SessionRow}
    (hs : db.sessions.lookup request.sessionId = some s)
    (hproject : s.projectId = request.metadata.projectId) :
    (forkGuards request).run db = (.ok (lease, storedSessionFromRow s), db) := by
  have hfilter : (some s).filter (fun r : SessionRow =>
      decide (r.projectId = request.metadata.projectId)) = some s :=
    Option.filter_eq_some_iff.mpr ⟨rfl, decide_eq_true hproject⟩
  rw [forkGuards, run_selectLease_bind _ h.stored, Prog.run_ensure_bind, if_pos h.project,
    Prog.run_ensure_bind, if_pos h.session, Prog.run_ensure_bind, if_pos h.holder,
    run_ensureDeviceNotRevokedConn_bind _ h.notRevoked, Prog.run_ensure_bind, if_pos hinactive,
    Prog.run_query_bind, hs, hfilter, validateTransitionTo_forked hinactive]
  rfl

/-- In any other state the fork is refused. -/
theorem run_forkGuards_of_not_inactive (h : ForkValid db env request lease)
    (hstate : lease.state ≠ .inactive) :
    (forkGuards request).run db = (.error (.config
      ("inactive edit fork requires inactive lease; found " ++ lease.state.asStr)), db) := by
  rw [forkGuards, run_selectLease_bind _ h.stored, Prog.run_ensure_bind, if_pos h.project,
    Prog.run_ensure_bind, if_pos h.session, Prog.run_ensure_bind, if_pos h.holder,
    run_ensureDeviceNotRevokedConn_bind _ h.notRevoked, Prog.run_ensure_bind, if_neg hstate]

theorem countWhere_forkable (hstored : db.getLease request.leaseId = some lease)
    (hinactive : lease.state = .inactive) :
    db.leases.countWhere (MetadataDb.forkable request.leaseId) = 1 := by
  obtain ⟨row, hrow, hread⟩ := Option.map_eq_some_iff.mp hstored
  have htext : row.state = LeaseState.inactive.asStr := by
    apply LeaseState.parse_eq_inactive
    rw [← hinactive, ← hread]
    rfl
  have hkey : ∀ r, MetadataDb.forkable request.leaseId r = true → r.leaseId = request.leaseId := by
    intro r hr
    simp only [MetadataDb.forkable, Bool.and_eq_true, decide_eq_true_eq] at hr
    exact hr.1
  have hsel : MetadataDb.forkable request.leaseId row = true := by
    simp [MetadataDb.forkable, Table.lookup_key hrow, htext]
  rw [Table.countWhere_of_key _ _ request.leaseId hkey, hrow, Option.any_some, if_pos hsel]

theorem validateAuditInput_snapshotForkedEvent (metadata : SnapshotMetadata) :
    validateAuditInput (snapshotForkedEvent env lease request metadata) = .ok () := by
  have hsummary : (snapshotForkedEvent env lease request metadata).summary =
      "inactive workspace snapshot stored as fork" := rfl
  unfold validateAuditInput
  rw [hsummary]
  decide

/-- The rows of a valid fork can be inserted. -/
theorem ForkValid.insertSession (h : ForkValid db env request lease) {s : SessionRow}
    (hproject : s.projectId = request.metadata.projectId) :
    ∃ sessions, db.sessions.insert? (forkSessionRow env (storedSessionFromRow s)) =
        some sessions ∧
      insertSessionRow? (forkSessionRow env (storedSessionFromRow s)) db =
        some { db with sessions } := by
  obtain ⟨sessions, hinsert⟩ := Table.insert?_isSome (t := db.sessions)
    (r := forkSessionRow env (storedSessionFromRow s)) h.sessionFresh
  refine ⟨sessions, hinsert, ?_⟩
  have hstored : (db.projects.lookup
      (forkSessionRow env (storedSessionFromRow s)).projectId).isSome := by
    show (db.projects.lookup s.projectId).isSome
    rw [hproject]
    exact h.projectStored
  unfold insertSessionRow?
  rw [if_pos hstored, hinsert]
  rfl

theorem ForkValid.insertSnapshot (h : ForkValid db env request lease) {s : SessionRow}
    {sessions : Table SessionRow.sessionId}
    (hsessions : db.sessions.insert? (forkSessionRow env (storedSessionFromRow s)) =
      some sessions) :
    ∃ snapshots, db.snapshots.insert? (forkedRow env db lease request) = some snapshots ∧
      insertSnapshotRow? (forkedRow env db lease request) { db with sessions } =
        some { db with sessions, snapshots } := by
  obtain ⟨snapshots, hinsert⟩ := Table.insert?_isSome (t := db.snapshots)
    (r := forkedRow env db lease request) h.fresh
  refine ⟨snapshots, hinsert, ?_⟩
  have hinSession : ∀ id ∈ (forkedRow env db lease request).sessionId,
      (sessions.lookup id).isSome := by
    intro id hid
    cases hid
    rw [Table.lookup_insert? hsessions]
    simp [forkSessionRow]
  unfold insertSnapshotRow?
  rw [if_pos ⟨h.projectStored, hinSession, h.parent⟩, hinsert]
  rfl

theorem forkMetadata_valid (h : ForkValid db env request lease) :
    (forkMetadata env lease request).validate = .ok () := by
  unfold forkMetadata
  rw [SnapshotMetadata.validate_withSession]
  exact h.metadataValid

/-- A valid fork of an inactive lease is taken. -/
theorem fork_accepted (h : ForkValid db env request lease) (hinactive : lease.state = .inactive) :
    ∃ result parent sessions snapshots auditEvents,
      parent.sessionId = request.sessionId ∧
      db.sessions.insert? (forkSessionRow env parent) = some sessions ∧
      db.snapshots.insert? (forkedRow env db lease request) = some snapshots ∧
      publishInactiveSnapshotAsFork env request db =
        (.ok result, { db.forkLease request.leaseId with sessions, snapshots, auditEvents }) := by
  obtain ⟨s, hs, hproject⟩ := h.sessionStored
  obtain ⟨sessions, hsessions, hsessionRow⟩ := h.insertSession hproject
  obtain ⟨snapshots, hsnapshots, hsnapshotRow⟩ := h.insertSnapshot hsessions
  have hguards := run_forkGuards_of_valid h hinactive hs hproject
  have hcount := countWhere_forkable h.stored hinactive
  let result : InactiveForkPublishResult := {
    forkSession := forkStoredSession env (storedSessionFromRow s)
    snapshot := forkStoredSnapshot env (forkMetadata env lease request) (forkLabel request)
      (db.nextSequenceNumber request.metadata.projectId)
    canonicalLatestSnapshotId := lease.latestSnapshotId }
  obtain ⟨auditEvents, haudit⟩ := run_insertAuditEventTx_bind
    (forkMetadata env lease request).createdAtUnixSeconds
    (fun _ => (Prog.commitWith (.ok result) :
      Sql (Ending (Except DevRelayError InactiveForkPublishResult))))
    (({ db with sessions, snapshots } : MetadataDb).forkLease request.leaseId)
    (validateAuditInput_snapshotForkedEvent (forkMetadata env lease request))
  have hrun : (publishInactiveSnapshotAsForkBody env request).run db =
      (.ok (.committed (.ok result)),
        { db.forkLease request.leaseId with sessions, snapshots, auditEvents }) := by
    unfold publishInactiveSnapshotAsForkBody
    rw [Prog.run_bind, hguards]
    dsimp only
    rw [Prog.run_attempt_bind_ok]
    refine ⟨_, hsessionRow, ?_⟩
    rw [forkMetadata_valid h, Prog.run_ofExcept_bind_ok]
    refine ⟨(), rfl, ?_⟩
    rw [Prog.run_query_bind, Prog.run_attempt_bind_ok]
    refine ⟨_, hsnapshotRow, ?_⟩
    rw [Prog.run_update_bind, Prog.run_ensure_bind]
    rw [if_pos hcount]
    exact haudit
  refine ⟨result, storedSessionFromRow s, sessions, snapshots, auditEvents, ?_, hsessions,
    hsnapshots, ?_⟩
  · have hkey := Table.lookup_key hs
    exact hkey
  · unfold publishInactiveSnapshotAsFork
    rw [if_neg (not_not.mpr h.metadataSession), h.runs, Prog.transaction_noFault, hrun]

/-- In any other state it is refused, and nothing is written. -/
theorem fork_refused (h : ForkValid db env request lease) (hstate : lease.state ≠ .inactive) :
    publishInactiveSnapshotAsFork env request db =
      (.error (.config ("inactive edit fork requires inactive lease; found " ++
        lease.state.asStr)), db) := by
  have hguards := run_forkGuards_of_not_inactive h hstate
  have hrun : (publishInactiveSnapshotAsForkBody env request).run db =
      (.error (.config ("inactive edit fork requires inactive lease; found " ++
        lease.state.asStr)), db) := by
    rw [publishInactiveSnapshotAsForkBody, Prog.run_bind, hguards]
  unfold publishInactiveSnapshotAsFork
  rw [if_neg (not_not.mpr h.metadataSession), h.runs, Prog.transaction_noFault, hrun]

/-- What a fork that is taken leaves. -/
theorem preserved_of_accepted (h : ForkValid db env request lease)
    (hinactive : lease.state = .inactive) :
    ∃ fork row, PreservedAsFork db (publishInactiveSnapshotAsFork env request db).2 request
      lease fork row := by
  obtain ⟨result, parent, sessions, snapshots, auditEvents, hparent, hsessions, hsnapshots,
    heq⟩ := fork_accepted h hinactive
  have hledger := MetadataDb.ledger_forkLease h.stored hinactive
  refine ⟨forkSessionRow env parent, forkedRow env db lease request, ?_⟩
  rw [heq]
  refine ⟨h.sessionFresh, ?_, rfl, ?_, ?_, rfl, rfl, rfl, ?_⟩
  · rw [Table.lookup_insert? hsessions]
    exact if_pos rfl
  · show some parent.sessionId = some lease.sessionId
    rw [hparent, h.session]
  · rw [Table.lookup_insert? hsnapshots]
    exact if_pos rfl
  · have hlease : (db.forkLease request.leaseId).getLease request.leaseId =
        (db.ledger.fork request.leaseId).lease request.leaseId :=
      congrFun (congrArg Ledger.lease hledger) request.leaseId
    show (db.forkLease request.leaseId).getLease request.leaseId = _
    rw [hlease]
    exact alterAt_self h.stored

end

/-! ## Runs -/

theorem snapshots_upsertLeaseRow? {row : LeaseRow} {db db' : MetadataDb}
    (h : upsertLeaseRow? row db = some db') : db'.snapshots = db.snapshots := by
  unfold upsertLeaseRow? at h
  split at h
  · split at h
    · cases h
      rfl
    · cases h
      rfl
  · cases h

theorem snapshots_upsertLease (env : Env) (lease : LeaseRecord) (db : MetadataDb) :
    (upsertLease env lease db).2.snapshots = db.snapshots := by
  have hkept : (Prog.attempt (upsertLeaseRow? (leaseRowOf lease)) constraintError :
      Sql Unit).Ensures (fun t => t.snapshots = db.snapshots) (fun _ _ => True) db := by
    apply Prog.ensures_attempt (I := fun t : MetadataDb => t.snapshots = db.snapshots) rfl
    intro t ht
    exact ⟨snapshots_upsertLeaseRow? ht, trivial⟩
  exact Prog.exec_ensures (I := fun t : MetadataDb => t.snapshots = db.snapshots) env.fault 0 _ db
    rfl hkept

theorem leaseStep_snapshotsKept (db : MetadataDb) (call : LeaseCall) :
    SnapshotsKept db (leaseStep db call) := by
  cases call with
  | upsertLease env lease =>
    intro s row hrow
    show (upsertLease env lease db).2.snapshots.lookup s = some row
    rw [snapshots_upsertLease]
    exact hrow
  | call call => exact (step_position db call).1

section

variable {start : MetadataDb} {calls : List LeaseCall} {n : Nat} {env : Env}
  {reread : Option DevRelayError} {request : InactiveForkPublishRequest} {lease : LeaseRecord}

/-- In every run, an edit that the holder of an inactive lease publishes is preserved as a fork,
for the rest of the run.  It leaves the lease forked, and an edit on a lease that is not
inactive is refused.  A refused edit changes nothing. -/
theorem inactive_edit_outcome (hn : n < calls.length)
    (hcall : calls[n] = .call ⟨env, .publishInactiveSnapshotAsFork request, reread⟩)
    (hvalid : ForkValid (leaseStoreAt start calls n) env request lease) :
    (lease.state = .inactive → ∃ fork row,
      PreservedAsFork (leaseStoreAt start calls n) (leaseStoreAt start calls (n + 1)) request
        lease fork row ∧
      ∀ m, n < m → (leaseStoreAt start calls m).snapshots.lookup request.metadata.snapshotId =
        some row) ∧
    (lease.state ≠ .inactive →
      publishInactiveSnapshotAsFork env request (leaseStoreAt start calls n) =
        (.error (.config ("inactive edit fork requires inactive lease; found " ++
          lease.state.asStr)), leaseStoreAt start calls n) ∧
      leaseStoreAt start calls (n + 1) = leaseStoreAt start calls n) := by
  have hstep : leaseStoreAt start calls (n + 1) =
      (publishInactiveSnapshotAsFork env request (leaseStoreAt start calls n)).2 := by
    rw [leaseStoreAt_succ hn, hcall]
    rfl
  constructor
  · intro hinactive
    obtain ⟨fork, row, hpreserved⟩ := preserved_of_accepted hvalid hinactive
    rw [← hstep] at hpreserved
    refine ⟨fork, row, hpreserved, ?_⟩
    intro m hm
    exact stateAt_stable
      (P := fun db : MetadataDb =>
        db.snapshots.lookup request.metadata.snapshotId = some row)
      (fun db call hrow => leaseStep_snapshotsKept db call _ _ hrow) hm hpreserved.snapshot
  · intro hstate
    have hrefused := fork_refused hvalid hstate
    refine ⟨hrefused, ?_⟩
    rw [hstep, hrefused]

end

/-! ## The second edit -/

/-- The lease of the demo store, gone inactive. -/
def demoInactiveLease : LeaseRecord :=
  { demoLease 7 "device-a" with state := .inactive }

def demoEdit (snapshotId : String) : InactiveForkPublishRequest where
  leaseId := "lease-1"
  sessionId := "session-1"
  holderDeviceId := "device-a"
  metadata := demoMetadata snapshotId none
  label := none

/-- Two edits of the same inactive workspace. -/
def demoEdits : List LeaseCall := [
  .upsertLease (demoEnv 100) demoInactiveLease,
  .call ⟨demoEnv 110, .publishInactiveSnapshotAsFork (demoEdit "s1_000000000000000000000001"),
      none⟩,
  .call ⟨{ demoEnv 120 with generatedSessionId := "se_2" },
    .publishInactiveSnapshotAsFork (demoEdit "s1_000000000000000000000002"), none⟩]

theorem demoEdits_first :
    ForkValid (leaseStoreAt demoStore demoEdits 1) (demoEnv 110)
      (demoEdit "s1_000000000000000000000001") demoInactiveLease :=
  ⟨rfl, by decide, by decide, by decide, by decide, by decide, by decide, by decide, by decide,
    by decide, by decide, by decide, by decide⟩

theorem demoEdits_second :
    ForkValid (leaseStoreAt demoStore demoEdits 2)
      { demoEnv 120 with generatedSessionId := "se_2" }
      (demoEdit "s1_000000000000000000000002") { demoInactiveLease with state := .forked } :=
  ⟨rfl, by decide, by decide, by decide, by decide, by decide, by decide, by decide, by decide,
    by decide, by decide, by decide, by decide⟩

/-- The second edit is as valid as the first one, and it is not preserved. -/
theorem not_every_inactive_edit_preserved :
    ¬∀ (start : MetadataDb) (calls : List LeaseCall) (m n : Nat) (env : Env)
      (reread : Option DevRelayError) (request : InactiveForkPublishRequest)
      (gone lease : LeaseRecord) (_ : m ≤ n)
      (hn : n < calls.length),
      (leaseStoreAt start calls m).getLease request.leaseId = some gone →
      gone.state = .inactive →
      calls[n] = .call ⟨env, .publishInactiveSnapshotAsFork request, reread⟩ →
      ForkValid (leaseStoreAt start calls n) env request lease →
      ∃ fork row, PreservedAsFork (leaseStoreAt start calls n) (leaseStoreAt start calls (n + 1))
        request lease fork row := by
  intro h
  obtain ⟨fork, row, hpreserved⟩ := h demoStore demoEdits 1 2 _ none _ demoInactiveLease _
    (by decide) (by decide) (by decide) rfl rfl demoEdits_second
  have hnone : (leaseStoreAt demoStore demoEdits 3).snapshots.lookup
      "s1_000000000000000000000002" = none := by
    decide
  have hsome := hpreserved.snapshot
  cases hnone.symm.trans hsome

/-- The first edit is preserved, the second one refused. -/
theorem inactive_edit_outcome_demo :
    (∃ fork row, PreservedAsFork (leaseStoreAt demoStore demoEdits 1)
        (leaseStoreAt demoStore demoEdits 2) (demoEdit "s1_000000000000000000000001")
        demoInactiveLease fork row ∧
      ∀ m, 1 < m → (leaseStoreAt demoStore demoEdits m).snapshots.lookup
        "s1_000000000000000000000001" = some row) ∧
    leaseStoreAt demoStore demoEdits 3 = leaseStoreAt demoStore demoEdits 2 :=
  ⟨(inactive_edit_outcome (by decide) rfl demoEdits_first).1 rfl,
    ((inactive_edit_outcome (by decide) rfl demoEdits_second).2 (by decide)).2⟩

end DevRelay.Storage
