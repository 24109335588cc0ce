import DevRelay.Storage.Publish

/-!
# What a publish can do

One lemma for each of the canonical publish, the fork of an inactive workspace
and the revocation, in the form of the handoff lemmas.
-/

namespace DevRelay.Storage

open DevRelay.Lib DevRelay.Core

/-! ## Canonical publish -/

/-- The guards of a canonical publish, against the lease it reads. -/
structure PublishAdmitted (db : MetadataDb) (request : CanonicalPublishRequest)
    (lease : LeaseRecord) : Prop where
  stored : db.getLease request.leaseId = some lease
  project : lease.projectId = request.metadata.projectId
  session : lease.sessionId = request.sessionId
  sessionStored : ∃ s ∈ db.sessions.lookup request.sessionId,
    s.projectId = request.metadata.projectId
  holder : lease.holderDeviceId = some request.holderDeviceId
  notRevoked : db.getDeviceRevocation request.holderDeviceId = none
  active : lease.state = .active

theorem run_publishGuards_bind_ok {α : Type} (request : CanonicalPublishRequest)
    (k : LeaseRecord → Sql α) (db db' : MetadataDb) (b : α) :
    (publishGuards request >>= k).run db = (.ok b, db') ↔
      ∃ lease, PublishAdmitted db request lease ∧ (k lease).run db = (.ok b, db') := by
  rw [Prog.run_bind_ok]
  simp only [publishGuards, run_selectLease_bind_ok, Prog.run_ensure_bind_ok,
    Prog.run_query_bind, run_ensureDeviceNotRevokedConn_bind_ok, Prog.run_pure_ok]
  constructor
  · rintro ⟨_, _, ⟨lease, h₁, h₂, h₃, h₄, h₅, h₆, h₇, rfl, rfl⟩, hk⟩
    exact ⟨lease, ⟨h₁, h₂, h₃, h₄, h₅, h₆, h₇⟩, hk⟩
  · rintro ⟨lease, ⟨h₁, h₂, h₃, h₄, h₅, h₆, h₇⟩, hk⟩
    exact ⟨lease, db, ⟨lease, h₁, h₂, h₃, h₄, h₅, h₆, h₇, rfl, rfl⟩, hk⟩

/-- The row a canonical publish inserts. -/
def publishedRow (db : MetadataDb) (request : CanonicalPublishRequest) : SnapshotRow :=
  canonicalSnapshotRow request (db.nextSequenceNumber request.metadata.projectId)

private theorem publishSnapshotCanonicalBody_run {request : CanonicalPublishRequest}
    {db db' : MetadataDb} {ending : Ending (Except DevRelayError CanonicalPublishResult)}
    (h : (publishSnapshotCanonicalBody request).run db = (.ok ending, db')) :
    ∃ lease snapshots auditEvents, PublishAdmitted db request lease ∧
      db.snapshots.insert? (publishedRow db request) = some snapshots ∧
      ((∃ err, publishStaleError lease request = some err ∧
          ending = .committed (.error err) ∧
          db' = { db with snapshots, auditEvents }) ∨
        (∃ result, publishStaleError lease request = none ∧
          ending = .committed (.ok result) ∧
          db' = ({ db with snapshots, auditEvents } : MetadataDb).advanceLatest
            request.leaseId request.metadata.snapshotId)) := by
  simp only [publishSnapshotCanonicalBody, run_publishGuards_bind_ok,
    Prog.run_query_bind, Prog.run_attempt_bind_ok] at h
  obtain ⟨lease, hadmitted, u, hrow, h⟩ := h
  obtain ⟨snapshots, hinsert, rfl⟩ := insertSnapshotRow?_eq_some hrow
  cases hstale : publishStaleError lease request with
  | some err =>
    rw [hstale] at h
    obtain ⟨auditEvents, h⟩ := run_insertAuditEventTx_bind_ok h
    simp only [Prog.run_commitWith_ok] at h
    obtain ⟨rfl, rfl⟩ := h
    exact ⟨lease, snapshots, auditEvents, hadmitted, hinsert, Or.inl ⟨err, hstale, rfl, rfl⟩⟩
  | none =>
    rw [hstale] at h
    simp only [Prog.run_write_bind] at h
    obtain ⟨auditEvents, h⟩ := run_insertAuditEventTx_bind_ok h
    simp only [Prog.run_commitWith_ok] at h
    obtain ⟨rfl, rfl⟩ := h
    exact ⟨lease, snapshots, auditEvents, hadmitted, hinsert, Or.inr ⟨_, hstale, rfl, rfl⟩⟩

theorem publishSnapshotCanonical_cases (env : Env) (request : CanonicalPublishRequest)
    (db : MetadataDb) :
    (∃ e, publishSnapshotCanonical env request db = (.error e, db)) ∨
      ∃ lease snapshots auditEvents, PublishAdmitted db request lease ∧
        db.snapshots.insert? (publishedRow db request) = some snapshots ∧
        ((∃ err, publishStaleError lease request = some err ∧
            publishSnapshotCanonical env request db =
              (.error err, { db with snapshots, auditEvents })) ∨
          (∃ result, publishStaleError lease request = none ∧
            publishSnapshotCanonical env request db =
              (.ok result, ({ db with snapshots, auditEvents } : MetadataDb).advanceLatest
                  request.leaseId request.metadata.snapshotId))) := by
  unfold publishSnapshotCanonical
  split
  · exact Or.inl ⟨_, rfl⟩
  · rcases Prog.transaction_cases env.fault (publishSnapshotCanonicalBody request) db with
      herror | ⟨r, hrun, -⟩ | ⟨r, db', hrun, htx⟩
    · exact Or.inl herror
    · obtain ⟨_, _, _, _, _, ⟨_, _, hending, _⟩ | ⟨_, _, hending, _⟩⟩ :=
        publishSnapshotCanonicalBody_run hrun
      · cases hending
      · cases hending
    · obtain ⟨lease, snapshots, auditEvents, hadmitted, hinsert,
        ⟨err, hstale, hending, rfl⟩ | ⟨result, hstale, hending, rfl⟩⟩ :=
        publishSnapshotCanonicalBody_run hrun
      · cases hending
        exact Or.inr ⟨lease, snapshots, auditEvents, hadmitted, hinsert, Or.inl ⟨err, hstale, htx⟩⟩
      · cases hending
        exact Or.inr ⟨lease, snapshots, auditEvents, hadmitted, hinsert,
          Or.inr ⟨result, hstale, htx⟩⟩

/-- An expectation that matches the lease is not stale. -/
theorem publishStaleError_eq_none {lease : LeaseRecord} {request : CanonicalPublishRequest} :
    publishStaleError lease request = none ↔
      lease.epoch = request.expectedEpoch ∧
        lease.latestSnapshotId = request.expectedLatestSnapshotId := by
  unfold publishStaleError
  split
  · rename_i hepoch
    simp [hepoch]
  · rename_i hepoch
    split
    · rename_i hlatest
      simp [hlatest]
    · rename_i hlatest
      exact ⟨fun _ => ⟨not_not.mp hepoch, not_not.mp hlatest⟩, fun _ => rfl⟩

/-! ## Fork of an inactive workspace -/

/-- The guards of a fork, against the lease and the session it reads. -/
structure ForkAdmitted (db : MetadataDb) (request : InactiveForkPublishRequest)
    (lease : LeaseRecord) (parent : StoredSession) : Prop where
  stored : db.getLease request.leaseId = some lease
  project : lease.projectId = request.metadata.projectId
  session : lease.sessionId = request.sessionId
  holder : lease.holderDeviceId = some request.holderDeviceId
  notRevoked : db.getDeviceRevocation request.holderDeviceId = none
  inactive : lease.state = .inactive
  parentStored : ∃ s ∈ db.sessions.lookup request.sessionId,
    s.projectId = request.metadata.projectId ∧ parent = storedSessionFromRow s

theorem run_forkGuards_bind_ok {α : Type} {request : InactiveForkPublishRequest}
    {k : LeaseRecord × StoredSession → Sql α} {db db' : MetadataDb} {b : α}
    (h : (forkGuards request >>= k).run db = (.ok b, db')) :
    ∃ lease parent, ForkAdmitted db request lease parent ∧
      (k (lease, parent)).run db = (.ok b, db') := by
  rw [Prog.run_bind_ok] at h
  simp only [forkGuards, run_selectLease_bind_ok, Prog.run_ensure_bind_ok,
    Prog.run_query_bind, run_ensureDeviceNotRevokedConn_bind_ok,
    Prog.run_orFail_bind_ok, Prog.run_ofExcept_bind_ok, Prog.run_pure_ok] at h
  obtain ⟨_, _, ⟨lease, h₁, h₂, h₃, h₄, h₅, h₆, parent, hparent, _, -, rfl, rfl⟩, hk⟩ := h
  obtain ⟨s, hs, rfl⟩ := Option.map_eq_some_iff.mp hparent
  obtain ⟨hrow, hproject⟩ := Option.filter_eq_some_iff.mp hs
  exact ⟨lease, _, ⟨h₁, h₂, h₃, h₄, h₅, h₆, s, hrow, by simpa using hproject, rfl⟩, hk⟩

/-- The row a fork inserts. -/
def forkedRow (env : Env) (db : MetadataDb) (lease : LeaseRecord)
    (request : InactiveForkPublishRequest) : SnapshotRow :=
  forkSnapshotRow env (forkMetadata env lease request) (forkLabel request)
    (db.nextSequenceNumber request.metadata.projectId)

private theorem publishInactiveSnapshotAsForkBody_run {env : Env}
    {request : InactiveForkPublishRequest} {db db' : MetadataDb}
    {ending : Ending (Except DevRelayError InactiveForkPublishResult)}
    (h : (publishInactiveSnapshotAsForkBody env request).run db = (.ok ending, db')) :
    ∃ lease parent sessions snapshots auditEvents result,
      ForkAdmitted db request lease parent ∧
      db.sessions.insert? (forkSessionRow env parent) = some sessions ∧
      db.snapshots.insert? (forkedRow env db lease request) = some snapshots ∧
      ending = .committed (.ok result) ∧
      db' = { db.forkLease request.leaseId with sessions, snapshots, auditEvents } := by
  simp only [publishInactiveSnapshotAsForkBody] at h
  obtain ⟨lease, parent, hadmitted, h⟩ := run_forkGuards_bind_ok h
  simp only [Prog.run_attempt_bind_ok, Prog.run_ofExcept_bind_ok, Prog.run_query_bind,
    Prog.run_update_bind, Prog.run_ensure_bind_ok] at h
  obtain ⟨u, hsession, _, -, v, hsnapshot, -, h⟩ := h
  obtain ⟨sessions, hsessions, rfl⟩ := insertSessionRow?_eq_some hsession
  obtain ⟨snapshots, hsnapshots, rfl⟩ := insertSnapshotRow?_eq_some hsnapshot
  obtain ⟨auditEvents, h⟩ := run_insertAuditEventTx_bind_ok h
  simp only [Prog.run_commitWith_ok] at h
  obtain ⟨rfl, rfl⟩ := h
  exact ⟨lease, parent, sessions, snapshots, auditEvents, _, hadmitted, hsessions,
    hsnapshots, rfl, rfl⟩

theorem publishInactiveSnapshotAsFork_cases (env : Env)
    (request : InactiveForkPublishRequest) (db : MetadataDb) :
    (∃ e, publishInactiveSnapshotAsFork env request db = (.error e, db)) ∨
      ∃ lease parent sessions snapshots auditEvents result,
        ForkAdmitted db request lease parent ∧
        db.sessions.insert? (forkSessionRow env parent) = some sessions ∧
        db.snapshots.insert? (forkedRow env db lease request) = some snapshots ∧
        publishInactiveSnapshotAsFork env request db =
          (.ok result, { db.forkLease request.leaseId with sessions, snapshots, auditEvents }) := by
  unfold publishInactiveSnapshotAsFork
  split
  · exact Or.inl ⟨_, rfl⟩
  · rcases Prog.transaction_cases env.fault
        (publishInactiveSnapshotAsForkBody env request) db with
      herror | ⟨r, hrun, -⟩ | ⟨r, db', hrun, htx⟩
    · exact Or.inl herror
    · obtain ⟨_, _, _, _, _, _, _, _, _, hending, _⟩ :=
        publishInactiveSnapshotAsForkBody_run hrun
      cases hending
    · obtain ⟨lease, parent, sessions, snapshots, auditEvents, result, hadmitted,
        hsessions, hsnapshots, hending, rfl⟩ := publishInactiveSnapshotAsForkBody_run hrun
      cases hending
      exact Or.inr ⟨lease, parent, sessions, snapshots, auditEvents, result, hadmitted,
        hsessions, hsnapshots, htx⟩

/-! ## Revocation -/

theorem upsertRevocation_eq (row : DeviceRevocationRow) (db : MetadataDb) :
    ∃ deviceRevocations, upsertRevocation row db = { db with deviceRevocations } := by
  unfold upsertRevocation
  split
  · exact ⟨_, rfl⟩
  · exact ⟨_, rfl⟩

/-- A revocation is one upsert and its audit event. -/
theorem revokeDevice_upserts (env : Env) (deviceId revokedByDeviceId reason : String)
    (keyRotationRequired : Bool) (db : MetadataDb) :
    (∃ e, revokeDevice env deviceId revokedByDeviceId reason keyRotationRequired db =
        (.error e, db)) ∨
      ∃ record row auditEvents, row.deviceId = deviceId ∧
        revokeDevice env deviceId revokedByDeviceId reason keyRotationRequired db =
          (.ok record, { upsertRevocation row db with auditEvents }) := by
  have hbody : ∀ ending db',
      (revokeDeviceAtBody deviceId revokedByDeviceId reason keyRotationRequired
        env.unixNowSeconds).run db = (.ok ending, db') →
      ∃ record row auditEvents, row.deviceId = deviceId ∧
        ending = .committed (.ok record) ∧ db' = { upsertRevocation row db with auditEvents } := by
    intro ending db' h
    simp only [revokeDeviceAtBody, Prog.run_write_bind] at h
    obtain ⟨auditEvents, h⟩ := run_insertAuditEventTx_bind_ok h
    simp only [Prog.run_commitWith_ok] at h
    obtain ⟨rfl, rfl⟩ := h
    exact ⟨_, _, auditEvents, rfl, rfl, rfl⟩
  unfold revokeDevice
  split
  · exact Or.inl ⟨_, rfl⟩
  · rcases Prog.transaction_cases env.fault (revokeDeviceAtBody deviceId
        revokedByDeviceId reason keyRotationRequired env.unixNowSeconds) db with
      herror | ⟨r, hrun, -⟩ | ⟨r, db', hrun, htx⟩
    · exact Or.inl herror
    · obtain ⟨_, _, _, _, hending, -⟩ := hbody _ _ hrun
      cases hending
    · obtain ⟨record, row, auditEvents, hrow, hending, rfl⟩ := hbody _ _ hrun
      cases hending
      exact Or.inr ⟨record, row, auditEvents, hrow, htx⟩

theorem revokeDevice_cases (env : Env) (deviceId revokedByDeviceId reason : String)
    (keyRotationRequired : Bool) (db : MetadataDb) :
    (∃ e, revokeDevice env deviceId revokedByDeviceId reason keyRotationRequired db =
        (.error e, db)) ∨
      ∃ record deviceRevocations auditEvents,
        revokeDevice env deviceId revokedByDeviceId reason keyRotationRequired db =
          (.ok record, { db with deviceRevocations, auditEvents }) := by
  rcases revokeDevice_upserts env deviceId revokedByDeviceId reason keyRotationRequired db
    with herror | ⟨record, row, auditEvents, -, heq⟩
  · exact Or.inl herror
  · obtain ⟨deviceRevocations, hupsert⟩ := upsertRevocation_eq row db
    rw [hupsert] at heq
    exact Or.inr ⟨record, deviceRevocations, auditEvents, heq⟩

end DevRelay.Storage
