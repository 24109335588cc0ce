import DevRelay.Storage.CanonicalLatest

/-!
# Stale publishes

What becomes of a publish whose caller has an old view of the lease.  An old
epoch or an old latest snapshot is noticed after the snapshot row is written: the
row stays, off the canonical chain.  Another holder or another lease state is
noticed before, and nothing is written.
-/

namespace DevRelay.Storage

open DevRelay.Lib DevRelay.Core

/-- A publish that is valid apart from its view of the lease: the metadata passes
validation, project and session are those of the lease and are stored, the device
is not revoked, the snapshot is new and its parent is stored. -/
structure PublishValid (db : MetadataDb) (request : CanonicalPublishRequest)
    (l : LeaseRecord) : Prop where
  precheck : publishPrecheck request = .ok ()
  stored : db.getLease request.leaseId = some l
  project : l.projectId = request.metadata.projectId
  session : l.sessionId = request.sessionId
  projectStored : (db.projects.lookup request.metadata.projectId).isSome
  sessionStored : ∃ s ∈ db.sessions.lookup request.sessionId,
    s.projectId = request.metadata.projectId
  notRevoked : db.getDeviceRevocation request.holderDeviceId = none
  fresh : db.snapshots.lookup request.metadata.snapshotId = none
  parent : ∀ p ∈ request.metadata.parentSnapshotId,
    p = request.metadata.snapshotId ∨ (db.snapshots.lookup p).isSome

section

variable {db : MetadataDb} {request : CanonicalPublishRequest} {l : LeaseRecord}

theorem run_selectLease_bind {α : Type} {leaseId : String} (k : LeaseRecord → Sql α)
    (h : db.getLease leaseId = some l) :
    (selectLease leaseId >>= k).run db = (k l).run db := by
  have hselect : (selectLease leaseId).run db = (.ok l, db) := by
    rw [selectLease, Prog.run_query_bind, h]
    rfl
  rw [Prog.run_bind, hselect]

theorem run_ensureDeviceNotRevokedConn_bind {α : Type} {deviceId operation : String}
    (k : Unit → Sql α) (h : db.getDeviceRevocation deviceId = none) :
    (ensureDeviceNotRevokedConn deviceId operation >>= k).run db = (k ()).run db := by
  have hensure : (ensureDeviceNotRevokedConn deviceId operation).run db = (.ok (), db) := by
    rw [ensureDeviceNotRevokedConn, Prog.run_query_bind, h]
    rfl
  rw [Prog.run_bind, hensure]

theorem run_insertAuditEventTx_bind {α : Type} {input : AuditEventInput}
    (createdAt : UInt64) (k : Unit → Sql α) (db : MetadataDb)
    (h : validateAuditInput input = .ok ()) :
    ∃ auditEvents, (insertAuditEventTx input createdAt >>= k).run db =
      (k ()).run { db with auditEvents } := by
  refine ⟨db.auditEvents ++ [{
    auditId := db.auditEvents.length + 1
    input := input
    createdAtUnixSeconds := asI64 createdAt }], ?_⟩
  rw [Prog.run_bind, insertAuditEventTx, h]
  rfl

theorem validateAuditInput_snapshotPublishedEvent (l : LeaseRecord)
    (request : CanonicalPublishRequest) :
    validateAuditInput (snapshotPublishedEvent l request) = .ok () := by
  have hsummary : (snapshotPublishedEvent l request).summary =
        "snapshot stored without advancing canonical latest" ∨
      (snapshotPublishedEvent l request).summary =
        "snapshot published as canonical latest" := by
    unfold snapshotPublishedEvent
    by_cases hstale : (publishStaleError l request).isSome
    · simp [hstale, AuditEventInput.new]
    · simp [hstale, AuditEventInput.new]
  unfold validateAuditInput
  rcases hsummary with h | h
  · rw [h]
    decide
  · rw [h]
    decide

/-- The snapshot row of a valid publish can be inserted. -/
theorem PublishValid.insert (h : PublishValid db request l) :
    ∃ snapshots, db.snapshots.insert? (publishedRow db request) = some snapshots ∧
      insertSnapshotRow? (publishedRow db request) db = some { db with snapshots } := by
  obtain ⟨snapshots, hinsert⟩ :=
    Table.insert?_isSome (t := db.snapshots) (r := publishedRow db request) h.fresh
  refine ⟨snapshots, hinsert, ?_⟩
  have hsession : ∀ s ∈ (publishedRow db request).sessionId,
      (db.sessions.lookup s).isSome := by
    intro s hs
    cases hs
    obtain ⟨row, hrow, -⟩ := h.sessionStored
    rw [Option.mem_def.mp hrow]
    rfl
  unfold insertSnapshotRow?
  rw [if_pos ⟨h.projectStored, hsession, h.parent⟩, hinsert]
  rfl

/-- With the holder and the state as expected, a stale publish stores its row and
says that it is stale. -/
theorem publish_stale {env : Env} {err : DevRelayError} (henv : env.fault = noFault)
    (h : PublishValid db request l) (hholder : l.holderDeviceId = some request.holderDeviceId)
    (hactive : l.state = .active) (hstale : publishStaleError l request = some err) :
    ∃ snapshots auditEvents,
      db.snapshots.insert? (publishedRow db request) = some snapshots ∧
      publishSnapshotCanonical env request db =
        (.error err, { db with snapshots, auditEvents }) := by
  obtain ⟨snapshots, hinsert, hrow⟩ := h.insert
  have hadmitted : PublishAdmitted db request l :=
    ⟨h.stored, h.project, h.session, h.sessionStored, hholder, h.notRevoked, hactive⟩
  obtain ⟨auditEvents, haudit⟩ := run_insertAuditEventTx_bind
    request.metadata.createdAtUnixSeconds
    (fun _ => (Prog.commitWith (.error err) :
      Sql (Ending (Except DevRelayError CanonicalPublishResult))))
    { db with snapshots } (validateAuditInput_snapshotPublishedEvent l request)
  have hrun : (publishSnapshotCanonicalBody request).run db =
      (.ok (.committed (.error err)), { db with snapshots, auditEvents }) := by
    unfold publishSnapshotCanonicalBody
    rw [run_publishGuards_bind_ok]
    refine ⟨l, hadmitted, ?_⟩
    rw [Prog.run_query_bind, Prog.run_attempt_bind_ok]
    refine ⟨_, hrow, ?_⟩
    rw [hstale]
    exact haudit
  refine ⟨snapshots, auditEvents, hinsert, ?_⟩
  unfold publishSnapshotCanonical
  rw [h.precheck, henv]
  simp only [Prog.transaction_noFault, hrun]

/-- A refused guard refuses the publish. -/
theorem publish_refused {env : Env} {err : DevRelayError} (henv : env.fault = noFault)
    (hprecheck : publishPrecheck request = .ok ())
    (hguards : (publishGuards request).run db = (.error err, db)) :
    publishSnapshotCanonical env request db = (.error err, db) := by
  have hrun : (publishSnapshotCanonicalBody request).run db = (.error err, db) := by
    rw [publishSnapshotCanonicalBody, Prog.run_bind, hguards]
  unfold publishSnapshotCanonical
  rw [hprecheck, henv]
  simp only [Prog.transaction_noFault, hrun]

theorem publishGuards_holder (h : PublishValid db request l)
    (hholder : l.holderDeviceId ≠ some request.holderDeviceId) :
    (publishGuards request).run db =
      (.error (.config "publish rejected: holder device mismatch"), db) := by
  rw [publishGuards, run_selectLease_bind _ h.stored, Prog.run_ensure_bind,
    if_pos h.project, Prog.run_ensure_bind, if_pos h.session, Prog.run_query_bind,
    Prog.run_ensure_bind, if_pos h.sessionStored, Prog.run_ensure_bind, if_neg hholder]

theorem publishGuards_state (h : PublishValid db request l)
    (hholder : l.holderDeviceId = some request.holderDeviceId) (hactive : l.state ≠ .active) :
    (publishGuards request).run db =
      (.error (.config ("publish rejected: lease state is " ++ l.state.asStr)), db) := by
  rw [publishGuards, run_selectLease_bind _ h.stored, Prog.run_ensure_bind, if_pos h.project,
    Prog.run_ensure_bind, if_pos h.session, Prog.run_query_bind, Prog.run_ensure_bind,
    if_pos h.sessionStored, Prog.run_ensure_bind, if_pos hholder,
    run_ensureDeviceNotRevokedConn_bind _ h.notRevoked, Prog.run_ensure_bind, if_neg hactive]

end

/-- The errors of a stale publish. -/
theorem publishStaleError_of_stale {l : LeaseRecord} {request : CanonicalPublishRequest}
    (h : l.epoch ≠ request.expectedEpoch ∨
      l.latestSnapshotId ≠ request.expectedLatestSnapshotId) :
    ∃ detail, publishStaleError l request = some (stalePublishError detail) := by
  unfold publishStaleError
  split
  · exact ⟨_, rfl⟩
  · rename_i hepoch
    rcases h with h | h
    · exact absurd h hepoch
    · rw [if_pos h]
      exact ⟨_, rfl⟩

/-- In every reachable store, a valid publish with an old epoch or an old latest
snapshot leaves its snapshot stored, canonical for no lease, reports that it is
stale and changes no lease.  One by a device that is not the holder, or on a lease
that is not active, is rejected by name and changes nothing. -/
theorem stale_publish_outcome (start : MetadataDb) (calls : List Call) (n : Nat)
    (env : Env) (request : CanonicalPublishRequest) (l : LeaseRecord)
    (hstart : start.LatestStored) (henv : env.fault = noFault)
    (hvalid : PublishValid (storeAt start calls n) request l) :
    (l.holderDeviceId = some request.holderDeviceId → l.state = .active →
      (l.epoch ≠ request.expectedEpoch ∨
        l.latestSnapshotId ≠ request.expectedLatestSnapshotId) →
      ∃ detail db',
        publishSnapshotCanonical env request (storeAt start calls n) =
          (.error (stalePublishError detail), db') ∧
        db'.leases = (storeAt start calls n).leases ∧
        db'.snapshots.lookup request.metadata.snapshotId =
          some (publishedRow (storeAt start calls n) request) ∧
        ∀ leaseId, db'.latestOf leaseId ≠ some request.metadata.snapshotId) ∧
    (l.holderDeviceId ≠ some request.holderDeviceId →
      publishSnapshotCanonical env request (storeAt start calls n) =
        (.error (.config "publish rejected: holder device mismatch"),
          storeAt start calls n)) ∧
    (l.holderDeviceId = some request.holderDeviceId → l.state ≠ .active →
      publishSnapshotCanonical env request (storeAt start calls n) =
        (.error (.config ("publish rejected: lease state is " ++ l.state.asStr)),
          storeAt start calls n)) := by
  refine ⟨fun hholder hactive hview => ?_, fun hholder => ?_, fun hholder hactive => ?_⟩
  · obtain ⟨detail, hstale⟩ := publishStaleError_of_stale hview
    obtain ⟨snapshots, auditEvents, hinsert, heq⟩ :=
      publish_stale henv hvalid hholder hactive hstale
    refine ⟨detail, _, heq, rfl, ?_, fun leaseId hlatest => ?_⟩
    · rw [Table.lookup_insert? hinsert]
      exact if_pos rfl
    · obtain ⟨k, hk, hks⟩ := Option.bind_eq_some_iff.mp hlatest
      have hstored : (storeAt start calls n).LatestStored :=
        stateAt_invariant hstart step_latestStored n
      obtain ⟨row, hrow, -⟩ := hstored leaseId k _ hk hks
      rw [hvalid.fresh] at hrow
      cases hrow
  · exact publish_refused henv hvalid.precheck (publishGuards_holder hvalid hholder)
  · exact publish_refused henv hvalid.precheck
      (publishGuards_state hvalid hholder hactive)

/-- The first device publishes with an old epoch. -/
def demoStale : CanonicalPublishRequest :=
  demoPublish "s1_000000000000000000000009" 6 none

/-- A lease record of the demo run. -/
def demoLease (epoch : UInt64) (holder : String) : LeaseRecord where
  leaseId := "lease-1"
  projectId := "project-1"
  sessionId := "session-1"
  state := .active
  epoch := epoch
  holderDeviceId := some holder
  latestSnapshotId := none
  handoffId := none

theorem demoStale_valid_before :
    PublishValid (storeAt demoStore demoHandoff 0) demoStale (demoLease 7 "device-a") :=
  ⟨by decide, by decide, rfl, by decide, by decide, by decide, by decide, by decide,
    by decide⟩

theorem demoStale_valid_after :
    PublishValid (storeAt demoStore demoHandoff 5) demoStale (demoLease 8 "device-b") :=
  ⟨by decide, by decide, rfl, by decide, by decide, by decide, by decide, by decide,
    by decide⟩

/-- Before the handoff the stale snapshot is kept; after it the publish of the
former holder is rejected. -/
theorem stale_publish_outcome_demo :
    (∃ detail db',
      publishSnapshotCanonical (demoEnv 150) demoStale (storeAt demoStore demoHandoff 0) =
        (.error (stalePublishError detail), db') ∧
      db'.leases = (storeAt demoStore demoHandoff 0).leases ∧
      db'.snapshots.lookup "s1_000000000000000000000009" =
        some (publishedRow (storeAt demoStore demoHandoff 0) demoStale) ∧
      ∀ leaseId, db'.latestOf leaseId ≠ some "s1_000000000000000000000009") ∧
    publishSnapshotCanonical (demoEnv 150) demoStale (storeAt demoStore demoHandoff 5) =
      (.error (.config "publish rejected: holder device mismatch"),
        storeAt demoStore demoHandoff 5) :=
  ⟨(stale_publish_outcome demoStore demoHandoff 0 (demoEnv 150) demoStale _
      demoStore_latestStored rfl demoStale_valid_before).1 (by decide) rfl
      (Or.inl (by decide)),
    (stale_publish_outcome demoStore demoHandoff 5 (demoEnv 150) demoStale _
      demoStore_latestStored rfl demoStale_valid_after).2.1 (by decide)⟩

/-- The publish of a device that lost the lease to a handoff is stale and valid
otherwise, and its snapshot is not stored. -/
theorem stale_publish_not_stored :
    PublishValid (storeAt demoStore demoHandoff 5) demoStale (demoLease 8 "device-b") ∧
    (publishSnapshotCanonical (demoEnv 150) demoStale
      (storeAt demoStore demoHandoff 5)).1 =
        .error (.config "publish rejected: holder device mismatch") ∧
    (publishSnapshotCanonical (demoEnv 150) demoStale
      (storeAt demoStore demoHandoff 5)).2.snapshots.lookup
        "s1_000000000000000000000009" = none :=
  ⟨demoStale_valid_after, by decide, by decide⟩

end DevRelay.Storage
