import DevRelay.Storage.Handoffs

/-!
# What a handoff call can do

One lemma for each operation: either the store is left alone, or every guard of
the body held and the store is the written one.  Later proofs use these and do
not unfold the bodies.
-/

namespace DevRelay.Storage

open DevRelay.Lib DevRelay.Core

/-! ## Begin -/

/-- The two journal entries of a begin, and the mark on its lease. -/
def MetadataDb.beginWrites (handoff : HandoffRecord) (now : UInt64) (db : MetadataDb) :
    MetadataDb :=
  ((db.journaled handoff .begin "{}" now).journaled handoff .targetPrepare "{}"
    now).markLeasePending handoff.leaseId handoff.handoffId

private theorem beginHandoffBody_run {env : Env}
    {leaseId source target generation : String} {ttl : UInt64} {db db' : MetadataDb}
    {ending : Ending (Except DevRelayError HandoffRecord)}
    (h : (beginHandoffBody env leaseId source target generation ttl).run db =
      (.ok ending, db')) :
    ∃ lease handoffs,
      db.getLease leaseId = some lease ∧ lease.state = .active ∧
      lease.holderDeviceId = some source ∧
      db.getDeviceRevocation source = none ∧ db.getDeviceRevocation target = none ∧
      (db.projects.lookup lease.projectId).isSome ∧
      db.handoffs.insert? (handoffRowOf (beginHandoffRecord env lease leaseId source
        target generation ttl) env.unixNowSeconds) = some handoffs ∧
      db' = ({ db with handoffs } : MetadataDb).beginWrites (beginHandoffRecord env lease
        leaseId source target generation ttl) env.unixNowSeconds ∧
      ending = .committed (.ok (beginHandoffRecord env lease leaseId source target
        generation ttl)) := by
  simp only [beginHandoffBody, run_selectLease_bind_ok, Prog.run_query_bind,
    Prog.run_ensure_bind_ok, run_ensureDeviceNotRevokedConn_bind_ok, Prog.run_attempt_bind_ok] at h
  obtain ⟨lease, hlease, -, hactive, hholder, hsource, htarget, u, hrow, h⟩ := h
  obtain ⟨handoffs, hknown, hinsert, rfl⟩ := insertHandoffRow?_eq_some hrow
  obtain ⟨_, h⟩ := run_insertHandoffJournal_bind_ok h
  obtain ⟨_, h⟩ := run_insertHandoffJournal_bind_ok h
  simp only [Prog.run_write_bind, Prog.run_commitWith_ok] at h
  obtain ⟨rfl, rfl⟩ := h
  exact ⟨lease, handoffs, hlease, hactive, hholder, hsource, htarget, hknown, hinsert, rfl, rfl⟩

theorem beginHandoff_cases (env : Env) (leaseId source target generation : String)
    (ttl : UInt64) (db : MetadataDb) :
    (∃ e, beginHandoff env leaseId source target generation ttl db = (.error e, db)) ∨
      ∃ lease handoffs,
        db.getLease leaseId = some lease ∧ lease.state = .active ∧
        lease.holderDeviceId = some source ∧
        db.getDeviceRevocation source = none ∧ db.getDeviceRevocation target = none ∧
        (db.projects.lookup lease.projectId).isSome ∧
        db.handoffs.insert? (handoffRowOf (beginHandoffRecord env lease leaseId source
          target generation ttl) env.unixNowSeconds) = some handoffs ∧
        beginHandoff env leaseId source target generation ttl db =
          (.ok (beginHandoffRecord env lease leaseId source target generation ttl),
            ({ db with handoffs } : MetadataDb).beginWrites (beginHandoffRecord env lease
              leaseId source target generation ttl) env.unixNowSeconds) := by
  unfold beginHandoff
  rcases Prog.transaction_cases env.fault
      (beginHandoffBody env leaseId source target generation ttl) db with
    herror | ⟨r, hrun, -⟩ | ⟨r, db', hrun, htx⟩
  · exact Or.inl herror
  · obtain ⟨_, _, _, _, _, _, _, _, _, _, hending⟩ := beginHandoffBody_run hrun
    cases hending
  · obtain ⟨lease, handoffs, hlease, hactive, hholder, hsource, htarget, hknown, hinsert,
      rfl, hending⟩ := beginHandoffBody_run hrun
    cases hending
    exact Or.inr ⟨lease, handoffs, hlease, hactive, hholder, hsource, htarget, hknown, hinsert, htx⟩

/-! ## Journal and phase marks -/

theorem recordHandoffTargetApply_cases (env : Env) (handoffId : String)
    (detailJson : Option String) (db : MetadataDb) :
    (∃ e, recordHandoffTargetApply env handoffId detailJson db = (.error e, db)) ∨
      ∃ handoff detail record,
        normalizeJournalDetail env.json detailJson = .ok detail ∧
        db.getHandoff handoffId = some handoff ∧ handoff.state.isTerminal = false ∧
        recordHandoffTargetApply env handoffId detailJson db =
          (.ok record, db.journaled handoff .targetApply detail env.unixNowSeconds) := by
  unfold recordHandoffTargetApply
  split
  · exact Or.inl ⟨_, rfl⟩
  · rename_i detail hdetail
    have hbody : ∀ ending db',
        (recordHandoffTargetApplyBody env handoffId detail).run db = (.ok ending, db') →
        ∃ handoff record, ending = .committed (.ok record) ∧
          db.getHandoff handoffId = some handoff ∧ handoff.state.isTerminal = false ∧
          db' = db.journaled handoff .targetApply detail env.unixNowSeconds := by
      intro ending db' h
      simp only [recordHandoffTargetApplyBody, run_selectHandoff_bind_ok,
        Prog.run_ensure_bind_ok] at h
      obtain ⟨handoff, hhandoff, hopen, h⟩ := h
      obtain ⟨record, h⟩ := run_insertHandoffJournal_bind_ok h
      simp only [Prog.run_commitWith_ok] at h
      obtain ⟨rfl, rfl⟩ := h
      exact ⟨handoff, record, rfl, hhandoff, by simpa using hopen, rfl⟩
    rcases Prog.transaction_cases env.fault
        (recordHandoffTargetApplyBody env handoffId detail) db with
      herror | ⟨r, hrun, -⟩ | ⟨r, db', hrun, htx⟩
    · exact Or.inl herror
    · obtain ⟨_, _, hending, -⟩ := hbody _ _ hrun
      cases hending
    · obtain ⟨handoff, record, hending, hhandoff, hopen, rfl⟩ := hbody _ _ hrun
      cases hending
      exact Or.inr ⟨handoff, detail, record, hdetail, hhandoff, hopen, htx⟩

theorem updateHandoffState_cases (env : Env) (handoffId : String)
    (expected next : HandoffState) (phase : HandoffJournalPhase) (db : MetadataDb) :
    (∃ e, updateHandoffState env handoffId expected next phase db = (.error e, db)) ∨
      ∃ handoff,
        db.getHandoff handoffId = some handoff ∧ handoff.state = expected ∧
        db.handoffs.countWhere (MetadataDb.advanceable handoffId expected) ≠ 0 ∧
        updateHandoffState env handoffId expected next phase db =
          (.ok { handoff with state := next },
            (db.advanceHandoff handoffId expected next).journaled
              { handoff with state := next } phase "{}" env.unixNowSeconds) := by
  have hbody : ∀ ending db',
      (updateHandoffStateBody env handoffId expected next phase).run db =
        (.ok ending, db') →
      ∃ handoff,
        db.getHandoff handoffId = some handoff ∧ handoff.state = expected ∧
        db.handoffs.countWhere (MetadataDb.advanceable handoffId expected) ≠ 0 ∧
        ending = .committed (.ok { handoff with state := next }) ∧
        db' = (db.advanceHandoff handoffId expected next).journaled
          { handoff with state := next } phase "{}" env.unixNowSeconds := by
    intro ending db' h
    simp only [updateHandoffStateBody, run_selectHandoff_bind_ok,
      Prog.run_ensure_bind_ok, Prog.run_update_bind] at h
    obtain ⟨handoff, hhandoff, hstate, hcount, h⟩ := h
    obtain ⟨_, h⟩ := run_insertHandoffJournal_bind_ok h
    simp only [Prog.run_commitWith_ok] at h
    obtain ⟨rfl, rfl⟩ := h
    exact ⟨handoff, hhandoff, hstate, hcount, rfl, rfl⟩
  unfold updateHandoffState
  rcases Prog.transaction_cases env.fault
      (updateHandoffStateBody env handoffId expected next phase) db with
    herror | ⟨r, hrun, -⟩ | ⟨r, db', hrun, htx⟩
  · exact Or.inl herror
  · obtain ⟨_, _, _, _, hending, -⟩ := hbody _ _ hrun
    cases hending
  · obtain ⟨handoff, hhandoff, hstate, hcount, hending, rfl⟩ := hbody _ _ hrun
    cases hending
    exact Or.inr ⟨handoff, hhandoff, hstate, hcount, htx⟩

/-! ## Abort -/

/-- The writes of an abort to the handoff and to its lease. -/
def MetadataDb.abortWrites (handoff : HandoffRecord) (now : UInt64) (db : MetadataDb) :
    MetadataDb :=
  (db.markHandoffAborted handoff.handoffId now).releaseLease handoff.leaseId
    handoff.handoffId

theorem abortHandoffAt_cases (env : Env) (handoffId : String) (now : UInt64)
    (reason : String) (db : MetadataDb) :
    (∃ e, abortHandoffAt env handoffId now reason db = (.error e, db)) ∨
      (∃ handoff, db.getHandoff handoffId = some handoff ∧ handoff.state = .aborted ∧
        abortHandoffAt env handoffId now reason db = (.ok handoff, db)) ∨
      ∃ handoff detail,
        db.getHandoff handoffId = some handoff ∧ handoff.state.isTerminal = false ∧
        abortHandoffAt env handoffId now reason db = (.ok { handoff with state := .aborted },
            (db.abortWrites handoff now).journaled { handoff with state := .aborted }
              .aborted detail now) := by
  have hbody : ∀ ending db',
      (abortHandoffAtBody env handoffId now reason).run db = (.ok ending, db') →
      ∃ handoff, db.getHandoff handoffId = some handoff ∧ handoff.state ≠ .committed ∧
        ((handoff.state = .aborted ∧ ending = .dropped (.ok handoff)) ∨
          (handoff.state ≠ .aborted ∧ ∃ detail,
            ending = .committed (.ok { handoff with state := .aborted }) ∧
            db' = (db.abortWrites handoff now).journaled
              { handoff with state := .aborted } .aborted detail now)) := by
    intro ending db' h
    simp only [abortHandoffAtBody, run_selectHandoff_bind_ok, Prog.run_ensure_bind_ok] at h
    obtain ⟨handoff, hhandoff, hcommitted, h⟩ := h
    refine ⟨handoff, hhandoff, hcommitted, ?_⟩
    split at h
    · rename_i haborted
      simp only [Prog.run_dropWith_ok] at h
      exact Or.inl ⟨haborted, h.1.symm⟩
    · rename_i haborted
      simp only [Prog.run_write_bind, Prog.run_ofExcept_bind_ok] at h
      obtain ⟨detail, -, h⟩ := h
      obtain ⟨_, h⟩ := run_insertHandoffJournal_bind_ok h
      simp only [Prog.run_commitWith_ok] at h
      obtain ⟨rfl, rfl⟩ := h
      refine Or.inr ⟨haborted, detail, rfl, ?_⟩
      simp only [MetadataDb.abortWrites, MetadataDb.handoffId_of_getHandoff hhandoff]
  unfold abortHandoffAt
  rcases Prog.transaction_cases env.fault
      (abortHandoffAtBody env handoffId now reason) db with
    herror | ⟨r, hrun, htx⟩ | ⟨r, db', hrun, htx⟩
  · exact Or.inl herror
  · obtain ⟨handoff, hhandoff, -, ⟨haborted, hending⟩ | ⟨-, _, hending, -⟩⟩ :=
      hbody _ _ hrun
    · cases hending
      exact Or.inr (Or.inl ⟨handoff, hhandoff, haborted, htx⟩)
    · cases hending
  · obtain ⟨handoff, hhandoff, hcommitted, ⟨-, hending⟩ |
      ⟨haborted, detail, hending, rfl⟩⟩ := hbody _ _ hrun
    · cases hending
    · cases hending
      have hopen : handoff.state.isTerminal = false := by
        cases hstate : handoff.state <;> simp_all [HandoffState.isTerminal]
      exact Or.inr (Or.inr ⟨handoff, detail, hhandoff, hopen, htx⟩)

/-! ## Commit -/

/-- The guards of a commit that moves the lease. -/
structure CommitAdmitted (db : MetadataDb) (handoff : HandoffRecord)
    (observedSourceGeneration : String) (now : UInt64) : Prop where
  stored : db.getHandoff handoff.handoffId = some handoff
  sourceReady : handoff.state = .sourceReady
  notExpired : now ≤ handoff.expiresAtUnixSeconds
  generation : observedSourceGeneration = handoff.sourceGeneration
  notRevoked : db.getDeviceRevocation handoff.targetDeviceId = none
  transferable : db.leases.countWhere (MetadataDb.transferable handoff) = 1

/-- The writes of a commit to the handoff and to its lease. -/
def MetadataDb.commitWrites (handoff : HandoffRecord) (now : UInt64)
    (db : MetadataDb) : MetadataDb :=
  (db.transferLease handoff).markHandoffCommitted handoff.handoffId now

/-- The same, with the journal entry. -/
def MetadataDb.commitJournaled (handoff : HandoffRecord) (now : UInt64)
    (db : MetadataDb) : MetadataDb :=
  (db.commitWrites handoff now).journaled { handoff with state := .committed }
    .leaseCommitted "{}" now

theorem commitAbortReason_eq_none {handoff : HandoffRecord} {observed : String}
    {now : UInt64} (h : commitAbortReason handoff observed now = none) :
    now ≤ handoff.expiresAtUnixSeconds ∧ observed = handoff.sourceGeneration := by
  unfold commitAbortReason at h
  split at h
  · cases h
  · rename_i hexpired
    split at h
    · cases h
    · rename_i hgeneration
      exact ⟨UInt64.not_lt.mp hexpired, not_not.mp hgeneration⟩

theorem commitAbortReason_eq_some {handoff : HandoffRecord} {observed reason : String}
    {now : UInt64} (h : commitAbortReason handoff observed now = some reason) :
    reason = "handoff expired" ∨ reason = "source generation changed" := by
  unfold commitAbortReason at h
  split at h
  · exact Or.inl (Option.some.inj h).symm
  · split at h
    · exact Or.inr (Option.some.inj h).symm
    · cases h

private theorem commitTransfer_run {env : Env} {handoff : HandoffRecord} {now : UInt64}
    {db db' : MetadataDb} {ending : Ending (Except DevRelayError Unit)}
    (h : (commitTransfer env handoff now).run db = (.ok ending, db')) :
    db.leases.countWhere (MetadataDb.transferable handoff) = 1 ∧
      ending = .committed (.ok ()) ∧
      ∃ auditEvents, db' = { db.commitJournaled handoff now with auditEvents } := by
  simp only [commitTransfer, injectMetadataDbFault, Prog.run_update_bind,
    Prog.run_ensure_bind_ok, Prog.run_write_bind] at h
  obtain ⟨hcount, -, h⟩ := h
  obtain ⟨_, h⟩ := run_insertHandoffJournal_bind_ok h
  obtain ⟨auditEvents, h⟩ := run_insertAuditEventTx_bind_ok h
  simp only [Prog.run_commitWith_ok] at h
  obtain ⟨rfl, rfl⟩ := h
  exact ⟨hcount, rfl, auditEvents, rfl⟩

private theorem commitHandoffBody_run {env : Env} {handoffId observed : String}
    {now : UInt64} {preflight : Option HandoffCommitSnapshotPreflight}
    {db db' : MetadataDb} {ending : Ending (Except DevRelayError Unit)}
    (h : (commitHandoffBody env handoffId observed now preflight).run db =
      (.ok ending, db')) :
    (∃ handoff reason, db.getHandoff handoffId = some handoff ∧
        handoff.state = .sourceReady ∧
        commitAbortReason handoff observed now = some reason ∧
        ending = .committed (.error (commitRejected reason)) ∧
        db' = db.abortWrites handoff now) ∨
      ∃ handoff auditEvents,
        db.getHandoff handoffId = some handoff ∧
        CommitAdmitted db handoff observed now ∧
        (∀ check ∈ preflight, check.verify handoff = .ok ()) ∧
        ending = .committed (.ok ()) ∧
        db' = { db.commitJournaled handoff now with auditEvents } := by
  simp only [commitHandoffBody, run_selectHandoff_bind_ok, Prog.run_ensure_bind_ok] at h
  obtain ⟨handoff, hhandoff, hready, h⟩ := h
  have hid := MetadataDb.handoffId_of_getHandoff hhandoff
  cases hreason : commitAbortReason handoff observed now with
  | some reason =>
    rw [hreason] at h
    simp only [Prog.run_write_bind, Prog.run_commitWith_ok] at h
    obtain ⟨rfl, rfl⟩ := h
    refine Or.inl ⟨handoff, reason, hhandoff, hready, hreason, rfl, ?_⟩
    rw [MetadataDb.abortWrites, hid]
  | none =>
    rw [hreason] at h
    simp only [run_ensureDeviceNotRevokedConn_bind_ok] at h
    obtain ⟨hrevoked, h⟩ := h
    have htransfer : (∀ check ∈ preflight, check.verify handoff = .ok ()) ∧
        (commitTransfer env handoff now).run db = (.ok ending, db') := by
      cases preflight with
      | none =>
        refine ⟨fun _ hcheck => ?_, h⟩
        cases hcheck
      | some preflight =>
        simp only [Prog.run_ofExcept_bind_ok] at h
        obtain ⟨_, hverify, h⟩ := h
        refine ⟨fun check hcheck => ?_, h⟩
        cases hcheck
        exact hverify
    obtain ⟨hverified, htransfer⟩ := htransfer
    obtain ⟨hcount, hending, auditEvents, rfl⟩ := commitTransfer_run htransfer
    obtain ⟨hexpiry, hgeneration⟩ := commitAbortReason_eq_none hreason
    exact Or.inr ⟨handoff, auditEvents, hhandoff,
      ⟨by rw [hid]; exact hhandoff, hready, hexpiry, hgeneration, hrevoked, hcount⟩,
      hverified, hending, rfl⟩

/-- What the transaction of a commit does. -/
theorem commitHandoffBody_cases (env : Env) (handoffId observed : String) (now : UInt64)
    (preflight : Option HandoffCommitSnapshotPreflight) (db : MetadataDb) :
    (∃ e, (commitHandoffBody env handoffId observed now preflight).transaction env.fault
        db = (.error e, db)) ∨
      (∃ handoff reason, db.getHandoff handoffId = some handoff ∧
        handoff.state = .sourceReady ∧
        commitAbortReason handoff observed now = some reason ∧
        (commitHandoffBody env handoffId observed now preflight).transaction env.fault
          db = (.error (commitRejected reason), db.abortWrites handoff now)) ∨
      ∃ handoff auditEvents,
        db.getHandoff handoffId = some handoff ∧
        CommitAdmitted db handoff observed now ∧
        (∀ check ∈ preflight, check.verify handoff = .ok ()) ∧
        (commitHandoffBody env handoffId observed now preflight).transaction env.fault
          db = (.ok (), { db.commitJournaled handoff now with auditEvents }) := by
  rcases Prog.transaction_cases env.fault
      (commitHandoffBody env handoffId observed now preflight) db with
    ⟨e, htx⟩ | ⟨r, hrun, -⟩ | ⟨r, db', hrun, htx⟩
  · exact Or.inl ⟨e, htx⟩
  · obtain ⟨_, _, _, _, _, hending, _⟩ | ⟨_, _, _, _, _, hending, _⟩ :=
      commitHandoffBody_run hrun
    · cases hending
    · cases hending
  · obtain ⟨handoff, reason, hhandoff, hready, hreason, hending, rfl⟩ |
      ⟨handoff, auditEvents, hhandoff, hadmitted, hverified, hending, rfl⟩ :=
      commitHandoffBody_run hrun
    · cases hending
      exact Or.inr (Or.inl ⟨handoff, reason, hhandoff, hready, hreason, htx⟩)
    · cases hending
      exact Or.inr (Or.inr ⟨handoff, auditEvents, hhandoff, hadmitted, hverified, htx⟩)

theorem commitHandoffInner_cases (env : Env) (reread : Option DevRelayError)
    (handoffId observed : String) (now : UInt64)
    (preflight : Option HandoffCommitSnapshotPreflight) (db : MetadataDb) :
    (∃ e, commitHandoffInner env reread handoffId observed now preflight db =
        (.error e, db)) ∨
      (∃ handoff reason, db.getHandoff handoffId = some handoff ∧
        handoff.state = .sourceReady ∧
        commitAbortReason handoff observed now = some reason ∧
        commitHandoffInner env reread handoffId observed now preflight db =
          (.error (commitRejected reason), db.abortWrites handoff now)) ∨
      ∃ handoff auditEvents db',
        db.getHandoff handoffId = some handoff ∧
        CommitAdmitted db handoff observed now ∧
        db' = { db.commitJournaled handoff now with auditEvents } ∧
        commitHandoffInner env reread handoffId observed now preflight db =
          (commitReply reread handoffId db', db') := by
  unfold commitHandoffInner
  rcases commitHandoffBody_cases env handoffId observed now preflight db with
    ⟨e, htx⟩ | ⟨handoff, reason, hhandoff, hready, hreason, htx⟩ |
    ⟨handoff, auditEvents, hhandoff, hadmitted, -, htx⟩
  · rw [htx]
    exact Or.inl ⟨e, rfl⟩
  · rw [htx]
    exact Or.inr (Or.inl ⟨handoff, reason, hhandoff, hready, hreason, rfl⟩)
  · rw [htx]
    exact Or.inr (Or.inr ⟨handoff, auditEvents, _, hhandoff, hadmitted, rfl, rfl⟩)

/-- After a commit the record is still there to be read. -/
theorem commitReply_of_stored {handoffId : String} {db : MetadataDb}
    {handoff : HandoffRecord} (h : db.getHandoff handoffId = some handoff) :
    commitReply none handoffId db = .ok handoff := by
  simp only [commitReply, h]

theorem map_commitReply {reread : Option DevRelayError} {handoffId : String}
    {db : MetadataDb} {handoff : HandoffRecord} (h : db.getHandoff handoffId = some handoff) :
    (commitReply reread handoffId db).map (fun _ => ()) = reread.elim (.ok ()) .error := by
  cases reread with
  | none =>
    rw [commitReply_of_stored h]
    rfl
  | some e => rfl

/-! ## Recovery -/

theorem recoverHandoff_cases (env : Env) (reread : Option DevRelayError)
    (handoffId observed : String) (now : UInt64) (db : MetadataDb) :
    (∃ reply, recoverHandoff env reread handoffId observed now db = (reply, db)) ∨
      (∃ handoff detail, db.getHandoff handoffId = some handoff ∧
        handoff.state.isTerminal = false ∧
        now > handoff.expiresAtUnixSeconds ∧
        recoverHandoff env reread handoffId observed now db =
          (.ok .abortedExpired,
            (db.abortWrites handoff now).journaled { handoff with state := .aborted }
              .aborted detail now)) ∨
      ∃ reply db', (∀ handoff, db.getHandoff handoffId = some handoff →
          now ≤ handoff.expiresAtUnixSeconds) ∧
        commitHandoff env reread handoffId observed now db = (reply, db') ∧
        recoverHandoff env reread handoffId observed now db =
          (reply.map fun _ => .committed, db') := by
  unfold recoverHandoff
  split
  · exact Or.inl ⟨_, rfl⟩
  · exact Or.inl ⟨_, rfl⟩
  · split
    · exact Or.inl ⟨_, rfl⟩
    · exact Or.inl ⟨_, rfl⟩
    · split
      · rename_i handoff _ hhandoff _ _ _ hexpired
        rcases abortHandoffAt_cases env handoffId now "expired during recovery" db with
          ⟨e, habort⟩ | ⟨_, _, _, habort⟩ | ⟨handoff', detail, hhandoff', hopen, habort⟩
        · rw [habort]
          exact Or.inl ⟨_, rfl⟩
        · rw [habort]
          exact Or.inl ⟨_, rfl⟩
        · rw [habort]
          cases hhandoff.symm.trans hhandoff'
          exact Or.inr (Or.inl ⟨handoff, detail, hhandoff, hopen, hexpired, rfl⟩)
      · rename_i handoff _ hhandoff _ _ _ hexpired
        have hlive : ∀ g, db.getHandoff handoffId = some g → now ≤ g.expiresAtUnixSeconds := by
          intro g hg
          cases hhandoff.symm.trans hg
          exact UInt64.not_lt.mp hexpired
        split
        · rcases hcommit : commitHandoff env reread handoffId observed now db with
            ⟨e | record, db'⟩
          · exact Or.inr (Or.inr ⟨_, _, hlive, rfl, rfl⟩)
          · exact Or.inr (Or.inr ⟨_, _, hlive, rfl, rfl⟩)
        · exact Or.inl ⟨_, rfl⟩

end DevRelay.Storage
