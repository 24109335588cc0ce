import DevRelay.Storage.Calls
import DevRelay.Storage.HandoffSpecs
import DevRelay.Storage.Ledger
import DevRelay.Storage.PublishSpecs

/-!
# The store refines the ledger

`MetadataDb.ledger` reads the lease and handoff tables as a ledger.  Every call
has one of the effects of `Effect`, each with the guards under which it happens;
on the ledger it is a step of `Ledger.Step` or no change at all.
-/

namespace DevRelay.Storage

open DevRelay.Lib DevRelay.Core

namespace MetadataDb

def ledger (db : MetadataDb) : Ledger where
  lease := db.getLease
  handoff := db.getHandoff

theorem ledger_eq {db db' : MetadataDb} (hleases : db'.leases = db.leases)
    (hhandoffs : db'.handoffs = db.handoffs) : db'.ledger = db.ledger := by
  unfold ledger getLease getHandoff
  rw [hleases, hhandoffs]

/-- An update of the lease table that is confined to one lease. -/
theorem getLease_eq_alterAt {db db' : MetadataDb} {p : LeaseRow → Bool}
    {f : LeaseRow → LeaseRow} {id : String} {g : LeaseRecord → LeaseRecord}
    (hdb : db'.leases.rows = db.leases.rows.map fun r => if p r then f r else r)
    (hf : ∀ r, (f r).leaseId = r.leaseId) (hp : ∀ r, p r = true → r.leaseId = id)
    (hg : ∀ r, db.leases.lookup id = some r →
      leaseRecordFromRow (if p r then f r else r) = g (leaseRecordFromRow r)) :
    db'.getLease = alterAt db.getLease id g := by
  have hlookup : ∀ k, db'.getLease k =
      (db.leases.lookup k).map fun r => leaseRecordFromRow (if p r then f r else r) := by
    intro k
    rw [getLease, Table.lookup_of_rows hf hdb, Option.map_map]
    rfl
  refine eq_alterAt ?_ fun k hne => ?_
  · rw [hlookup, getLease]
    cases hrow : db.leases.lookup id with
    | none => rfl
    | some r =>
      rw [Option.map_some, Option.map_some, Option.map_some]
      exact congrArg some (hg r hrow)
  · rw [hlookup, getLease]
    cases hrow : db.leases.lookup k with
    | none => rfl
    | some r =>
      have hr : p r = false := by
        by_contra htrue
        exact hne ((Table.lookup_key hrow).symm.trans (hp r (by simpa using htrue)))
      simp [hr]

/-- An update of the handoff table that is confined to one stored handoff. -/
theorem getHandoff_eq_assign {db db' : MetadataDb} {p : HandoffRow → Bool}
    {f : HandoffRow → HandoffRow} {id : String} {row : HandoffRow} {h : HandoffRecord}
    (hdb : db'.handoffs.rows = db.handoffs.rows.map fun r => if p r then f r else r)
    (hf : ∀ r, (f r).handoffId = r.handoffId) (hp : ∀ r, p r = true → r.handoffId = id)
    (hrow : db.handoffs.lookup id = some row)
    (hsel : p row = true) (hread : handoffRecordFromRow (f row) = h) :
    db'.getHandoff = assign db.getHandoff id h := by
  have hlookup : ∀ k, db'.getHandoff k = (db.handoffs.lookup k).map fun r =>
      handoffRecordFromRow (if p r then f r else r) := by
    intro k
    rw [getHandoff, Table.lookup_of_rows hf hdb, Option.map_map]
    rfl
  funext k
  rw [hlookup]
  by_cases hne : k = id
  · subst hne
    rw [assign_self, hrow, Option.map_some, if_pos hsel, hread]
  · rw [assign_of_ne hne, getHandoff]
    cases hother : db.handoffs.lookup k with
    | none => rfl
    | some r =>
      have hr : p r = false := by
        by_contra htrue
        exact hne ((Table.lookup_key hother).symm.trans (hp r (by simpa using htrue)))
      simp [hr]

/-! ## The writes on the ledger -/

theorem ledger_abortWrites {db : MetadataDb} {h : HandoffRecord} (now : UInt64)
    (hstored : db.getHandoff h.handoffId = some h) :
    (db.abortWrites h now).ledger = db.ledger.abort h := by
  obtain ⟨row, hrow, hread⟩ := Option.map_eq_some_iff.mp hstored
  have hlease : (db.abortWrites h now).getLease =
      alterAt db.getLease h.leaseId (Ledger.released h.handoffId) := by
    refine getLease_eq_alterAt rfl (fun _ => rfl) (fun r hr => ?_) fun r hr => ?_
    · simp only [Bool.and_eq_true, decide_eq_true_eq] at hr
      exact hr.1
    · have hid := Table.lookup_key hr
      by_cases hname : r.handoffId = some h.handoffId
      · simp [hid, hname, Ledger.released, leaseRecordFromRow]
      · simp [hname, Ledger.released, leaseRecordFromRow]
  have hhandoff : (db.abortWrites h now).getHandoff =
      assign db.getHandoff h.handoffId { h with state := .aborted } := by
    refine getHandoff_eq_assign rfl (fun _ => rfl) (fun r hr => ?_) hrow
      ?_ ?_
    · simpa using hr
    · simpa using Table.lookup_key hrow
    · rw [← hread]
      simp [handoffRecordFromRow]
  unfold ledger Ledger.abort
  rw [hlease, hhandoff]

theorem exists_transferable {db : MetadataDb} {h : HandoffRecord}
    (hcount : db.leases.countWhere (transferable h) = 1) :
    ∃ row, db.leases.lookup h.leaseId = some row ∧ transferable h row = true := by
  rw [Table.countWhere_of_key _ _ h.leaseId (fun r hr => ?_)] at hcount
  · split at hcount
    · rename_i hany
      cases hrow : db.leases.lookup h.leaseId with
      | none => simp [hrow] at hany
      | some row => exact ⟨row, rfl, by simpa [hrow] using hany⟩
    · cases hcount
  · simp only [transferable, Bool.and_eq_true, decide_eq_true_eq] at hr
    exact hr.1.1

/-- The expected epoch of a stored handoff survives the signed column. -/
theorem clampU64_expectedEpoch {db : MetadataDb} {id : String} {h : HandoffRecord}
    (hstored : db.getHandoff id = some h) :
    clampU64 (asI64 h.expectedEpoch) = h.expectedEpoch := by
  obtain ⟨row, -, rfl⟩ := Option.map_eq_some_iff.mp hstored
  exact clampU64_asI64_clampU64 _

/-- The epoch of a lease that was taken over. -/
def nextEpoch (expected : UInt64) : UInt64 := clampU64 (asI64 (saturatingAdd expected 1))

theorem ledger_commitWrites {db : MetadataDb} {h : HandoffRecord} (now : UInt64)
    (hstored : db.getHandoff h.handoffId = some h)
    (hcount : db.leases.countWhere (transferable h) = 1) :
    (db.commitWrites h now).ledger = db.ledger.commit h (nextEpoch h.expectedEpoch) := by
  obtain ⟨row, hrow, hread⟩ := Option.map_eq_some_iff.mp hstored
  obtain ⟨lease, hlease, hsel⟩ := exists_transferable hcount
  have hleases : (db.commitWrites h now).getLease =
      alterAt db.getLease h.leaseId fun l => { l with
        state := .active
        epoch := nextEpoch h.expectedEpoch
        holderDeviceId := some h.targetDeviceId
        handoffId := none } := by
    refine getLease_eq_alterAt rfl (fun _ => rfl) (fun r hr => ?_) fun r hr => ?_
    · simp only [transferable, Bool.and_eq_true, decide_eq_true_eq] at hr
      exact hr.1.1
    · cases hlease.symm.trans hr
      simp [hsel, leaseRecordFromRow, nextEpoch]
  have hhandoffs : (db.commitWrites h now).getHandoff =
      assign db.getHandoff h.handoffId { h with state := .committed } := by
    refine getHandoff_eq_assign rfl (fun _ => rfl)
      (fun r hr => ?_) hrow ?_ ?_
    · simpa using hr
    · simpa using Table.lookup_key hrow
    · rw [← hread]
      simp [handoffRecordFromRow]
  unfold ledger Ledger.commit
  rw [hleases, hhandoffs]

theorem ledger_advanceHandoff {db : MetadataDb} {h : HandoffRecord}
    {expected : HandoffState} (next : HandoffState) (hstored : db.getHandoff h.handoffId = some h)
    (hcount : db.handoffs.countWhere (advanceable h.handoffId expected) ≠ 0) :
    (db.advanceHandoff h.handoffId expected next).ledger = db.ledger.mark h next := by
  obtain ⟨row, hrow, hread⟩ := Option.map_eq_some_iff.mp hstored
  have hkey : ∀ r, advanceable h.handoffId expected r = true → r.handoffId = h.handoffId := by
    intro r hr
    simp only [advanceable, Bool.and_eq_true, decide_eq_true_eq] at hr
    exact hr.1
  have hsel : advanceable h.handoffId expected row = true := by
    rw [Table.countWhere_of_key _ _ _ hkey, hrow] at hcount
    simpa using hcount
  have hhandoffs : (db.advanceHandoff h.handoffId expected next).getHandoff =
      assign db.getHandoff h.handoffId { h with state := next } := by
    refine getHandoff_eq_assign rfl (fun _ => rfl) hkey hrow hsel ?_
    rw [← hread]
    simp [handoffRecordFromRow]
  unfold ledger Ledger.mark
  rw [hhandoffs]
  rfl

theorem ledger_advanceLatest (db : MetadataDb) (leaseId snapshotId : String) :
    (db.advanceLatest leaseId snapshotId).ledger = db.ledger.advance leaseId snapshotId := by
  have hleases : (db.advanceLatest leaseId snapshotId).getLease =
      alterAt db.getLease leaseId fun l => { l with latestSnapshotId := some snapshotId } := by
    refine getLease_eq_alterAt rfl (fun _ => rfl) (fun r hr => ?_) fun r hr => ?_
    · simpa using hr
    · simp [Table.lookup_key hr, leaseRecordFromRow]
  unfold ledger Ledger.advance
  rw [hleases]
  rfl

theorem ledger_forkLease {db : MetadataDb} {leaseId : String} {l : LeaseRecord}
    (hstored : db.getLease leaseId = some l) (hinactive : l.state = .inactive) :
    (db.forkLease leaseId).ledger = db.ledger.fork leaseId := by
  obtain ⟨row, hrow, hread⟩ := Option.map_eq_some_iff.mp hstored
  have htext : row.state = LeaseState.inactive.asStr := by
    refine LeaseState.parse_eq_inactive ?_
    rw [← hinactive, ← hread]
    rfl
  have hleases : (db.forkLease leaseId).getLease =
      alterAt db.getLease leaseId fun l => { l with state := .forked } := by
    refine getLease_eq_alterAt rfl (fun _ => rfl) (fun r hr => ?_) fun r hr => ?_
    · simp only [forkable, Bool.and_eq_true, decide_eq_true_eq] at hr
      exact hr.1
    · cases hrow.symm.trans hr
      simp [forkable, Table.lookup_key hrow, htext, leaseRecordFromRow]
  unfold ledger Ledger.fork
  rw [hleases]
  rfl

theorem ledger_begin {db : MetadataDb} {leaseId : String} {handoff : HandoffRecord}
    {now : UInt64} {handoffs : Table HandoffRow.handoffId} (hlease : handoff.leaseId = leaseId)
    (hinsert : db.handoffs.insert? (handoffRowOf handoff now) = some handoffs)
    (handoffJournal : List HandoffJournalRow) :
    (({ db with handoffs, handoffJournal } : MetadataDb).markLeasePending leaseId
        handoff.handoffId).ledger =
      db.ledger.begin (handoffRecordFromRow (handoffRowOf handoff now)) := by
  subst hlease
  have hleases : (({ db with handoffs, handoffJournal } :
      MetadataDb).markLeasePending handoff.leaseId handoff.handoffId).getLease =
      alterAt db.getLease handoff.leaseId fun l =>
        { l with state := .handoffPending, handoffId := some handoff.handoffId } := by
    refine getLease_eq_alterAt rfl (fun _ => rfl) (fun r hr => ?_) fun r hr => ?_
    · simpa using hr
    · simp [Table.lookup_key hr, leaseRecordFromRow]
  have hhandoffs : ∀ id, (handoffs.lookup id).map handoffRecordFromRow =
      assign db.getHandoff handoff.handoffId
        (handoffRecordFromRow (handoffRowOf handoff now)) id := by
    intro id
    rw [Table.lookup_insert? hinsert]
    by_cases hne : id = handoff.handoffId
    · subst hne
      rw [assign_self, if_pos (show (handoffRowOf handoff now).handoffId =
        handoff.handoffId from rfl), Option.map_some]
    · rw [assign_of_ne hne, if_neg fun heq => hne heq.symm, getHandoff]
  unfold ledger Ledger.begin
  rw [hleases]
  exact congrArg (Ledger.mk _) (funext hhandoffs)

end MetadataDb

/-! ## The effect of a call -/

/-- The handoff that `begin_handoff` stores, as it reads back. -/
def begunHandoff (env : Env) (lease : LeaseRecord) (leaseId source target
    generation : String) (ttl : UInt64) : HandoffRecord :=
  handoffRecordFromRow (handoffRowOf
    (beginHandoffRecord env lease leaseId source target generation ttl)
    env.unixNowSeconds)

/-- The two phase marks. -/
def PhaseMark (expected next : HandoffState) : Prop :=
  (expected = .targetPrepare ∧ next = .targetVerified) ∨
    (expected = .targetVerified ∧ next = .sourceReady)

/-- What a call can do to the leases, the handoffs and the snapshots. -/
inductive Effect (db : MetadataDb) (call : Call) :
    Except DevRelayError Unit → MetadataDb → Prop where
  | quiet {reply : Except DevRelayError Unit} {db' : MetadataDb}
      (hleases : db'.leases = db.leases) (hhandoffs : db'.handoffs = db.handoffs)
      (hsnapshots : db'.snapshots = db.snapshots) : Effect db call reply db'
  | begun {db' : MetadataDb} (leaseId source target generation : String) (ttl : UInt64)
      (l : LeaseRecord)
      (hop : call.op = .beginHandoff leaseId source target generation ttl)
      (hlease : db.getLease leaseId = some l) (hactive : l.state = .active)
      (hfresh : db.getHandoff call.env.generatedHandoffId = none)
      (hledger : db'.ledger = db.ledger.begin
        (begunHandoff call.env l leaseId source target generation ttl))
      (hsnapshots : db'.snapshots = db.snapshots) : Effect db call (.ok ()) db'
  | marked {db' : MetadataDb} (h : HandoffRecord) (next : HandoffState)
      (hstored : db.getHandoff h.handoffId = some h) (hphase : PhaseMark h.state next)
      (hledger : db'.ledger = db.ledger.mark h next)
      (hsnapshots : db'.snapshots = db.snapshots) : Effect db call (.ok ()) db'
  | aborted {reply : Except DevRelayError Unit} {db' : MetadataDb} (h : HandoffRecord)
      (hstored : db.getHandoff h.handoffId = some h) (hopen : h.state.isTerminal = false)
      (hreply : reply = .ok () ∨ reply = .error (commitRejected "handoff expired") ∨
        reply = .error (commitRejected "source generation changed"))
      (hledger : db'.ledger = db.ledger.abort h)
      (hsnapshots : db'.snapshots = db.snapshots) : Effect db call reply db'
  | committed {reply : Except DevRelayError Unit} {db' : MetadataDb} (h : HandoffRecord)
      (l : LeaseRecord) (observed : String) (now : UInt64)
      (hop : call.op.commitArgs = some (h.handoffId, observed, now))
      (hadmitted : CommitAdmitted db h observed now)
      (hlease : db.getLease h.leaseId = some l) (hnamed : l.handoffId = some h.handoffId)
      (hepoch : l.epoch = h.expectedEpoch)
      (hreply : reply = call.reread.elim (.ok ()) .error)
      (hledger : db'.ledger = db.ledger.commit h (MetadataDb.nextEpoch h.expectedEpoch))
      (hsnapshots : db'.snapshots = db.snapshots) : Effect db call reply db'
  | stored {e : DevRelayError} {db' : MetadataDb} (request : CanonicalPublishRequest)
      (l : LeaseRecord) (hop : call.op = .publishSnapshotCanonical request)
      (hadmitted : PublishAdmitted db request l)
      (hstale : publishStaleError l request = some e)
      (hleases : db'.leases = db.leases) (hhandoffs : db'.handoffs = db.handoffs)
      (hinsert : db.snapshots.insert? (publishedRow db request) = some db'.snapshots) :
      Effect db call (.error e) db'
  | advanced {db' : MetadataDb} (request : CanonicalPublishRequest) (l : LeaseRecord)
      (hop : call.op = .publishSnapshotCanonical request)
      (hadmitted : PublishAdmitted db request l)
      (hfresh : publishStaleError l request = none)
      (hledger : db'.ledger = db.ledger.advance request.leaseId request.metadata.snapshotId)
      (hinsert : db.snapshots.insert? (publishedRow db request) = some db'.snapshots) :
      Effect db call (.ok ()) db'
  | forked {db' : MetadataDb} (request : InactiveForkPublishRequest) (l : LeaseRecord)
      (parent : StoredSession) (hop : call.op = .publishInactiveSnapshotAsFork request)
      (hadmitted : ForkAdmitted db request l parent)
      (hledger : db'.ledger = db.ledger.fork request.leaseId)
      (hinsert : db.snapshots.insert? (forkedRow call.env db l request) =
        some db'.snapshots) : Effect db call (.ok ()) db'

section

variable {db : MetadataDb} {call : Call}

private theorem effect_refused {e : DevRelayError} : Effect db call (.error e) db :=
  .quiet rfl rfl rfl

private theorem effect_begin {leaseId source target generation : String} {ttl : UInt64}
    (hop : call.op = .beginHandoff leaseId source target generation ttl) :
    Effect db call
      (outcome (beginHandoff call.env leaseId source target generation ttl db)).1
      (outcome (beginHandoff call.env leaseId source target generation ttl db)).2 := by
  rcases beginHandoff_cases call.env leaseId source target generation ttl db with
    ⟨e, heq⟩ | ⟨l, handoffs, hlease, hactive, -, -, -, -, hinsert, heq⟩
  · rw [heq]
    exact effect_refused
  · rw [heq]
    have hfresh : db.getHandoff call.env.generatedHandoffId = none := by
      rw [MetadataDb.getHandoff, Option.map_eq_none_iff]
      exact (Table.insert?_eq_some.mp hinsert).1
    exact .begun leaseId source target generation ttl l hop hlease hactive hfresh
      (MetadataDb.ledger_begin rfl hinsert _) rfl

private theorem effect_recordTargetApply {handoffId : String} {detailJson : Option String} :
    Effect db call
      (outcome (recordHandoffTargetApply call.env handoffId detailJson db)).1
      (outcome (recordHandoffTargetApply call.env handoffId detailJson db)).2 := by
  rcases recordHandoffTargetApply_cases call.env handoffId detailJson db with
    ⟨e, heq⟩ | ⟨h, detail, record, -, -, -, heq⟩
  · rw [heq]
    exact effect_refused
  · rw [heq]
    exact .quiet rfl rfl rfl

private theorem effect_mark {handoffId : String} {expected next : HandoffState}
    {phase : HandoffJournalPhase} (hphase : PhaseMark expected next) :
    Effect db call
      (outcome (updateHandoffState call.env handoffId expected next phase db)).1
      (outcome (updateHandoffState call.env handoffId expected next phase db)).2 := by
  rcases updateHandoffState_cases call.env handoffId expected next phase db with
    ⟨e, heq⟩ | ⟨h, hstored, hstate, hcount, heq⟩
  · rw [heq]
    exact effect_refused
  · rw [heq]
    have hid := MetadataDb.handoffId_of_getHandoff hstored
    subst hid hstate
    exact .marked h next hstored hphase
      (MetadataDb.ledger_advanceHandoff next hstored hcount) rfl

private theorem effect_abort {handoffId reason : String} {now : UInt64} :
    Effect db call (outcome (abortHandoffAt call.env handoffId now reason db)).1
      (outcome (abortHandoffAt call.env handoffId now reason db)).2 := by
  rcases abortHandoffAt_cases call.env handoffId now reason db with
    ⟨e, heq⟩ | ⟨h, -, -, heq⟩ | ⟨h, detail, hstored, hopen, heq⟩
  · rw [heq]
    exact effect_refused
  · rw [heq]
    exact .quiet rfl rfl rfl
  · rw [heq]
    have hid := MetadataDb.handoffId_of_getHandoff hstored
    subst hid
    exact .aborted h hstored hopen (Or.inl rfl) (MetadataDb.ledger_abortWrites now hstored)
      rfl

/-- The guards of a commit, seen on the lease it moves. -/
theorem CommitAdmitted.lease {h : HandoffRecord} {observed : String} {now : UInt64}
    (hadmitted : CommitAdmitted db h observed now) :
    ∃ l, db.getLease h.leaseId = some l ∧ l.handoffId = some h.handoffId ∧
      l.epoch = h.expectedEpoch := by
  obtain ⟨row, hrow, hsel⟩ := MetadataDb.exists_transferable hadmitted.transferable
  simp only [MetadataDb.transferable, Bool.and_eq_true, decide_eq_true_eq] at hsel
  obtain ⟨⟨-, hepoch⟩, hnamed⟩ := hsel
  refine ⟨leaseRecordFromRow row, ?_, hnamed, ?_⟩
  · rw [MetadataDb.getLease, hrow, Option.map_some]
  · calc
      (leaseRecordFromRow row).epoch = clampU64 row.epoch := rfl
      _ = clampU64 (asI64 h.expectedEpoch) := by rw [hepoch]
      _ = h.expectedEpoch := MetadataDb.clampU64_expectedEpoch hadmitted.stored

private theorem effect_commit {handoffId observed : String} {now : UInt64}
    {preflight : Option HandoffCommitSnapshotPreflight}
    {reply : Except DevRelayError HandoffRecord} {db' : MetadataDb}
    (hop : call.op.commitArgs = some (handoffId, observed, now))
    (heq : commitHandoffInner call.env call.reread handoffId observed now preflight db =
      (reply, db')) :
    Effect db call (reply.map fun _ => ()) db' := by
  rcases commitHandoffInner_cases call.env call.reread handoffId observed now preflight db with
    ⟨e, hcase⟩ | ⟨h, reason, hstored, hready, hreason, hcase⟩ |
    ⟨h, audit, db'', hstored, hadmitted, hdb, hcase⟩
  · cases heq.symm.trans hcase
    exact effect_refused
  · cases heq.symm.trans hcase
    have hid := MetadataDb.handoffId_of_getHandoff hstored
    subst hid
    refine .aborted h hstored (by rw [hready]; rfl) ?_
      (MetadataDb.ledger_abortWrites now hstored) rfl
    rcases commitAbortReason_eq_some hreason with rfl | rfl
    · exact Or.inr (Or.inl rfl)
    · exact Or.inr (Or.inr rfl)
  · cases heq.symm.trans hcase
    have hid := MetadataDb.handoffId_of_getHandoff hstored
    subst hid
    have hledger : db'.ledger = db.ledger.commit h (MetadataDb.nextEpoch h.expectedEpoch) := by
      rw [hdb]
      exact MetadataDb.ledger_commitWrites now hstored hadmitted.transferable
    have hread : db'.getHandoff h.handoffId = some { h with state := .committed } :=
      (congrFun (congrArg Ledger.handoff hledger) h.handoffId).trans assign_self
    obtain ⟨l, hlease, hnamed, hepoch⟩ := hadmitted.lease
    exact .committed h l observed now hop hadmitted hlease hnamed hepoch
      (map_commitReply hread) hledger (by rw [hdb]; rfl)

private theorem effect_recover {handoffId observed : String} {now : UInt64}
    (hop : call.op.commitArgs = some (handoffId, observed, now)) :
    Effect db call (outcome (recoverHandoff call.env call.reread handoffId observed now db)).1
      (outcome (recoverHandoff call.env call.reread handoffId observed now db)).2 := by
  rcases recoverHandoff_cases call.env call.reread handoffId observed now db with
    ⟨reply, heq⟩ | ⟨h, detail, hstored, hopen, -, heq⟩ | ⟨reply, db', -, hcommit, heq⟩
  · rw [heq]
    exact .quiet rfl rfl rfl
  · rw [heq]
    have hid := MetadataDb.handoffId_of_getHandoff hstored
    subst hid
    exact .aborted h hstored hopen (Or.inl rfl) (MetadataDb.ledger_abortWrites now hstored)
      rfl
  · rw [heq]
    have heffect := effect_commit hop hcommit
    cases reply with
    | error e => exact heffect
    | ok record => exact heffect

private theorem effect_publish {request : CanonicalPublishRequest}
    (hop : call.op = .publishSnapshotCanonical request) :
    Effect db call (outcome (publishSnapshotCanonical call.env request db)).1
      (outcome (publishSnapshotCanonical call.env request db)).2 := by
  rcases publishSnapshotCanonical_cases call.env request db with
    ⟨e, heq⟩ | ⟨l, snapshots, audit, hadmitted, hinsert, ⟨e, hstale, heq⟩ |
      ⟨result, hfresh, heq⟩⟩
  · rw [heq]
    exact effect_refused
  · rw [heq]
    exact .stored request l hop hadmitted hstale rfl rfl hinsert
  · rw [heq]
    exact .advanced request l hop hadmitted hfresh
      (MetadataDb.ledger_advanceLatest _ _ _) hinsert

private theorem effect_fork {request : InactiveForkPublishRequest}
    (hop : call.op = .publishInactiveSnapshotAsFork request) :
    Effect db call (outcome (publishInactiveSnapshotAsFork call.env request db)).1
      (outcome (publishInactiveSnapshotAsFork call.env request db)).2 := by
  rcases publishInactiveSnapshotAsFork_cases call.env request db with
    ⟨e, heq⟩ | ⟨l, parent, sessions, snapshots, audit, result, hadmitted, -, hinsert, heq⟩
  · rw [heq]
    exact effect_refused
  · rw [heq]
    exact .forked request l parent hop hadmitted
      (MetadataDb.ledger_forkLease hadmitted.stored hadmitted.inactive) hinsert

private theorem effect_revoke {deviceId revokedBy reason : String} {rotate : Bool} :
    Effect db call (outcome (revokeDevice call.env deviceId revokedBy reason rotate db)).1
      (outcome (revokeDevice call.env deviceId revokedBy reason rotate db)).2 := by
  rcases revokeDevice_cases call.env deviceId revokedBy reason rotate db with
    ⟨e, heq⟩ | ⟨record, revocations, audit, heq⟩
  · rw [heq]
    exact effect_refused
  · rw [heq]
    exact .quiet rfl rfl rfl

end

/-- Every call has one of the effects. -/
theorem perform_effect (db : MetadataDb) (call : Call) :
    Effect db call (perform db call).1 (perform db call).2 := by
  obtain ⟨env, op, reread⟩ := call
  cases op with
  | beginHandoff leaseId source target generation ttl => exact effect_begin rfl
  | recordHandoffTargetApply handoffId detailJson =>
    exact effect_recordTargetApply
  | markHandoffTargetVerified handoffId => exact effect_mark (Or.inl ⟨rfl, rfl⟩)
  | markHandoffSourceReady handoffId => exact effect_mark (Or.inr ⟨rfl, rfl⟩)
  | commitHandoff handoffId observed now => exact effect_commit rfl rfl
  | commitHandoffWithSnapshotPreflight handoffId observed now preflight =>
    exact effect_commit rfl rfl
  | recoverHandoff handoffId observed now => exact effect_recover rfl
  | abortHandoff handoffId => exact effect_abort
  | abortHandoffWithReason handoffId reason => exact effect_abort
  | publishSnapshotCanonical request => exact effect_publish rfl
  | publishInactiveSnapshotAsFork request => exact effect_fork rfl
  | revokeDevice deviceId revokedBy reason keyRotationRequired =>
    exact effect_revoke

/-- On the ledger, an effect is a step or changes nothing. -/
theorem Effect.ledger {db db' : MetadataDb} {call : Call}
    {reply : Except DevRelayError Unit} (heffect : Effect db call reply db') :
    db'.ledger = db.ledger ∨ Ledger.Step db.ledger db'.ledger := by
  cases heffect with
  | quiet hleases hhandoffs _ => exact Or.inl (MetadataDb.ledger_eq hleases hhandoffs)
  | begun leaseId source target generation ttl l _ hlease hactive hfresh hledger _ =>
    have hepoch : (begunHandoff call.env l leaseId source target generation
        ttl).expectedEpoch = l.epoch := by
      obtain ⟨row, -, rfl⟩ := Option.map_eq_some_iff.mp hlease
      exact clampU64_asI64_clampU64 _
    rw [hledger]
    exact Or.inr (.begin l _ hlease hactive hfresh rfl hepoch)
  | marked h next hstored hphase hledger _ =>
    rw [hledger]
    rcases hphase with ⟨hexpected, rfl⟩ | ⟨hexpected, rfl⟩
    · exact Or.inr (.mark h _ hstored (by rw [hexpected]; rfl) rfl)
    · exact Or.inr (.mark h _ hstored (by rw [hexpected]; rfl) rfl)
  | aborted h hstored hopen _ hledger _ =>
    rw [hledger]
    exact Or.inr (.abort h hstored hopen)
  | committed h l observed now _ hadmitted hlease hnamed hepoch _ hledger _ =>
    rw [hledger]
    exact Or.inr (.commit l h _ hadmitted.stored hadmitted.sourceReady hlease hnamed
      hepoch)
  | stored request l _ _ _ hleases hhandoffs _ =>
    exact Or.inl (MetadataDb.ledger_eq hleases hhandoffs)
  | advanced request l _ _ _ hledger _ =>
    rw [hledger]
    exact Or.inr (.advance _ _)
  | forked request l parent _ hadmitted hledger _ =>
    rw [hledger]
    exact Or.inr (.fork l _ hadmitted.stored hadmitted.inactive)

/-- The store refines the ledger. -/
theorem step_ledger (db : MetadataDb) (call : Call) :
    (step db call).ledger = db.ledger ∨ Ledger.Step db.ledger (step db call).ledger :=
  (perform_effect db call).ledger

end DevRelay.Storage
