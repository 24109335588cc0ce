import DevRelay.Lib.Interleaving
import DevRelay.Storage.HandoffInvariant

/-!
# The handoff calls step by step

`commit_handoff` reads the record again after its transaction, and
`recover_handoff` reads it before: other connections may act in between.  As
threads the two calls are sequences of reads and transactions; with nobody else
around they are the functions of `Handoffs`.  What one transaction does is said
on the rows: it `Touches` one handoff and its lease.
-/

namespace DevRelay.Storage

open DevRelay.Lib DevRelay.Core

/-- A call on a store that others use as well. -/
abbrev SqlThread := Thread Env MetadataDb DevRelayError

/-- A read outside of a transaction. -/
def readStep {α : Type} (f : MetadataDb → α) : SqlThread α :=
  Thread.observe fun env db =>
    match env.readFault with
    | some e => .error e
    | none => .ok (f db)

def commitHandoffSteps (handoffId observedSourceGeneration : String)
    (nowUnixSeconds : UInt64) (preflight : Option HandoffCommitSnapshotPreflight) :
    SqlThread HandoffRecord := do
  Thread.atomically fun env db =>
    (commitHandoffBody env handoffId observedSourceGeneration nowUnixSeconds
      preflight).transaction env.fault db
  Thread.observe fun env db => commitReply env.readFault handoffId db

def recoverHandoffSteps (handoffId observedSourceGeneration : String)
    (nowUnixSeconds : UInt64) : SqlThread HandoffRecoveryOutcome := do
  let handoff ← readStep fun db => db.getHandoff handoffId
  match handoff with
  | none => Thread.fail (.config ("unknown handoff " ++ handoffId))
  | some handoff =>
    match handoff.state with
    | .committed => pure .alreadyCommitted
    | .aborted => pure .alreadyAborted
    | _ =>
      if nowUnixSeconds > handoff.expiresAtUnixSeconds then do
        let _ ← Thread.atomically fun env db =>
          abortHandoffAt env handoffId nowUnixSeconds "expired during recovery" db
        pure .abortedExpired
      else if handoff.state = .sourceReady then do
        let _ ← commitHandoffSteps handoffId observedSourceGeneration nowUnixSeconds
          none
        pure .committed
      else
        pure .waitingForTarget

section

variable {α β : Type} {input : Nat → Env} {n : Nat} {db : MetadataDb}

theorem alone_readStep_bind {f : MetadataDb → α} (k : α → SqlThread β)
    (hfault : (input n).readFault = none) :
    (readStep f >>= k).alone input n db = (k (f db)).alone input (n + 1) db := by
  apply Thread.alone_observe_bind_ok
  simp only [hfault]

theorem alone_readStep_bind_stopped {f : MetadataDb → α} (k : α → SqlThread β)
    {e : DevRelayError} (hfault : (input n).readFault = some e) :
    (readStep f >>= k).alone input n db = (.error e, db) := by
  apply Thread.alone_observe_bind_error
  simp only [hfault]

/-- Without others, the steps of a commit are the commit. -/
theorem alone_commitHandoffSteps (handoffId observed : String) (now : UInt64)
    (preflight : Option HandoffCommitSnapshotPreflight) :
    (commitHandoffSteps handoffId observed now preflight).alone input n db =
      commitHandoffInner (input n) (input (n + 1)).readFault handoffId observed now
        preflight db := by
  rw [commitHandoffSteps, commitHandoffInner]
  rcases htx : (commitHandoffBody (input n) handoffId observed now preflight).transaction
    (input n).fault db with ⟨e | u, db'⟩
  · exact Thread.alone_atomically_bind_error htx _
  · exact (Thread.alone_atomically_bind_ok htx _).trans (Thread.alone_atomically _)

/-- The same in front of a step that only names the outcome. -/
theorem alone_commitHandoffSteps_named (handoffId observed : String) (now : UInt64)
    (preflight : Option HandoffCommitSnapshotPreflight) (outcome : α) :
    (commitHandoffSteps handoffId observed now preflight >>= fun _ => pure outcome).alone
        input n db =
      match commitHandoffInner (input n) (input (n + 1)).readFault handoffId observed now
        preflight db with
      | (.error e, db') => (.error e, db')
      | (.ok _, db') => (.ok outcome, db') := by
  rw [commitHandoffSteps, Thread.bind_assoc, commitHandoffInner]
  rcases htx : (commitHandoffBody (input n) handoffId observed now preflight).transaction
    (input n).fault db with ⟨e | u, db'⟩
  · exact Thread.alone_atomically_bind_error htx _
  · refine (Thread.alone_atomically_bind_ok htx _).trans ?_
    simp only
    cases hreply : commitReply (input (n + 1)).readFault handoffId db' with
    | error e => exact Thread.alone_observe_bind_error hreply _
    | ok record => exact Thread.alone_observe_bind_ok hreply _

/-- Without others, the steps of a recovery are the recovery. -/
theorem alone_recoverHandoffSteps (handoffId observed : String) (now : UInt64) :
    (recoverHandoffSteps handoffId observed now).alone input n db =
      recoverHandoff { input (n + 1) with readFault := (input n).readFault }
        (input (n + 2)).readFault handoffId observed now db := by
  rw [recoverHandoffSteps, recoverHandoff]
  cases hfault : (input n).readFault with
  | some e => exact alone_readStep_bind_stopped _ hfault
  | none =>
    rw [alone_readStep_bind _ hfault]
    cases db.getHandoff handoffId with
    | none => rfl
    | some h =>
      have hexpired : (Thread.atomically (fun env db => abortHandoffAt env handoffId
            now "expired during recovery" db) >>= fun _ =>
          (pure .abortedExpired : SqlThread HandoffRecoveryOutcome)).alone input
            (n + 1) db =
          match abortHandoffAt (input (n + 1)) handoffId now
            "expired during recovery" db with
          | (.error e, db') => (.error e, db')
          | (.ok _, db') => (.ok .abortedExpired, db') := by
        rcases habort : abortHandoffAt (input (n + 1)) handoffId now
          "expired during recovery" db with ⟨e | record, db'⟩
        · exact Thread.alone_atomically_bind_error habort _
        · exact Thread.alone_atomically_bind_ok habort _
      have hcommit := @alone_commitHandoffSteps_named HandoffRecoveryOutcome input
        (n + 1) db handoffId observed now none .committed
      cases hstate : h.state with
      | committed => simp [hstate]
      | aborted => simp [hstate]
      | targetPrepare =>
        simp only [hstate]
        split
        · exact hexpired
        · rfl
      | targetVerified =>
        simp only [hstate]
        split
        · exact hexpired
        · rfl
      | sourceReady =>
        simp only [hstate]
        split
        · exact hexpired
        · exact hcommit

end

/-! ## What a transaction touches -/

/-- At most the handoff `h` and its lease differ, and `h` is what is stored
afterwards. -/
structure Touches (s t : MetadataDb) (h : HandoffRecord) : Prop where
  after : t.getHandoff h.handoffId = some h
  handoffs : ∀ id, id ≠ h.handoffId → t.handoffs.lookup id = s.handoffs.lookup id
  leases : ∀ id, id ≠ h.leaseId → t.leases.lookup id = s.leases.lookup id
  leaseProjects : ∀ id, (t.leases.lookup id).map LeaseRow.projectId =
    (s.leases.lookup id).map LeaseRow.projectId

/-- A stored open handoff is moved to the state `next`. -/
structure MovesHandoff (s t : MetadataDb) (h : HandoffRecord) (next : HandoffState) :
    Prop where
  stored : s.getHandoff h.handoffId = some h
  isOpen : h.state.isTerminal = false
  touches : Touches s t { h with state := next }

/-- A handoff is opened on an active lease. -/
structure OpensHandoff (s t : MetadataDb) (h : HandoffRecord) (l : LeaseRecord) :
    Prop where
  fresh : s.getHandoff h.handoffId = none
  lease : s.getLease h.leaseId = some l
  active : l.state = .active
  prepare : h.state = .targetPrepare
  projectId : h.projectId = l.projectId
  touches : Touches s t h

/-- The holder of a lease. -/
def MetadataDb.holderOf (db : MetadataDb) (leaseId : String) : Option String :=
  (db.getLease leaseId).bind LeaseRecord.holderDeviceId

/-- A lease has the holder it had, or the device `taken`, and the projects stay. -/
structure RowsAfter (s t : MetadataDb) (taken : Option String) : Prop where
  holders : ∀ leaseId d, t.holderOf leaseId = some d →
    s.holderOf leaseId = some d ∨ taken = some d
  projects : t.projects = s.projects

section

variable {s t : MetadataDb}

theorem touches_abortWrites {h : HandoffRecord} (now : UInt64)
    (hstored : s.getHandoff h.handoffId = some h) :
    Touches s (s.abortWrites h now) { h with state := .aborted } where
  after := (congrFun (congrArg Ledger.handoff (MetadataDb.ledger_abortWrites now hstored))
    h.handoffId).trans assign_self
  handoffs id hne :=
    Table.lookup_updateWhere_of_ne (by intro r; rfl) (fun r hr => by simpa using hr) hne
  leases id hne := Table.lookup_updateWhere_of_ne (by intro r; rfl) (fun r hr => by
    simp only [Bool.and_eq_true, decide_eq_true_eq] at hr
    exact hr.1) hne
  leaseProjects id := Table.map_lookup_updateWhere (by intro r; rfl) (by intro r; rfl) id

theorem touches_commitWrites {h : HandoffRecord} (now : UInt64)
    (hstored : s.getHandoff h.handoffId = some h)
    (hcount : s.leases.countWhere (MetadataDb.transferable h) = 1) :
    Touches s (s.commitWrites h now) { h with state := .committed } where
  after := (congrFun (congrArg Ledger.handoff
    (MetadataDb.ledger_commitWrites now hstored hcount)) h.handoffId).trans assign_self
  handoffs id hne :=
    Table.lookup_updateWhere_of_ne (by intro r; rfl) (fun r hr => by simpa using hr) hne
  leases id hne := Table.lookup_updateWhere_of_ne (by intro r; rfl) (fun r hr => by
    simp only [MetadataDb.transferable, Bool.and_eq_true, decide_eq_true_eq] at hr
    exact hr.1.1) hne
  leaseProjects id := Table.map_lookup_updateWhere (by intro r; rfl) (by intro r; rfl) id

/-- The tables of the handoffs and the leases are all that matters. -/
theorem Touches.congr {t' : MetadataDb} {h : HandoffRecord} (htouches : Touches s t h)
    (hhandoffs : t'.handoffs = t.handoffs) (hleases : t'.leases = t.leases) :
    Touches s t' h where
  after := by
    rw [MetadataDb.getHandoff, hhandoffs]
    exact htouches.after
  handoffs id hne := by
    rw [hhandoffs]
    exact htouches.handoffs id hne
  leases id hne := by
    rw [hleases]
    exact htouches.leases id hne
  leaseProjects id := by
    rw [hleases]
    exact htouches.leaseProjects id

/-- The rows with the same holders have the same holders. -/
theorem rowsAfter_of_leases {taken : Option String}
    (h : ∀ id, (t.leases.lookup id).map LeaseRow.holderDeviceId =
      (s.leases.lookup id).map LeaseRow.holderDeviceId)
    (hprojects : t.projects = s.projects) : RowsAfter s t taken := by
  refine ⟨fun leaseId d hd => ?_, hprojects⟩
  left
  have hrows : ∀ db : MetadataDb, db.holderOf leaseId =
      ((db.leases.lookup leaseId).map LeaseRow.holderDeviceId).join := by
    intro db
    rw [MetadataDb.holderOf, MetadataDb.getLease]
    cases db.leases.lookup leaseId with
    | none => rfl
    | some r => rfl
  rw [hrows] at hd ⊢
  rw [← h]
  exact hd

theorem rowsAfter_commitWrites (h : HandoffRecord) (now : UInt64)
    (ht : t.leases = (s.commitWrites h now).leases) (hprojects : t.projects = s.projects) :
    RowsAfter s t (some h.targetDeviceId) := by
  refine ⟨fun leaseId d hd => ?_, hprojects⟩
  rw [MetadataDb.holderOf, MetadataDb.getLease, ht] at hd
  simp only [MetadataDb.commitWrites, MetadataDb.markHandoffCommitted, MetadataDb.updateHandoffs,
    MetadataDb.transferLease, MetadataDb.updateLeases, Table.lookup_updateWhere] at hd
  rw [MetadataDb.holderOf, MetadataDb.getLease]
  cases hrow : s.leases.lookup leaseId with
  | none =>
    rw [hrow] at hd
    cases hd
  | some r =>
    rw [hrow] at hd
    simp only [Option.map_some] at hd
    split at hd
    · exact Or.inr hd
    · exact Or.inl hd

theorem beginHandoff_opens (env : Env) (leaseId source target generation : String)
    (ttl : UInt64) (s : MetadataDb) :
    (∃ e, beginHandoff env leaseId source target generation ttl s = (.error e, s)) ∨
      ∃ h l reply t, h.leaseId = leaseId ∧ h.sourceDeviceId = source ∧
        h.targetDeviceId = target ∧
        beginHandoff env leaseId source target generation ttl s = (.ok reply, t) ∧
        reply.handoffId = h.handoffId ∧ reply.projectId = h.projectId ∧
        reply.state = h.state ∧ (s.projects.lookup h.projectId).isSome ∧
        OpensHandoff s t h l ∧ RowsAfter s t none := by
  rcases beginHandoff_cases env leaseId source target generation ttl s with
    ⟨e, heq⟩ | ⟨l, handoffs, hlease, hactive, -, -, -, hknown, hinsert, heq⟩
  · exact Or.inl ⟨e, heq⟩
  · have hfresh : s.handoffs.lookup env.generatedHandoffId = none :=
      (Table.insert?_eq_some.mp hinsert).1
    have hlookup := Table.lookup_insert? hinsert
    have hnone : s.getHandoff env.generatedHandoffId = none := by
      rw [MetadataDb.getHandoff, hfresh]
      rfl
    refine Or.inr ⟨begunHandoff env l leaseId source target generation ttl, l, _, _, rfl,
      rfl, rfl, heq, rfl, rfl, rfl, hknown, ⟨hnone, hlease, hactive, rfl, rfl, ?_, ?_, ?_, ?_⟩, ?_⟩
    · show (handoffs.lookup env.generatedHandoffId).map handoffRecordFromRow = _
      rw [hlookup]
      simp [begunHandoff, handoffRowOf, beginHandoffRecord]
    · intro id hne
      show handoffs.lookup id = _
      rw [hlookup, if_neg]
      exact fun hid => hne hid.symm
    · intro id hne
      have hlease : id ≠ leaseId := hne
      exact Table.lookup_updateWhere_of_ne (by intro r; rfl)
        (fun r hr => of_decide_eq_true hr) hlease
    · intro id
      exact Table.map_lookup_updateWhere (by intro r; rfl) (by intro r; rfl) id
    · refine rowsAfter_of_leases (fun id => ?_) rfl
      exact Table.map_lookup_updateWhere (by intro r; rfl) (by intro r; rfl) id

theorem updateHandoffState_moves {expected : HandoffState}
    (hopen : expected.isTerminal = false) (next : HandoffState) (env : Env)
    (handoffId : String) (phase : HandoffJournalPhase) (s : MetadataDb) :
    (∃ e, updateHandoffState env handoffId expected next phase s = (.error e, s)) ∨
      ∃ h t, h.handoffId = handoffId ∧ h.state = expected ∧
        updateHandoffState env handoffId expected next phase s = (.ok { h with state := next }, t) ∧
        MovesHandoff s t h next ∧ RowsAfter s t none := by
  rcases updateHandoffState_cases env handoffId expected next phase s with
    ⟨e, heq⟩ | ⟨h, hstored, hstate, hcount, heq⟩
  · exact Or.inl ⟨e, heq⟩
  · have hid := MetadataDb.handoffId_of_getHandoff hstored
    subst hid hstate
    have hledger := MetadataDb.ledger_advanceHandoff next hstored hcount
    refine Or.inr ⟨h, _, rfl, rfl, heq, ⟨hstored, hopen, ?_, ?_, fun _ _ => rfl,
      fun _ => rfl⟩, rowsAfter_of_leases (fun _ => rfl) rfl⟩
    · exact (congrFun (congrArg Ledger.handoff hledger) h.handoffId).trans assign_self
    · intro id hne
      exact Table.lookup_updateWhere_of_ne (by intro r; rfl) (fun r hr => by
        simp only [MetadataDb.advanceable, Bool.and_eq_true, decide_eq_true_eq] at hr
        exact hr.1) hne

theorem moves_of_abortWrites {h : HandoffRecord} (now : UInt64)
    (hstored : s.getHandoff h.handoffId = some h) (hopen : h.state.isTerminal = false)
    (hhandoffs : t.handoffs = (s.abortWrites h now).handoffs)
    (hleases : t.leases = (s.abortWrites h now).leases) (hprojects : t.projects = s.projects) :
    MovesHandoff s t h .aborted ∧ RowsAfter s t none := by
  refine ⟨⟨hstored, hopen, (touches_abortWrites now hstored).congr hhandoffs hleases⟩, ?_⟩
  refine rowsAfter_of_leases (fun id => ?_) hprojects
  rw [hleases]
  exact Table.map_lookup_updateWhere (by intro r; rfl) (by intro r; rfl) id

theorem abortHandoffAt_moves (env : Env) (handoffId : String) (now : UInt64)
    (reason : String) (s : MetadataDb) :
    (∃ e, abortHandoffAt env handoffId now reason s = (.error e, s)) ∨
      (∃ h, s.getHandoff handoffId = some h ∧ h.state = .aborted ∧
        abortHandoffAt env handoffId now reason s = (.ok h, s)) ∨
      ∃ h t, h.handoffId = handoffId ∧
        abortHandoffAt env handoffId now reason s = (.ok { h with state := .aborted }, t) ∧
        MovesHandoff s t h .aborted ∧ RowsAfter s t none := by
  rcases abortHandoffAt_cases env handoffId now reason s with
    ⟨e, heq⟩ | ⟨h, hstored, haborted, heq⟩ | ⟨h, detail, hstored, hopen, heq⟩
  · exact Or.inl ⟨e, heq⟩
  · exact Or.inr (Or.inl ⟨h, hstored, haborted, heq⟩)
  · have hid := MetadataDb.handoffId_of_getHandoff hstored
    subst hid
    exact Or.inr (Or.inr ⟨h, _, rfl, heq, moves_of_abortWrites now hstored hopen rfl rfl rfl⟩)

/-- Without faults an abort fails for a committed handoff only. -/
theorem abortHandoffAt_stops {env : Env} {h : HandoffRecord} {reason detail : String}
    (now : UInt64) (henv : env.fault = noFault)
    (hdetail : env.json.reserialize (env.json.reasonObject reason) = .ok detail)
    (hstored : s.getHandoff h.handoffId = some h)
    (hproject : (s.projects.lookup h.projectId).isSome) (hcommitted : h.state ≠ .committed) :
    ∃ t, abortHandoffAt env h.handoffId now reason s = (.ok { h with state := .aborted }, t) := by
  have hselect : ∀ (k : HandoffRecord → Sql (Ending (Except DevRelayError HandoffRecord))),
      (selectHandoff h.handoffId >>= k).run s = (k h).run s := by
    intro k
    rw [selectHandoff, Prog.bind_assoc, Prog.run_query_bind, hstored]
    rfl
  unfold abortHandoffAt
  rw [henv, Prog.transaction_noFault, abortHandoffAtBody, hselect,
    Prog.ensure_bind_of_true hcommitted]
  by_cases haborted : h.state = .aborted
  · rw [if_pos haborted]
    refine ⟨s, ?_⟩
    rw [← haborted]
    rfl
  · have hnormal : normalizeJournalDetail env.json (some (env.json.reasonObject reason)) =
        .ok detail := by
      simp only [normalizeJournalDetail, hdetail]
    have hkept : (((s.markHandoffAborted h.handoffId now).releaseLease h.leaseId
        h.handoffId).handoffs.lookup h.handoffId).isSome := by
      have hafter := (touches_abortWrites now hstored).after
      obtain ⟨row, hrow, -⟩ := Option.map_eq_some_iff.mp hafter
      rw [MetadataDb.abortWrites] at hrow
      simp only at hrow
      rw [hrow]
      rfl
    rw [if_neg haborted, Prog.run_write_bind, Prog.run_write_bind, hnormal, Prog.ofExcept_ok_bind]
    have hprojects : (((s.markHandoffAborted h.handoffId now).releaseLease h.leaseId
        h.handoffId).projects.lookup h.projectId).isSome := hproject
    obtain ⟨record, hjournal⟩ := run_insertHandoffJournal_bind
      { h with state := .aborted } .aborted detail now
      (fun _ => (Prog.commitWith (.ok { h with state := .aborted }) :
        Sql (Ending (Except DevRelayError HandoffRecord)))) hkept hprojects
    rw [hjournal]
    exact ⟨_, rfl⟩

/-- The read after the transaction leaves the store alone. -/
theorem commitHandoffInner_snd (env : Env) (reread : Option DevRelayError)
    (handoffId observed : String) (now : UInt64)
    (preflight : Option HandoffCommitSnapshotPreflight) (s : MetadataDb) :
    (commitHandoffInner env reread handoffId observed now preflight s).2 =
      ((commitHandoffBody env handoffId observed now preflight).transaction
        env.fault s).2 := by
  rw [commitHandoffInner]
  rcases (commitHandoffBody env handoffId observed now preflight).transaction
    env.fault s with ⟨e | u, db'⟩
  · rfl
  · rfl

/-- The transaction of a commit moves its handoff to the end or aborts it. -/
theorem commitHandoffBody_moves (env : Env) (handoffId observed : String) (now : UInt64)
    (preflight : Option HandoffCommitSnapshotPreflight) (s : MetadataDb) :
    (∃ e, (commitHandoffBody env handoffId observed now preflight).transaction env.fault
        s = (.error e, s)) ∨
      (∃ h t e, h.handoffId = handoffId ∧ h.state = .sourceReady ∧
        commitAbortReason h observed now ≠ none ∧
        (commitHandoffBody env handoffId observed now preflight).transaction env.fault
          s = (.error e, t) ∧
        MovesHandoff s t h .aborted ∧ RowsAfter s t none) ∨
      ∃ h t, h.handoffId = handoffId ∧ h.state = .sourceReady ∧
        (∀ check ∈ preflight, check.verify h = .ok ()) ∧
        (commitHandoffBody env handoffId observed now preflight).transaction env.fault
          s = (.ok (), t) ∧
        MovesHandoff s t h .committed ∧ RowsAfter s t (some h.targetDeviceId) := by
  rcases commitHandoffBody_cases env handoffId observed now preflight s with
    ⟨e, heq⟩ | ⟨h, reason, hstored, hready, hreason, heq⟩ |
    ⟨h, audit, hstored, hadmitted, hverified, heq⟩
  · exact Or.inl ⟨e, heq⟩
  · have hid := MetadataDb.handoffId_of_getHandoff hstored
    subst hid
    have hopen : h.state.isTerminal = false := by
      rw [hready]
      rfl
    exact Or.inr (Or.inl ⟨h, _, _, rfl, hready, by rw [hreason]; exact Option.some_ne_none _,
      heq, moves_of_abortWrites now hstored hopen rfl rfl rfl⟩)
  · have hid := MetadataDb.handoffId_of_getHandoff hstored
    subst hid
    have hopen : h.state.isTerminal = false := by
      rw [hadmitted.sourceReady]
      rfl
    have htouches := touches_commitWrites now hstored hadmitted.transferable
    exact Or.inr (Or.inr ⟨h, _, rfl, hadmitted.sourceReady, hverified, heq,
      ⟨hstored, hopen, htouches.congr rfl rfl⟩, rowsAfter_commitWrites h now rfl rfl⟩)

end

end DevRelay.Storage
