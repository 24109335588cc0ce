import DevRelay.Storage.CommitSafety

/-!
# Repeated recovery

A recovery that settles its handoff finds it settled the next time, and one that
waits still waits.  A recovery that fails has left the store alone, with two
exceptions.  A source-ready handoff whose source has moved on is aborted by the
commit that rejects it, so the call fails and the handoff is closed; and the
record is read once more after a commit, which may fail when the lease has
already moved.
-/

namespace DevRelay.Storage

open DevRelay.Lib DevRelay.Core

/-- The state in which a recovery found or left the handoff, if it is terminal. -/
def terminalOutcome : HandoffRecoveryOutcome → Option HandoffState
  | .committed | .alreadyCommitted => some .committed
  | .abortedExpired | .alreadyAborted => some .aborted
  | .waitingForTarget => none

section

variable (env : Env) (reread : Option DevRelayError) (handoffId observed : String)
  (now : UInt64) (db : MetadataDb)

/-- The second of two recoveries in a row. -/
def recoverAgain : Except DevRelayError HandoffRecoveryOutcome × MetadataDb :=
  recoverHandoff env reread handoffId observed now
    (recoverHandoff env reread handoffId observed now db).2

/-- What two recoveries in a row with the same arguments should do. -/
structure RecoveryConverges : Prop where
  still : (recoverAgain env reread handoffId observed now db).2 =
    (recoverHandoff env reread handoffId observed now db).2
  same : (recoverAgain env reread handoffId observed now db).1.map terminalOutcome =
    (recoverHandoff env reread handoffId observed now db).1.map terminalOutcome
  failed : ∀ e, (recoverHandoff env reread handoffId observed now db).1 = .error e →
    (recoverHandoff env reread handoffId observed now db).2.handoffs = db.handoffs ∧
    (recoverHandoff env reread handoffId observed now db).2.leases = db.leases ∧
    (recoverHandoff env reread handoffId observed now db).2.handoffJournal =
      db.handoffJournal

/-- A source-ready handoff is recovered in time, but its source has another
generation: the call fails, the handoff is aborted and its lease released. -/
structure RecoveryRejected (handoff : HandoffRecord) : Prop where
  stored : db.getHandoff handoffId = some handoff
  sourceReady : handoff.state = .sourceReady
  inTime : now ≤ handoff.expiresAtUnixSeconds
  moved : observed ≠ handoff.sourceGeneration
  reply : (recoverHandoff env reread handoffId observed now db).1 =
    .error (commitRejected "source generation changed")
  handoffs : (recoverHandoff env reread handoffId observed now db).2.handoffs =
    (db.abortWrites handoff now).handoffs
  leases : (recoverHandoff env reread handoffId observed now db).2.leases =
    (db.abortWrites handoff now).leases
  again : recoverAgain env reread handoffId observed now db =
    (.ok .alreadyAborted, (recoverHandoff env reread handoffId observed now db).2)

/-- A recovery commits the handoff and then fails to read its record. -/
structure RecoveryUnread (e : DevRelayError) : Prop where
  unread : reread = some e
  reply : (recoverHandoff env reread handoffId observed now db).1 = .error e
  committed : (recoverHandoff env reread handoffId observed now db).2.InPhase handoffId
    .committed
  again : recoverAgain env reread handoffId observed now db =
    (.ok .alreadyCommitted, (recoverHandoff env reread handoffId observed now db).2)

end

/-! ## One call -/

section

variable {env : Env} {reread : Option DevRelayError} {handoffId observed : String}
  {now : UInt64} {db db' : MetadataDb} {handoff : HandoffRecord}

theorem recoverHandoff_of_committed (hread : env.readFault = none)
    (hstored : db.getHandoff handoffId = some handoff) (hstate : handoff.state = .committed) :
    recoverHandoff env reread handoffId observed now db = (.ok .alreadyCommitted, db) := by
  simp only [recoverHandoff, hread, hstored, hstate]

theorem recoverHandoff_of_aborted (hread : env.readFault = none)
    (hstored : db.getHandoff handoffId = some handoff) (hstate : handoff.state = .aborted) :
    recoverHandoff env reread handoffId observed now db = (.ok .alreadyAborted, db) := by
  simp only [recoverHandoff, hread, hstored, hstate]

theorem recoverHandoff_of_ready (hread : env.readFault = none)
    (hstored : db.getHandoff handoffId = some handoff) (hstate : handoff.state = .sourceReady)
    (hlive : now ≤ handoff.expiresAtUnixSeconds) :
    recoverHandoff env reread handoffId observed now db =
      ((commitHandoff env reread handoffId observed now db).1.map fun _ => .committed,
        (commitHandoff env reread handoffId observed now db).2) := by
  have hnot : ¬now > handoff.expiresAtUnixSeconds := UInt64.not_lt.mpr hlive
  simp only [recoverHandoff, hread, hstored, hstate, if_neg hnot, if_true]
  rcases commitHandoff env reread handoffId observed now db with ⟨e | record, db'⟩
  · rfl
  · rfl

theorem recoverHandoff_of_expired (hread : env.readFault = none)
    (hstored : db.getHandoff handoffId = some handoff) (hopen : handoff.state.isTerminal = false)
    (hexpired : now > handoff.expiresAtUnixSeconds) :
    recoverHandoff env reread handoffId observed now db =
      ((abortHandoffAt env handoffId now "expired during recovery" db).1.map
          fun _ => .abortedExpired,
        (abortHandoffAt env handoffId now "expired during recovery" db).2) := by
  unfold recoverHandoff
  rw [hread, hstored]
  rcases habort : abortHandoffAt env handoffId now "expired during recovery" db with
    ⟨e | record, db'⟩
  all_goals
    cases hstate : handoff.state with
    | committed => rw [hstate] at hopen; cases hopen
    | aborted => rw [hstate] at hopen; cases hopen
    | _ => simp only [hstate, if_pos hexpired]; rfl

theorem recoverHandoff_of_waiting (hread : env.readFault = none)
    (hstored : db.getHandoff handoffId = some handoff)
    (hopen : handoff.state.isTerminal = false) (hstate : handoff.state ≠ .sourceReady)
    (hlive : now ≤ handoff.expiresAtUnixSeconds) :
    recoverHandoff env reread handoffId observed now db = (.ok .waitingForTarget, db) := by
  have hnot : ¬now > handoff.expiresAtUnixSeconds := UInt64.not_lt.mpr hlive
  unfold recoverHandoff
  rw [hread, hstored]
  cases hphase : handoff.state with
  | committed => rw [hphase] at hopen; cases hopen
  | aborted => rw [hphase] at hopen; cases hopen
  | sourceReady => exact absurd hphase hstate
  | _ => simp only [hphase, if_neg hnot]; rfl

/-- A recovery that has left the store alone is the same call again. -/
theorem converges_of_unchanged
    (h : (recoverHandoff env reread handoffId observed now db).2 = db) :
    RecoveryConverges env reread handoffId observed now db := by
  have hagain : recoverAgain env reread handoffId observed now db =
      recoverHandoff env reread handoffId observed now db := by
    unfold recoverAgain
    rw [h]
  refine ⟨?_, ?_, ?_⟩
  · rw [hagain]
  · rw [hagain]
  · intro e _
    rw [h]
    exact ⟨rfl, rfl, rfl⟩

/-- A recovery that has settled the handoff. -/
theorem converges_of_settled {outcome again : HandoffRecoveryOutcome}
    (hreply : recoverHandoff env reread handoffId observed now db = (.ok outcome, db'))
    (hagain : recoverHandoff env reread handoffId observed now db' = (.ok again, db'))
    (hsame : terminalOutcome again = terminalOutcome outcome) :
    RecoveryConverges env reread handoffId observed now db := by
  have htwice : recoverAgain env reread handoffId observed now db = (.ok again, db') := by
    unfold recoverAgain
    rw [hreply]
    exact hagain
  refine ⟨?_, ?_, ?_⟩
  · rw [htwice, hreply]
  · rw [htwice, hreply]
    exact congrArg Except.ok hsame
  · intro e herror
    rw [hreply] at herror
    cases herror

private theorem stored_after_abort (hstored : db.getHandoff handoff.handoffId = some handoff) :
    (db.abortWrites handoff now).getHandoff handoff.handoffId =
      some { handoff with state := .aborted } :=
  (congrFun (congrArg Ledger.handoff (MetadataDb.ledger_abortWrites now hstored))
    handoff.handoffId).trans assign_self

private theorem stored_after_commit (hadmitted : CommitAdmitted db handoff observed now) :
    (db.commitWrites handoff now).getHandoff handoff.handoffId =
      some { handoff with state := .committed } :=
  (congrFun (congrArg Ledger.handoff (MetadataDb.ledger_commitWrites now hadmitted.stored
    hadmitted.transferable)) handoff.handoffId).trans assign_self

/-- An expired handoff: either the abort failed and nothing was written, or the
handoff is aborted now. -/
private theorem converges_of_expired (hread : env.readFault = none)
    (hstored : db.getHandoff handoffId = some handoff) (hopen : handoff.state.isTerminal = false)
    (hexpired : now > handoff.expiresAtUnixSeconds) :
    RecoveryConverges env reread handoffId observed now db := by
  have hcall : recoverHandoff env reread handoffId observed now db = _ :=
    recoverHandoff_of_expired hread hstored hopen hexpired
  rcases abortHandoffAt_cases env handoffId now "expired during recovery" db with
    ⟨e, habort⟩ | ⟨_, _, _, habort⟩ | ⟨handoff', detail, hstored', -, habort⟩
  · rw [habort] at hcall
    exact converges_of_unchanged (congrArg Prod.snd hcall)
  · rw [habort] at hcall
    exact converges_of_unchanged (congrArg Prod.snd hcall)
  · cases hstored.symm.trans hstored'
    have hid := MetadataDb.handoffId_of_getHandoff hstored
    subst hid
    rw [habort] at hcall
    exact converges_of_settled hcall
      (recoverHandoff_of_aborted hread (stored_after_abort hstored) rfl) rfl

/-- A handoff that a recovery hands on to a commit. -/
private theorem converges_of_ready (hread : env.readFault = none)
    (hstored : db.getHandoff handoffId = some handoff) (hstate : handoff.state = .sourceReady)
    (hlive : now ≤ handoff.expiresAtUnixSeconds) :
    RecoveryConverges env reread handoffId observed now db ∨
      RecoveryRejected env reread handoffId observed now db handoff ∨
      ∃ e, RecoveryUnread env reread handoffId observed now db e := by
  have hcall : recoverHandoff env reread handoffId observed now db = _ :=
    recoverHandoff_of_ready hread hstored hstate hlive
  have hid := MetadataDb.handoffId_of_getHandoff hstored
  subst hid
  unfold commitHandoff at hcall
  rcases commitHandoffInner_cases env reread handoff.handoffId observed now none db with
    ⟨e, hcommit⟩ | ⟨handoff', reason, hstored', -, hreason, hcommit⟩ |
    ⟨handoff', auditEvents, db', hstored', hadmitted, hdb', hcommit⟩
  · rw [hcommit] at hcall
    exact Or.inl (converges_of_unchanged (congrArg Prod.snd hcall))
  · cases hstored.symm.trans hstored'
    rw [hcommit] at hcall
    have hmoved : observed ≠ handoff.sourceGeneration ∧
        reason = "source generation changed" := by
      unfold commitAbortReason at hreason
      rw [if_neg (UInt64.not_lt.mpr hlive)] at hreason
      split at hreason
      · rename_i hmoved
        exact ⟨hmoved, (Option.some.inj hreason).symm⟩
      · cases hreason
    obtain ⟨hmoved, rfl⟩ := hmoved
    refine Or.inr (Or.inl ⟨hstored, hstate, hlive, hmoved, ?_, ?_, ?_, ?_⟩)
    · rw [hcall]
      rfl
    · rw [hcall]
    · rw [hcall]
    · unfold recoverAgain
      rw [hcall]
      exact recoverHandoff_of_aborted hread (stored_after_abort hstored) rfl
  · cases hstored.symm.trans hstored'
    rw [hcommit] at hcall
    have hafter : db'.getHandoff handoff.handoffId = some { handoff with state := .committed } := by
      rw [hdb']
      exact stored_after_commit hadmitted
    have hagain : recoverHandoff env reread handoff.handoffId observed now db' =
        (.ok .alreadyCommitted, db') := recoverHandoff_of_committed hread hafter rfl
    cases hreread : reread with
    | none =>
      rw [hreread] at hcall hagain
      rw [commitReply_of_stored hafter] at hcall
      exact Or.inl (converges_of_settled hcall hagain rfl)
    | some e =>
      rw [hreread] at hcall hagain
      have hcall : recoverHandoff env (some e) handoff.handoffId observed now db =
          (.error e, db') := hcall
      refine Or.inr (Or.inr ⟨e, rfl, ?_, ?_, ?_⟩)
      · rw [hcall]
      · rw [hcall]
        exact ⟨_, hafter, rfl⟩
      · unfold recoverAgain
        rw [hcall]
        exact hagain

end

/-- Two recoveries in a row with the same arguments: the second changes nothing
and reports the same terminal outcome, and a call that fails has left handoff,
lease and journal alone.  A rejected handoff is aborted by the call that fails,
and a commit stands when only its record could not be read. -/
theorem recoverHandoff_converges (env : Env) (reread : Option DevRelayError)
    (handoffId observed : String) (now : UInt64) (db : MetadataDb) :
    RecoveryConverges env reread handoffId observed now db ∨
      (∃ handoff, RecoveryRejected env reread handoffId observed now db handoff) ∨
      ∃ e, RecoveryUnread env reread handoffId observed now db e := by
  cases hread : env.readFault with
  | some e =>
    left
    apply converges_of_unchanged
    simp only [recoverHandoff, hread]
  | none =>
    cases hstored : db.getHandoff handoffId with
    | none =>
      left
      apply converges_of_unchanged
      simp only [recoverHandoff, hread, hstored]
    | some handoff =>
      by_cases hopen : handoff.state.isTerminal = false
      · by_cases hlive : now ≤ handoff.expiresAtUnixSeconds
        · by_cases hstate : handoff.state = .sourceReady
          · rcases converges_of_ready hread hstored hstate hlive with h | h | h
            · exact Or.inl h
            · exact Or.inr (Or.inl ⟨handoff, h⟩)
            · exact Or.inr (Or.inr h)
          · left
            apply converges_of_unchanged
            rw [recoverHandoff_of_waiting hread hstored hopen hstate hlive]
        · exact Or.inl (converges_of_expired hread hstored hopen
            (UInt64.not_le.mp hlive))
      · left
        apply converges_of_unchanged
        cases hstate : handoff.state with
        | committed => rw [recoverHandoff_of_committed hread hstored hstate]
        | aborted => rw [recoverHandoff_of_aborted hread hstored hstate]
        | _ => rw [hstate] at hopen; exact absurd rfl hopen

/-- The demo handoff is source-ready, and its source has moved on to another
generation: the recovery fails and the handoff is aborted. -/
theorem rejected_recovery_aborts :
    ¬RecoveryConverges (demoEnv 140) none "ho_1" "gen-2" 140
      (storeAt demoStore demoHandoff 4) := by
  intro h
  have hreply : (recoverHandoff (demoEnv 140) none "ho_1" "gen-2" 140
      (storeAt demoStore demoHandoff 4)).1 =
      .error (commitRejected "source generation changed") := by decide
  have hkept := (h.failed _ hreply).1
  have haborted : (recoverHandoff (demoEnv 140) none "ho_1" "gen-2" 140
      (storeAt demoStore demoHandoff 4)).2.InPhase "ho_1" .aborted := by decide
  have hready : (storeAt demoStore demoHandoff 4).InPhase "ho_1" .sourceReady := by decide
  obtain ⟨g, hg, hgstate⟩ := haborted
  obtain ⟨r, hr, hrstate⟩ := hready
  unfold MetadataDb.getHandoff at hg hr
  rw [hkept, hr] at hg
  cases hg
  rw [hrstate] at hgstate
  cases hgstate

end DevRelay.Storage
