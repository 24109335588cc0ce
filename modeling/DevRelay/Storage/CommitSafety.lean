import DevRelay.Storage.HandoffInvariant

/-!
# Commit safety

How a handoff comes to be committed.  `HandoffChange` lists what one call can do
to one handoff; walking a run backwards from the commit finds the marks and the
begin that came before it.
-/

namespace DevRelay.Storage

open DevRelay.Lib DevRelay.Core

/-! ## One call and one handoff -/

/-- How a call can give the handoff `handoffId` a new record. -/
inductive HandoffChange (db : MetadataDb) (call : Call) (handoffId : String) :
    HandoffRecord → Prop where
  | begun (leaseId source target generation : String) (ttl : UInt64) (l : LeaseRecord)
      (hop : call.op = .beginHandoff leaseId source target generation ttl)
      (hid : call.env.generatedHandoffId = handoffId)
      (hfresh : db.getHandoff handoffId = none) :
      HandoffChange db call handoffId
        (begunHandoff call.env l leaseId source target generation ttl)
  | marked (h : HandoffRecord) (next : HandoffState)
      (hstored : db.getHandoff handoffId = some h) (hphase : PhaseMark h.state next) :
      HandoffChange db call handoffId { h with state := next }
  | aborted (h : HandoffRecord) (hstored : db.getHandoff handoffId = some h) :
      HandoffChange db call handoffId { h with state := .aborted }
  | committed (h : HandoffRecord) (l : LeaseRecord) (observed : String) (now : UInt64)
      (hstored : db.getHandoff handoffId = some h)
      (hop : call.op.commitArgs = some (handoffId, observed, now))
      (hadmitted : CommitAdmitted db h observed now)
      (hlease : db.getLease h.leaseId = some l) (hepoch : l.epoch = h.expectedEpoch) :
      HandoffChange db call handoffId { h with state := .committed }

private theorem getHandoff_of_ledger {db' : MetadataDb} {s : Ledger}
    (h : db'.ledger = s) (handoffId : String) :
    db'.getHandoff handoffId = s.handoff handoffId :=
  congrFun (congrArg Ledger.handoff h) handoffId

private theorem Effect.handoff {db db' : MetadataDb} {call : Call}
    {reply : Except DevRelayError Unit} (heffect : Effect db call reply db')
    {handoffId : String} {h' : HandoffRecord} (hafter : db'.getHandoff handoffId = some h') :
    db.getHandoff handoffId = some h' ∨ HandoffChange db call handoffId h' := by
  cases heffect with
  | quiet _ hhandoffs _ =>
    rw [MetadataDb.getHandoff, hhandoffs] at hafter
    exact Or.inl hafter
  | begun leaseId source target generation ttl l hop _ _ hfresh hledger _ =>
    rw [getHandoff_of_ledger hledger] at hafter
    rcases assign_eq_some.mp hafter with ⟨rfl, rfl⟩ | ⟨-, hsame⟩
    · exact Or.inr (.begun leaseId source target generation ttl l hop rfl hfresh)
    · exact Or.inl hsame
  | marked h next hstored hphase hledger _ =>
    rw [getHandoff_of_ledger hledger] at hafter
    rcases assign_eq_some.mp hafter with ⟨rfl, rfl⟩ | ⟨-, hsame⟩
    · exact Or.inr (.marked h next hstored hphase)
    · exact Or.inl hsame
  | aborted h hstored _ _ hledger _ =>
    rw [getHandoff_of_ledger hledger] at hafter
    rcases assign_eq_some.mp hafter with ⟨rfl, rfl⟩ | ⟨-, hsame⟩
    · exact Or.inr (.aborted h hstored)
    · exact Or.inl hsame
  | committed h l observed now hop hadmitted hlease _ hepoch _ hledger _ =>
    rw [getHandoff_of_ledger hledger] at hafter
    rcases assign_eq_some.mp hafter with ⟨rfl, rfl⟩ | ⟨-, hsame⟩
    · exact Or.inr (.committed h l observed now hadmitted.stored hop hadmitted hlease
        hepoch)
    · exact Or.inl hsame
  | stored request l _ _ _ _ hhandoffs _ =>
    rw [MetadataDb.getHandoff, hhandoffs] at hafter
    exact Or.inl hafter
  | advanced request l _ _ _ hledger _ =>
    rw [getHandoff_of_ledger hledger] at hafter
    exact Or.inl hafter
  | forked request l parent _ _ hledger _ =>
    rw [getHandoff_of_ledger hledger] at hafter
    exact Or.inl hafter

/-! ## Phases along a run -/

/-- The handoff is stored in the given state. -/
def MetadataDb.InPhase (db : MetadataDb) (handoffId : String) (state : HandoffState) : Prop :=
  ∃ h, db.getHandoff handoffId = some h ∧ h.state = state

instance (db : MetadataDb) (handoffId : String) (state : HandoffState) :
    Decidable (db.InPhase handoffId state) :=
  decidable_of_iff ((db.getHandoff handoffId).map HandoffRecord.state = some state)
    (by simp [MetadataDb.InPhase])

/-- What was fixed when the handoff was begun. -/
def MetadataDb.BegunWith (db : MetadataDb) (handoffId leaseId target generation : String) : Prop :=
  ∃ h, db.getHandoff handoffId = some h ∧ h.leaseId = leaseId ∧
    h.targetDeviceId = target ∧ h.sourceGeneration = generation

section

variable {db : MetadataDb} {call : Call} {handoffId : String}

theorem step_handoff {h' : HandoffRecord} (hafter : (step db call).getHandoff handoffId = some h') :
    db.getHandoff handoffId = some h' ∨ HandoffChange db call handoffId h' :=
  (perform_effect db call).handoff hafter

theorem step_stored (hstored : (db.getHandoff handoffId).isSome) :
    ((step db call).getHandoff handoffId).isSome := by
  rcases step_ledger db call with heq | hstep
  · rw [getHandoff_of_ledger heq]
    exact hstored
  · exact hstep.stored_handoff hstored

theorem step_begunWith {leaseId target generation : String}
    (h : db.BegunWith handoffId leaseId target generation) :
    (step db call).BegunWith handoffId leaseId target generation := by
  obtain ⟨g, hg, hfixed⟩ := h
  have hstored : (db.getHandoff handoffId).isSome := by rw [hg]; rfl
  obtain ⟨g', hg'⟩ := Option.isSome_iff_exists.mp (step_stored hstored)
  rcases step_handoff hg' with hsame | hchange
  · cases hg.symm.trans hsame
    exact ⟨g, hg', hfixed⟩
  · cases hchange with
    | begun leaseId source target generation ttl l hop hid hfresh =>
      rw [hfresh] at hg
      cases hg
    | marked h next hstored hphase =>
      cases hg.symm.trans hstored
      exact ⟨_, hg', hfixed⟩
    | aborted h hstored =>
      cases hg.symm.trans hstored
      exact ⟨_, hg', hfixed⟩
    | committed h l observed now hstored hop hadmitted hlease hepoch =>
      cases hg.symm.trans hstored
      exact ⟨_, hg', hfixed⟩

/-- Who can bring a handoff into a phase, and what held before. -/
theorem inPhase_step {state : HandoffState} (hbefore : ¬db.InPhase handoffId state)
    (hafter : (step db call).InPhase handoffId state) :
    ∃ h', (step db call).getHandoff handoffId = some h' ∧ h'.state = state ∧
      HandoffChange db call handoffId h' := by
  obtain ⟨h', hh', hstate⟩ := hafter
  rcases step_handoff hh' with hsame | hchange
  · exact absurd ⟨h', hsame, hstate⟩ hbefore
  · exact ⟨h', hh', hstate, hchange⟩

theorem targetPrepare_step (hbefore : ¬db.InPhase handoffId .targetPrepare)
    (hafter : (step db call).InPhase handoffId .targetPrepare) :
    ∃ leaseId source target generation ttl,
      call.op = .beginHandoff leaseId source target generation ttl ∧
      call.env.generatedHandoffId = handoffId ∧
      (step db call).BegunWith handoffId leaseId target generation := by
  obtain ⟨h', hh', hstate, hchange⟩ := inPhase_step hbefore hafter
  cases hchange with
  | begun leaseId source target generation ttl l hop hid hfresh =>
    exact ⟨leaseId, source, target, generation, ttl, hop, hid, _, hh', rfl, rfl, rfl⟩
  | marked h next hstored hphase =>
    rcases hphase with ⟨-, rfl⟩ | ⟨-, rfl⟩
    · cases hstate
    · cases hstate
  | aborted h hstored => cases hstate
  | committed h l observed now hstored hop hadmitted hlease hepoch => cases hstate

theorem targetVerified_step (hbefore : ¬db.InPhase handoffId .targetVerified)
    (hafter : (step db call).InPhase handoffId .targetVerified) :
    db.InPhase handoffId .targetPrepare := by
  obtain ⟨h', hh', hstate, hchange⟩ := inPhase_step hbefore hafter
  cases hchange with
  | begun leaseId source target generation ttl l hop hid hfresh => cases hstate
  | marked h next hstored hphase =>
    rcases hphase with ⟨hexpected, -⟩ | ⟨-, rfl⟩
    · exact ⟨h, hstored, hexpected⟩
    · cases hstate
  | aborted h hstored => cases hstate
  | committed h l observed now hstored hop hadmitted hlease hepoch => cases hstate

theorem sourceReady_step (hbefore : ¬db.InPhase handoffId .sourceReady)
    (hafter : (step db call).InPhase handoffId .sourceReady) :
    db.InPhase handoffId .targetVerified := by
  obtain ⟨h', hh', hstate, hchange⟩ := inPhase_step hbefore hafter
  cases hchange with
  | begun leaseId source target generation ttl l hop hid hfresh => cases hstate
  | marked h next hstored hphase =>
    rcases hphase with ⟨-, rfl⟩ | ⟨hexpected, -⟩
    · cases hstate
    · exact ⟨h, hstored, hexpected⟩
  | aborted h hstored => cases hstate
  | committed h l observed now hstored hop hadmitted hlease hepoch => cases hstate

theorem committed_step (hbefore : ¬db.InPhase handoffId .committed)
    (hafter : (step db call).InPhase handoffId .committed) :
    ∃ h l observed now, db.getHandoff handoffId = some h ∧
      call.op.commitArgs = some (handoffId, observed, now) ∧
      CommitAdmitted db h observed now ∧ db.getLease h.leaseId = some l ∧
      l.epoch = h.expectedEpoch := by
  obtain ⟨h', hh', hstate, hchange⟩ := inPhase_step hbefore hafter
  cases hchange with
  | begun leaseId source target generation ttl l hop hid hfresh => cases hstate
  | marked h next hstored hphase =>
    rcases hphase with ⟨-, rfl⟩ | ⟨-, rfl⟩
    · cases hstate
    · cases hstate
  | aborted h hstored => cases hstate
  | committed h l observed now hstored hop hadmitted hlease hepoch =>
    exact ⟨h, l, observed, now, hstored, hop, hadmitted, hlease, hepoch⟩

end

/-! ## What a commit leaves alone -/

/-- Holder and epoch of a lease. -/
def MetadataDb.holding (db : MetadataDb) (leaseId : String) : Option (Option String × UInt64) :=
  (db.getLease leaseId).map fun l => (l.holderDeviceId, l.epoch)

theorem holding_abortWrites {db : MetadataDb} {h : HandoffRecord} (now : UInt64)
    (hstored : db.getHandoff h.handoffId = some h) (leaseId : String) :
    (db.abortWrites h now).holding leaseId = db.holding leaseId := by
  have hledger := MetadataDb.ledger_abortWrites now hstored
  have hlease : (db.abortWrites h now).getLease leaseId =
      alterAt db.getLease h.leaseId (Ledger.released h.handoffId) leaseId :=
    congrFun (congrArg Ledger.lease hledger) leaseId
  unfold MetadataDb.holding
  rw [hlease]
  refine map_alterAt fun l => ?_
  unfold Ledger.released
  split
  · rfl
  · rfl

/-- A commit that does not end with the handoff newly committed leaves every
holder and epoch as they were, whatever fails on the way. -/
theorem commitHandoffInner_holding (env : Env) (reread : Option DevRelayError)
    (handoffId observed : String) (now : UInt64)
    (preflight : Option HandoffCommitSnapshotPreflight) (db : MetadataDb)
    (hend : ¬((commitHandoffInner env reread handoffId observed now preflight
      db).2.InPhase handoffId .committed ∧ ¬db.InPhase handoffId .committed))
    (leaseId : String) :
    (commitHandoffInner env reread handoffId observed now preflight db).2.holding
      leaseId = db.holding leaseId := by
  rcases commitHandoffInner_cases env reread handoffId observed now preflight db with
    ⟨e, heq⟩ | ⟨h, reason, hstored, -, -, heq⟩ |
    ⟨h, audit, db', hstored, hadmitted, hdb, heq⟩
  · rw [heq]
  · rw [heq]
    have hid := MetadataDb.handoffId_of_getHandoff hstored
    subst hid
    exact holding_abortWrites now hstored leaseId
  · have hid := MetadataDb.handoffId_of_getHandoff hstored
    subst hid
    refine absurd ⟨?_, ?_⟩ hend
    · rw [heq]
      have hledger : db'.ledger = db.ledger.commit h (MetadataDb.nextEpoch h.expectedEpoch) := by
        rw [hdb]
        exact MetadataDb.ledger_commitWrites now hstored hadmitted.transferable
      exact ⟨_, (getHandoff_of_ledger hledger h.handoffId).trans assign_self, rfl⟩
    · rintro ⟨g, hg, hcommitted⟩
      cases hstored.symm.trans hg
      rw [hadmitted.sourceReady] at hcommitted
      cases hcommitted

theorem recoverHandoff_holding (env : Env) (reread : Option DevRelayError)
    (handoffId observed : String) (now : UInt64) (db : MetadataDb)
    (hend : ¬((recoverHandoff env reread handoffId observed now db).2.InPhase
      handoffId .committed ∧ ¬db.InPhase handoffId .committed)) (leaseId : String) :
    (recoverHandoff env reread handoffId observed now db).2.holding leaseId =
      db.holding leaseId := by
  rcases recoverHandoff_cases env reread handoffId observed now db with
    ⟨reply, heq⟩ | ⟨h, detail, hstored, -, -, heq⟩ | ⟨reply, db', -, hcommit, heq⟩
  · rw [heq]
  · rw [heq]
    have hid := MetadataDb.handoffId_of_getHandoff hstored
    subst hid
    exact holding_abortWrites now hstored leaseId
  · have hdb : (commitHandoffInner env reread handoffId observed now none db).2 = db' :=
      congrArg Prod.snd hcommit
    rw [heq] at hend ⊢
    rw [← hdb] at hend ⊢
    exact commitHandoffInner_holding env reread handoffId observed now none db hend leaseId

/-! ## Commit safety -/

/-- Whenever a handoff becomes committed in a run, it was begun, verified and
marked ready by earlier calls in this order, and the committing call came before
the expiry, with the generation given at the begin, for a target that is not
revoked and a lease still at the expected epoch.  Any commit or recovery that
does not commit leaves holders and epochs alone. -/
theorem commit_safety :
    (∀ (db : MetadataDb) (calls : List Call) (handoffId : String) (n : Nat)
      (hn : n < calls.length),
      (∀ h, db.getHandoff handoffId = some h → h.state.isTerminal = true) →
      ¬(storeAt db calls n).InPhase handoffId .committed →
      (storeAt db calls (n + 1)).InPhase handoffId .committed →
      ∃ (b v r : Nat) (hb : b < calls.length) (leaseId source target generation : String)
        (ttl : UInt64) (h : HandoffRecord) (l : LeaseRecord) (now : UInt64),
        b < v ∧ v < r ∧ r < n ∧
        calls[b].op = .beginHandoff leaseId source target generation ttl ∧
        calls[b].env.generatedHandoffId = handoffId ∧
        (storeAt db calls (b + 1)).InPhase handoffId .targetPrepare ∧
        (storeAt db calls (v + 1)).InPhase handoffId .targetVerified ∧
        (storeAt db calls (r + 1)).InPhase handoffId .sourceReady ∧
        calls[n].op.commitArgs = some (handoffId, generation, now) ∧
        (storeAt db calls n).getHandoff handoffId = some h ∧
        now ≤ h.expiresAtUnixSeconds ∧ h.sourceGeneration = generation ∧
        h.targetDeviceId = target ∧
        (storeAt db calls n).getDeviceRevocation target = none ∧
        h.leaseId = leaseId ∧ (storeAt db calls n).getLease leaseId = some l ∧
        l.epoch = h.expectedEpoch) ∧
    (∀ env reread handoffId observed now preflight db,
      ¬((commitHandoffInner env reread handoffId observed now preflight
        db).2.InPhase handoffId .committed ∧ ¬db.InPhase handoffId .committed) →
      ∀ leaseId, (commitHandoffInner env reread handoffId observed now preflight
        db).2.holding leaseId = db.holding leaseId) ∧
    (∀ env reread handoffId observed now db,
      ¬((recoverHandoff env reread handoffId observed now db).2.InPhase
        handoffId .committed ∧ ¬db.InPhase handoffId .committed) →
      ∀ leaseId, (recoverHandoff env reread handoffId observed now db).2.holding
        leaseId = db.holding leaseId) := by
  refine ⟨?_, commitHandoffInner_holding, recoverHandoff_holding⟩
  intro db calls handoffId n hn hstart hbefore hafter
  have hnot : ∀ state : HandoffState, state.isTerminal = false → ¬db.InPhase handoffId state := by
    rintro _ hopen ⟨h, hh, rfl⟩
    rw [hstart h hh] at hopen
    cases hopen
  rw [storeAt_succ hn] at hafter
  obtain ⟨h, l, observed, now, hh, hop, hadmitted, hlease, hepoch⟩ :=
    committed_step hbefore hafter
  -- walk back from the commit: ready at `r`, verified at `v`, begun at `b`
  obtain ⟨r, hrlen, hr, hrbefore, hrafter⟩ := exists_step_of_stateAt
    (P := fun db : MetadataDb => db.InPhase handoffId .sourceReady)
    (hnot .sourceReady rfl) ⟨h, hh, hadmitted.sourceReady⟩
  obtain ⟨v, hvlen, hv, hvbefore, hvafter⟩ := exists_step_of_stateAt
    (P := fun db : MetadataDb => db.InPhase handoffId .targetVerified)
    (hnot .targetVerified rfl) (sourceReady_step hrbefore hrafter)
  obtain ⟨b, hblen, hb, hbbefore, hbafter⟩ := exists_step_of_stateAt
    (P := fun db : MetadataDb => db.InPhase handoffId .targetPrepare)
    (hnot .targetPrepare rfl) (targetVerified_step hvbefore hvafter)
  obtain ⟨leaseId, source, target, generation, ttl, hbegin, hid, hfixed⟩ :=
    targetPrepare_step hbbefore hbafter
  rw [← storeAt_succ hblen] at hfixed hbafter
  rw [← storeAt_succ hvlen] at hvafter
  rw [← storeAt_succ hrlen] at hrafter
  obtain ⟨g, hg, rfl, rfl, rfl⟩ := stateAt_stable
    (P := fun db : MetadataDb => db.BegunWith handoffId leaseId target generation)
    (fun _ _ => step_begunWith) (by omega : b + 1 ≤ n) hfixed
  cases hh.symm.trans hg
  have hgeneration := hadmitted.generation
  subst hgeneration
  exact ⟨b, v, r, hblen, _, source, _, _, ttl, h, l, now, hb, hv, hr, hbegin, hid,
    hbafter, hvafter, hrafter, hop, hh, hadmitted.notExpired, rfl, rfl,
    hadmitted.notRevoked, rfl, hlease, hepoch⟩

/-- The demo handoff is committed by its last call, after the three phases; a
fault inside that commit leaves the lease with the first device. -/
theorem commit_safety_demo :
    (∃ b v r : Nat, b < v ∧ v < r ∧ r < 4 ∧
      (storeAt demoStore demoHandoff (b + 1)).InPhase "ho_1" .targetPrepare ∧
      (storeAt demoStore demoHandoff (v + 1)).InPhase "ho_1" .targetVerified ∧
      (storeAt demoStore demoHandoff (r + 1)).InPhase "ho_1" .sourceReady) ∧
    (commitHandoffInner { demoEnv 140 with injected := some .duringLeaseCommit } none
      "ho_1" "gen-1" 140 none (storeAt demoStore demoHandoff 4)).2.holding "lease-1" =
        some (some "device-a", 7) ∧
    (recoverHandoff (demoEnv 170) none "ho_1" "gen-1" 170
      (storeAt demoStore demoHandoff 4)).2.holding "lease-1" =
        some (some "device-a", 7) := by
  refine ⟨?_, ?_, ?_⟩
  · obtain ⟨b, v, r, -, -, -, -, -, -, -, -, -, hb, hv, hr, -, -, hprepare, hverified,
      hready, -⟩ := commit_safety.1 demoStore demoHandoff "ho_1" 4 (by decide)
        (fun h hh => by cases hh) (by decide) (by decide)
    exact ⟨b, v, r, hb, hv, hr, hprepare, hverified, hready⟩
  · rw [commit_safety.2.1 _ _ _ _ _ _ _ (by decide)]
    decide
  · rw [commit_safety.2.2 _ _ _ _ _ _ (by decide)]
    decide

end DevRelay.Storage
