import DevRelay.Agent.HandoffEvents

/-!
# Events mirror the states

Each handler reads the previous state, runs its transaction and publishes.  What
it holds between these steps is `Noted`: the state that it read is still the
stored one, or it has changed the state and owes the event.
-/

namespace DevRelay.Agent

open DevRelay.Lib DevRelay.Core DevRelay.Storage DevRelay.Remote

/-! ## What a call knows of its handoff -/

section

variable {config : AgentConfig} {project handoffId : String} {call : AgentCall}

/-- Every step of the thread is a read, a change or a publication, and what it
returns satisfies `K`. -/
abbrev Tells {α : Type} (config : AgentConfig) (project handoffId : String)
    (call : AgentCall) (K : α → Mode HandoffState → AgentWorld → Prop)
    (m : Mode HandoffState) (p : AgentThread α) (w : AgentWorld) : Prop :=
  p.Reports (handoffReporting config project handoffId) call (Thread.Leaves K) m w

abbrev Between (config : AgentConfig) (project handoffId : String) (call : AgentCall)
    (m : Mode HandoffState) (w w' : AgentWorld) : Prop :=
  (handoffReporting config project handoffId).Between call m w w'

/-- The handoff of the project `q` that a call is on is the observed one. -/
abbrev IsHandoff (project handoffId q hid : String) : Prop :=
  q = project ∧ hid = handoffId

/-- The call named `previous` as the state before, and this is still the stored
state, or it has changed the state and owes the event. -/
structure Noted (config : AgentConfig) (project handoffId : String) (call : AgentCall)
    (q hid : String) (previous : Option HandoffState) (m : Mode HandoffState)
    (w : AgentWorld) : Prop where
  same : IsHandoff project handoffId q hid →
    (m = .quiet ∧ storedState project handoffId w = previous ∧
      call.Concerns config project handoffId w) ∨
    ∃ state, m = .owing previous ∧ storedState project handoffId w = some state ∧
      previous ≠ some state
  other : ¬IsHandoff project handoffId q hid → m = .quiet

/-- What a call holds when it has the record `h`, which is the stored one. -/
structure Told (config : AgentConfig) (project handoffId : String) (call : AgentCall)
    (q hid : String) (previous : Option HandoffState) (h : HandoffRecord)
    (m : Mode HandoffState) (w : AgentWorld) : Prop where
  ofProject : h.projectId = q
  named : h.handoffId = hid
  stored : IsHandoff project handoffId q hid →
    storedState project handoffId w = some h.state
  noted : Noted config project handoffId call q hid previous m w

/-- A call that the handoff concerns still finds the state that it had in `w`. -/
def Remembers (config : AgentConfig) (project handoffId : String) (call : AgentCall)
    (w w' : AgentWorld) : Prop :=
  call.Concerns config project handoffId w →
    storedState project handoffId w' = storedState project handoffId w ∧
      call.Concerns config project handoffId w'

theorem remembers_of_between {m : Mode HandoffState} {w w' : AgentWorld}
    (hbetween : Between config project handoffId call m w w') :
    Remembers config project handoffId call w w' := by
  intro hconcerns
  have hkept : FrozenHome w w' := Reporting.Between.kept hbetween
  exact ⟨Reporting.Between.value hbetween hconcerns, hconcerns.frozen hkept⟩

section

variable {q hid : String} {previous : Option HandoffState} {m : Mode HandoffState}
  {w w' : AgentWorld}

theorem Noted.between (hnoted : Noted config project handoffId call q hid previous m w)
    (hbetween : Between config project handoffId call m w w') :
    Noted config project handoffId call q hid previous m w' where
  same his := by
    rcases hnoted.same his with ⟨rfl, hstored, hconcerns⟩ | ⟨state, rfl, hstored, hne⟩
    · exact Or.inl ⟨rfl, (hbetween.2 hconcerns).trans hstored, hconcerns.frozen hbetween.1⟩
    · exact Or.inr ⟨state, rfl, hbetween.2.trans hstored, hne⟩
  other := hnoted.other

theorem Noted.storedState_between
    (hnoted : Noted config project handoffId call q hid previous m w)
    (hbetween : Between config project handoffId call m w w')
    (his : IsHandoff project handoffId q hid) :
    storedState project handoffId w' = storedState project handoffId w := by
  rcases hnoted.same his with ⟨rfl, -, hconcerns⟩ | ⟨state, rfl, -, -⟩
  · exact hbetween.2 hconcerns
  · exact hbetween.2

theorem Told.between {h : HandoffRecord}
    (htold : Told config project handoffId call q hid previous h m w)
    (hbetween : Between config project handoffId call m w w') :
    Told config project handoffId call q hid previous h m w' where
  ofProject := htold.ofProject
  named := htold.named
  stored his := (htold.noted.storedState_between hbetween his).trans (htold.stored his)
  noted := htold.noted.between hbetween

/-- A record that is read is the stored one. -/
theorem Noted.told (hnoted : Noted config project handoffId call q hid previous m w)
    (hrows : OwnRows w) {h : HandoffRecord} (hread : (w.projectDb q).getHandoff hid = some h) :
    Told config project handoffId call q hid previous h m w where
  ofProject := hrows.handoffs q hid h hread
  named := MetadataDb.handoffId_of_getHandoff hread
  stored := by
    rintro ⟨rfl, rfl⟩
    rw [storedState, hread]
    rfl
  noted := hnoted

/-- A call that owes an event finds its handoff. -/
theorem Noted.found (hnoted : Noted config project handoffId call q hid previous m w)
    (hread : (w.projectDb q).getHandoff hid = none) : m = .quiet := by
  by_cases his : IsHandoff project handoffId q hid
  · rcases hnoted.same his with ⟨rfl, -, -⟩ | ⟨state, -, hstored, -⟩
    · rfl
    · obtain ⟨rfl, rfl⟩ := his
      rw [storedState, hread] at hstored
      cases hstored
  · exact hnoted.other his

end

/-! ## Steps -/

theorem onProject_bind {α β : Type} (q : String) (err : DevRelayError → RpcError)
    (p : SqlThread α) (f : α → SqlThread β) :
    onProject q err (p >>= f) = onProject q err p >>= fun a => onProject q err (f a) :=
  Thread.embed_bind p f

theorem onProject_observe {α : Type} (q : String) (err : DevRelayError → RpcError)
    (f : Env → MetadataDb → Except DevRelayError α) :
    onProject q err (Thread.observe f) =
      Thread.observe fun input w => (f input.env (w.projectDb q)).mapError err :=
  Thread.embed_observe (fun w => w.setProjectDb_self q) f

theorem tells_open (err : AgentError → RpcError) (q : String) (w : AgentWorld) :
    Tells config project handoffId call (fun _ m _ => m = .quiet) .quiet
      (openRegisteredProjectDb config err q) w :=
  Thread.leaves_check fun _ _ => Thread.leaves_observe fun _ _ _ _ _ _ _ => rfl

/-- A read that fails is one of a quiet call. -/
theorem quiet_of_fault {w : AgentWorld} {input : AgentInput} {m : Mode HandoffState}
    {e : DevRelayError} (hstanding : (handoffReporting config project handoffId).Standing call m w)
    (hinput : Publishable config project handoffId call input w)
    (hfault : input.env.readFault = some e) : m = .quiet := by
  cases m with
  | quiet => rfl
  | owing before =>
    obtain ⟨hconcerns, hlast, hne⟩ := hstanding
    have hreadable := hinput.readable hconcerns fun hsync => hne (hsync.symm.trans hlast)
    rw [hfault] at hreadable
    cases hreadable

/-- A read succeeds while the call owes an event. -/
theorem tells_read {α : Type} {q : String} {err : DevRelayError → RpcError}
    {f : MetadataDb → α} {K : α → Mode HandoffState → AgentWorld → Prop}
    {m : Mode HandoffState} {w : AgentWorld}
    (hK : ∀ t, OwnRows t → Between config project handoffId call m w t →
      K (f (t.projectDb q)) m t) :
    Tells config project handoffId call K m (onProject q err (readStep f)) w := by
  rw [readStep, onProject_observe]
  apply Thread.reports_observe
  intro t ht hstanding hbetween input hinput
  cases hfault : input.env.readFault with
  | none => exact hK t ht hbetween
  | some e => exact quiet_of_fault hstanding hinput hfault

/-- A transaction on the handoff `hid` that answers with what is stored. -/
def TxOutcome (hid : String) (s : MetadataDb)
    (r : Except DevRelayError HandoffRecord × MetadataDb) : Prop :=
  (∃ e, r = (.error e, s)) ∨ (∃ h, s.getHandoff hid = some h ∧ r = (.ok h, s)) ∨
    ∃ h next t, h.handoffId = hid ∧ h.state ≠ next ∧
      r = (.ok { h with state := next }, t) ∧ MovesHandoff s t h next

theorem storedState_moves (project handoffId : String) {w : AgentWorld} {q : String}
    {db : MetadataDb} {h : HandoffRecord} {next : HandoffState}
    (hmoves : MovesHandoff (w.projectDb q) db h next) :
    (IsHandoff project handoffId q h.handoffId →
      storedState project handoffId w = some h.state ∧
        storedState project handoffId (w.setProjectDb q db) = some next) ∧
    (¬IsHandoff project handoffId q h.handoffId →
      storedState project handoffId (w.setProjectDb q db) = storedState project handoffId w) := by
  unfold storedState
  constructor
  · rintro ⟨rfl, rfl⟩
    have hafter := hmoves.touches.after
    rw [projectDb_setProjectDb, hmoves.stored]
    refine ⟨rfl, ?_⟩
    rw [show db.getHandoff h.handoffId = some { h with state := next } from hafter]
    rfl
  · intro hother
    by_cases hq : project = q
    · subst hq
      rw [projectDb_setProjectDb, getHandoff_of_touches hmoves.touches]
      exact fun hid => hother ⟨rfl, hid.symm⟩
    · rw [projectDb_setProjectDb_of_ne w db hq]

/-- A step of a quiet call that moves the handoff `h`. -/
theorem moves_of_moved {w : AgentWorld} {q : String} {db : MetadataDb}
    {h : HandoffRecord} {next : HandoffState}
    (hmoves : MovesHandoff (w.projectDb q) db h next) (hne : h.state ≠ next)
    (hconcerns : IsHandoff project handoffId q h.handoffId →
      call.Concerns config project handoffId w) :
    ∃ m, (handoffReporting config project handoffId).Moves call w (w.setProjectDb q db)
        .quiet m ∧
      (IsHandoff project handoffId q h.handoffId → m = .owing (some h.state)) ∧
      (¬IsHandoff project handoffId q h.handoffId → m = .quiet) := by
  obtain ⟨hsame, hother⟩ := storedState_moves project handoffId hmoves
  by_cases his : IsHandoff project handoffId q h.handoffId
  · obtain ⟨hbefore, hafter⟩ := hsame his
    refine ⟨.owing (storedState project handoffId w), .change ?_ ?_ rfl,
      fun _ => by rw [hbefore], fun hnot => absurd his hnot⟩
    · exact (hconcerns his).frozen (frozenHome_setProjectDb (frozen_of_moves hmoves))
    · show storedState project handoffId (w.setProjectDb q db) ≠
        storedState project handoffId w
      rw [hbefore, hafter]
      exact fun heq => hne (Option.some.inj heq).symm
  · exact ⟨.quiet, .idle _ (hother his) rfl, fun h => absurd h his, fun _ => rfl⟩

section

variable {q hid : String} {err : DevRelayError → RpcError} {previous : Option HandoffState}
  {w : AgentWorld}

/-- A quiet call moves the handoff that it is on. -/
theorem noted_of_moved {db : MetadataDb} {h : HandoffRecord} {next : HandoffState}
    (hnoted : Noted config project handoffId call q h.handoffId previous .quiet w)
    (hmoves : MovesHandoff (w.projectDb q) db h next) (hne : h.state ≠ next) :
    ∃ m, (handoffReporting config project handoffId).Moves call w (w.setProjectDb q db)
        .quiet m ∧
      Noted config project handoffId call q h.handoffId previous m (w.setProjectDb q db) ∧
      (IsHandoff project handoffId q h.handoffId →
        storedState project handoffId (w.setProjectDb q db) = some next) ∧
      (¬IsHandoff project handoffId q h.handoffId → m = .quiet) := by
  have hquiet : IsHandoff project handoffId q h.handoffId →
      storedState project handoffId w = previous ∧ call.Concerns config project handoffId w := by
    intro his
    rcases hnoted.same his with ⟨-, hprevious, hconcerns⟩ | ⟨_, howing, -, -⟩
    · exact ⟨hprevious, hconcerns⟩
    · cases howing
  obtain ⟨hsame, -⟩ := storedState_moves project handoffId hmoves
  obtain ⟨m, hm, his, hother⟩ := moves_of_moved hmoves hne fun his => (hquiet his).2
  refine ⟨m, hm, ⟨fun h' => Or.inr ⟨next, ?_, (hsame h').2, ?_⟩, hother⟩,
    fun h' => (hsame h').2, hother⟩
  · rw [his h', ← (hquiet h').1, (hsame h').1]
  · rw [← (hquiet h').1, (hsame h').1]
    exact fun heq => hne (Option.some.inj heq)

theorem tells_transaction
    {f : Env → MetadataDb → Except DevRelayError HandoffRecord × MetadataDb}
    (hf : ∀ env db, TxOutcome hid db (f env db))
    (hnoted : Noted config project handoffId call q hid previous .quiet w) :
    Tells config project handoffId call
      (fun h m t => Told config project handoffId call q hid previous h m t ∧
        (¬IsHandoff project handoffId q hid → Remembers config project handoffId call w t))
      .quiet (onProject q err (Thread.atomically f)) w := by
  rw [onProject, Thread.embed_atomically]
  apply Thread.reports_atomically
  intro t ht _ hbetween input _
  have hnoted' := hnoted.between hbetween
  rcases hf input.env (t.projectDb q) with
    ⟨e, heq⟩ | ⟨h, hstored, heq⟩ | ⟨h, next, db, hid', hne, heq, hmoves⟩
  · rw [heq, AgentWorld.setProjectDb_self]
    exact ⟨.quiet, .idle _ rfl rfl, rfl⟩
  · rw [heq, AgentWorld.setProjectDb_self]
    exact ⟨.quiet, .idle _ rfl rfl, hnoted'.told ht hstored, fun _ => remembers_of_between hbetween⟩
  · rw [heq]
    subst hid'
    obtain ⟨m, hm, hmoved, hstored, -⟩ := noted_of_moved hnoted' hmoves hne
    refine ⟨m, hm, ⟨ht.handoffs q _ h hmoves.stored, rfl, hstored, hmoved⟩,
      fun hother hconcerns => ?_⟩
    obtain ⟨hsame, hconcerns'⟩ := remembers_of_between hbetween hconcerns
    exact ⟨((storedState_moves project handoffId hmoves).2 hother).trans hsame,
      hconcerns'.frozen (frozenHome_setProjectDb (frozen_of_moves hmoves))⟩

theorem tells_commit {observed : String} {now : UInt64}
    (hnoted : Noted config project handoffId call q hid previous .quiet w)
    (haccepted : ∀ t input, Between config project handoffId call .quiet w t →
      Publishable config project handoffId call input t →
      IsHandoff project handoffId q hid →
      ∀ h, (t.projectDb q).getHandoff hid = some h → h.state = .sourceReady →
        commitAbortReason h observed now = none) :
    Tells config project handoffId call
      (fun h m t => Told config project handoffId call q hid previous h m t) .quiet
      (onProject q err (commitHandoffSteps hid observed now none)) w := by
  rw [commitHandoffSteps, onProject_bind]
  apply Thread.Reports.andThen
    (K := fun _ m t => Noted config project handoffId call q hid previous m t)
  · rw [onProject, Thread.embed_atomically]
    apply Thread.reports_atomically
    intro t ht _ hbetween input hinput
    have hnoted' := hnoted.between hbetween
    rcases commitHandoffBody_moves input.env hid observed now none (t.projectDb q) with
      ⟨e, heq⟩ | ⟨h, db, e, hid', hready, hrejected, heq, hmoves, -⟩ |
      ⟨h, db, hid', hready, -, heq, hmoves, -⟩
    · rw [heq, AgentWorld.setProjectDb_self]
      exact ⟨.quiet, .idle _ rfl rfl, rfl⟩
    · rw [heq]
      subst hid'
      obtain ⟨m, hm, -, -, hother⟩ := noted_of_moved hnoted' hmoves
        (by rw [hready]; decide)
      refine ⟨m, hm, hother fun his => hrejected ?_⟩
      exact haccepted t input hbetween hinput his h hmoves.stored hready
    · rw [heq]
      subst hid'
      obtain ⟨m, hm, hmoved, -, -⟩ := noted_of_moved hnoted' hmoves
        (by rw [hready]; decide)
      exact ⟨m, hm, hmoved⟩
  · intro _ m t hmoved
    rw [onProject_observe]
    apply Thread.reports_observe
    intro u hu hstanding hbetween input hinput
    have hmoved' := hmoved.between hbetween
    cases hfault : input.env.readFault with
    | some e => exact quiet_of_fault hstanding hinput hfault
    | none =>
      cases hread : (u.projectDb q).getHandoff hid with
      | none =>
        have hreply : commitReply none hid (u.projectDb q) =
            .error (.config "handoff commit disappeared") := by
          simp only [commitReply, hread]
        rw [hreply]
        exact hmoved'.found hread
      | some h =>
        rw [commitReply_of_stored hread]
        exact hmoved'.told hu hread

theorem abortHandoffAt_outcome (env : Env) (now : UInt64) (reason : String)
    (db : MetadataDb) : TxOutcome hid db (abortHandoffAt env hid now reason db) := by
  rcases abortHandoffAt_moves env hid now reason db with
    ⟨e, heq⟩ | ⟨h, hstored, -, heq⟩ | ⟨h, t, hid', heq, hmoves, -⟩
  · exact Or.inl ⟨e, heq⟩
  · exact Or.inr (Or.inl ⟨h, hstored, heq⟩)
  · refine Or.inr (Or.inr ⟨h, .aborted, t, hid', fun haborted => ?_, heq, hmoves⟩)
    have hopen := hmoves.isOpen
    rw [haborted] at hopen
    cases hopen

theorem updateHandoffState_outcome {expected next : HandoffState}
    (hopen : expected.isTerminal = false) (hne : expected ≠ next) (env : Env)
    (phase : HandoffJournalPhase) (db : MetadataDb) :
    TxOutcome hid db (updateHandoffState env hid expected next phase db) := by
  rcases updateHandoffState_moves hopen next env hid phase db with
    ⟨e, heq⟩ | ⟨h, t, hid', hstate, heq, hmoves, -⟩
  · exact Or.inl ⟨e, heq⟩
  · exact Or.inr (Or.inr ⟨h, next, t, hid', by rw [hstate]; exact hne, heq, hmoves⟩)

theorem tells_recover {observed : String} {now : UInt64}
    (hnoted : Noted config project handoffId call q hid previous .quiet w)
    (haccepted : ∀ t input, Between config project handoffId call .quiet w t →
      Publishable config project handoffId call input t →
      IsHandoff project handoffId q hid →
      ∀ h, (t.projectDb q).getHandoff hid = some h → h.state = .sourceReady →
        now > h.expiresAtUnixSeconds ∨ commitAbortReason h observed now = none) :
    Tells config project handoffId call
      (fun _ m t => Noted config project handoffId call q hid previous m t) .quiet
      (onProject q err (recoverHandoffSteps hid observed now)) w := by
  rw [recoverHandoffSteps, onProject_bind]
  apply Thread.Reports.andThen (K := fun handoff m t => m = .quiet ∧
    Noted config project handoffId call q hid previous .quiet t ∧
    Between config project handoffId call .quiet w t ∧
    (t.projectDb q).getHandoff hid = handoff)
  · exact tells_read fun t _ hbetween => ⟨rfl, hnoted.between hbetween, hbetween, rfl⟩
  · rintro handoff _ t ⟨rfl, hnoted', hbetween, hread⟩
    have hexpired : Tells config project handoffId call
        (fun _ m t => Noted config project handoffId call q hid previous m t) .quiet
        (onProject q err (Thread.atomically (fun env db => abortHandoffAt env hid now
          "expired during recovery" db) >>= fun _ =>
            (pure .abortedExpired : SqlThread HandoffRecoveryOutcome))) t := by
      rw [onProject_bind]
      apply Thread.Reports.andThen
        (tells_transaction (fun env db => abortHandoffAt_outcome env now _ db) hnoted')
      exact fun h m u htold => Thread.leaves_pure htold.1.noted
    cases handoff with
    | none => exact Thread.leaves_fail _
    | some g =>
      simp only
      split
      · exact Thread.leaves_pure hnoted'
      · exact Thread.leaves_pure hnoted'
      · split
        · exact hexpired
        · rename_i hlive
          split
          · rw [onProject_bind]
            apply Thread.Reports.andThen (tells_commit hnoted' ?_)
            · exact fun h m u htold => Thread.leaves_pure htold.noted
            · intro u input hbetween' hinput his h hstored hready
              rcases haccepted u input (hbetween.trans hbetween') hinput his h hstored hready
                with hexpired | haccepted
              · -- the record that was read has the same expiry
                obtain ⟨state, hsame⟩ := (hbetween'.1 q).handoffs hid g hread
                cases hsame.symm.trans hstored
                exact absurd hexpired hlive
              · exact haccepted
          · exact Thread.leaves_pure hnoted'

theorem tells_requireProject {m : Mode HandoffState}
    (hnoted : Noted config project handoffId call q hid previous m w) :
    Tells config project handoffId call (fun h m' t => m' = m ∧
      Told config project handoffId call q hid previous h m t) m
      (onProject q err (requireHandoffProject q hid)) w := by
  rw [requireHandoffProject, onProject_bind]
  apply Thread.Reports.andThen (K := fun handoff m' t => m' = m ∧ OwnRows t ∧
    Noted config project handoffId call q hid previous m t ∧
    (t.projectDb q).getHandoff hid = handoff)
  · exact tells_read fun t ht hbetween => ⟨rfl, ht, hnoted.between hbetween, rfl⟩
  · rintro handoff _ t ⟨rfl, ht, hnoted', hread⟩
    cases handoff with
    | none => exact hnoted'.found hread
    | some h =>
      have hproject : requireProject h.projectId q "remote handoff" = .ok () :=
        require_eq_ok.mpr (decide_eq_true (ht.handoffs q hid h hread))
      simp only
      rw [hproject]
      exact Thread.leaves_pure ⟨rfl, hnoted'.told ht hread⟩

theorem tells_journal {h : HandoffRecord} {m : Mode HandoffState}
    (htold : Told config project handoffId call q hid previous h m w) :
    Tells config project handoffId call (fun result m t =>
      Told config project handoffId call q hid previous result.handoff m t) m
      (onProject q err (handoffMutationResult h)) w := by
  rw [handoffMutationResult, onProject_bind]
  apply Thread.Reports.andThen (K := fun _ m t =>
    Told config project handoffId call q hid previous h m t)
  · exact tells_read fun t _ hbetween => htold.between hbetween
  · exact fun journal m t htold => Thread.leaves_pure htold

end

/-! ## Publishing -/

theorem publish_ok {events : EventStream AgentEventPayload} (now : UInt64)
    (event : HandoffStateChangedEvent) (hnumbered : events.inner.nextSequence ≠ 0)
    (hleft : events.inner.nextSequence.toNat + 1 < 2 ^ 64) :
    ∃ envelope events', events.publish now event.typedPayload = (.ok envelope, events') ∧
      envelope.payload = .handoffStateChanged event ∧
      events'.inner.events = events.inner.events ++ [envelope] := by
  have hnext : checkedAdd events.inner.nextSequence 1 =
      some (events.inner.nextSequence + 1) := checkedAdd_of_lt hleft
  have hsequence : EventSequence.new events.inner.nextSequence =
      some ⟨events.inner.nextSequence, hnumbered⟩ := dif_neg hnumbered
  unfold EventStream.publish
  rw [hsequence, hnext]
  exact ⟨_, _, rfl, rfl, rfl⟩

theorem handoffEvents_concat (project handoffId : String) {w : AgentWorld}
    {events : EventStream AgentEventPayload}
    {envelope : EventEnvelope AgentEventPayload} (h : HandoffRecord)
    (previous : Option HandoffState) (hpayload : envelope.payload =
      .handoffStateChanged (HandoffStateChangedEvent.fromHandoff h previous))
    (hevents : events.inner.events = w.events.inner.events ++ [envelope]) :
    handoffEvents project handoffId { w with events } =
      handoffEvents project handoffId w ++
        if IsHandoff project handoffId h.projectId h.handoffId then [(previous, h.state)]
        else [] := by
  have hchange : handoffChange project handoffId envelope =
      if IsHandoff project handoffId h.projectId h.handoffId then some (previous, h.state)
      else none := by
    rw [handoffChange, hpayload]
    rfl
  unfold handoffEvents
  rw [hevents, List.filterMap_append]
  congr 1
  rw [List.filterMap_cons, hchange]
  split
  · rename_i hnone
    split at hnone
    · cases hnone
    · rw [if_neg (by assumption)]
      rfl
  · rename_i hsome
    split at hsome
    · cases hsome
      rw [if_pos (by assumption)]
      rfl
    · cases hsome

theorem tells_publish {q hid : String} {previous : Option HandoffState} {h : HandoffRecord}
    {m : Mode HandoffState} {w : AgentWorld}
    (htold : Told config project handoffId call q hid previous h m w) :
    Tells config project handoffId call
      (fun _ m t => m = .quiet ∧ Remembers config project handoffId call w t) m
      (publishHandoffStateChanged h previous) w := by
  unfold publishHandoffStateChanged
  split
  · rename_i hsame
    -- nothing to tell: the call has not changed the state
    apply Thread.leaves_pure
    refine ⟨?_, fun hconcerns => ⟨rfl, hconcerns⟩⟩
    by_cases his : IsHandoff project handoffId q hid
    · rcases htold.noted.same his with ⟨hquiet, -, -⟩ | ⟨state, -, hstored, hne⟩
      · exact hquiet
      · rw [htold.stored his] at hstored
        exact absurd (hsame.trans hstored) hne
    · exact htold.noted.other his
  · rename_i hchanged
    apply Thread.reports_atomically
    intro t ht hstanding hbetween input hinput
    have htold' := htold.between hbetween
    have hremembers := remembers_of_between hbetween
    obtain ⟨envelope, events, hpublish, hpayload, hevents⟩ := publish_ok input.nowUnixMillis
      (HandoffStateChangedEvent.fromHandoff h previous) ht.numbered hinput.numbers
    rw [hpublish]
    have hlog := handoffEvents_concat project handoffId h previous hpayload hevents
    rw [htold.ofProject, htold.named] at hlog
    by_cases his : IsHandoff project handoffId q hid
    · rw [if_pos his] at hlog
      rcases htold'.noted.same his with ⟨-, hstored, -⟩ | ⟨state, rfl, -, -⟩
      · rw [htold'.stored his] at hstored
        exact absurd hstored.symm hchanged
      · exact ⟨.quiet, .announce (htold'.stored his) rfl hlog, rfl,
          fun hconcerns => hremembers hconcerns⟩
    · rw [if_neg his, List.append_nil] at hlog
      exact ⟨m, .idle m rfl hlog, htold.noted.other his, fun hconcerns => hremembers hconcerns⟩

/-! ## The handlers of a handoff -/

section

variable {q hid : String} {w : AgentWorld}

/-- A call that names the handoff is concerned with it. -/
theorem concerns_of_named {method : HandoffMethod} (hmethod : call.method? = some method)
    (hnamed : method.named = some (q, hid)) (his : IsHandoff project handoffId q hid)
    (w : AgentWorld) : call.Concerns config project handoffId w := by
  obtain ⟨rfl, rfl⟩ := his
  unfold AgentCall.Concerns
  rw [hmethod]
  cases method with
  | begin params => cases hnamed
  | targetVerify params => exact hnamed
  | sourceReady params => exact hnamed
  | commit params now => exact hnamed
  | abort params => exact hnamed
  | recover params now => exact hnamed

theorem tells_previousState {err : DevRelayError → RpcError}
    (hconcerns : IsHandoff project handoffId q hid →
      ∀ w, call.Concerns config project handoffId w) :
    Tells config project handoffId call (fun previous m t => m = .quiet ∧
      Noted config project handoffId call q hid previous .quiet t) .quiet
      (readPreviousState q err hid) w := by
  apply tells_read
  intro t _ _
  refine ⟨rfl, fun his => Or.inl ⟨rfl, ?_, hconcerns his t⟩, fun _ => rfl⟩
  obtain ⟨rfl, rfl⟩ := his
  rfl

/-- A thread that is on one handoff, and returns with the record that is stored. -/
def OnHandoff (config : AgentConfig) (project handoffId : String) (call : AgentCall)
    (q hid : String) {α : Type} (record : α → HandoffRecord) (p : SqlThread α) : Prop :=
  ∀ err previous w, Noted config project handoffId call q hid previous .quiet w →
    Tells config project handoffId call (fun a m t =>
      Told config project handoffId call q hid previous (record a) m t) .quiet
      (onProject q err p) w

/-- The end of a handler: the event, and the reply. -/
theorem tells_reply {α : Type} {previous : Option HandoffState} {h : HandoffRecord}
    {m : Mode HandoffState} (reply : α)
    (htold : Told config project handoffId call q hid previous h m w) :
    Tells config project handoffId call (fun _ m _ => m = .quiet) m (do
      publishHandoffStateChanged h previous
      pure reply) w :=
  (tells_publish htold).andThen fun _ _ _ hquiet => Thread.leaves_pure hquiet.1

theorem tells_handleHandoffMutation {mutate : SqlThread HandoffRecord}
    (hconcerns : IsHandoff project handoffId q hid →
      ∀ w, call.Concerns config project handoffId w)
    (hmutate : OnHandoff config project handoffId call q hid id mutate) :
    Tells config project handoffId call (fun _ m _ => m = .quiet) .quiet
      (handleHandoffMutation config q hid mutate) w := by
  apply Thread.Reports.andThen (tells_open _ _ _)
  rintro _ _ t rfl
  apply Thread.Reports.andThen (tells_previousState hconcerns)
  rintro previous _ u ⟨rfl, hnoted⟩
  apply Thread.Reports.andThen (hmutate _ previous u hnoted)
  intro h m v htold
  apply Thread.Reports.andThen (tells_journal htold)
  exact fun result m x htold => tells_reply result htold

theorem tells_handleRemoteHandoffMutation {mutate : SqlThread HandoffMutationResult}
    (hconcerns : IsHandoff project handoffId q hid →
      ∀ w, call.Concerns config project handoffId w)
    (hmutate : OnHandoff config project handoffId call q hid HandoffMutationResult.handoff
      mutate) :
    Tells config project handoffId call (fun _ m _ => m = .quiet) .quiet
      (handleRemoteHandoffMutation config q hid mutate) w := by
  apply Thread.Reports.andThen (tells_open _ _ _)
  rintro _ _ t rfl
  apply Thread.Reports.andThen (tells_previousState hconcerns)
  rintro previous _ u ⟨rfl, hnoted⟩
  apply Thread.Reports.andThen (hmutate _ previous u hnoted)
  exact fun result m v htold => tells_reply result htold

/-! ## Threads on a handoff -/

theorem onHandoff_transaction
    {f : Env → MetadataDb → Except DevRelayError HandoffRecord × MetadataDb}
    (hf : ∀ env db, TxOutcome hid db (f env db)) :
    OnHandoff config project handoffId call q hid id (Thread.atomically f) := by
  intro err previous w hnoted
  apply Thread.Reports.mono (tells_transaction hf hnoted)
  intro r m t hr
  cases r with
  | ok h => exact hr.1
  | error e => exact hr

theorem onHandoff_journal {mutate : SqlThread HandoffRecord}
    (hmutate : OnHandoff config project handoffId call q hid id mutate) :
    OnHandoff config project handoffId call q hid HandoffMutationResult.handoff
      (mutate >>= handoffMutationResult) := by
  intro err previous w hnoted
  rw [onProject_bind]
  apply Thread.Reports.andThen (hmutate err previous w hnoted)
  exact fun h m t htold => tells_journal htold

/-- The checks of a remote call. -/
theorem onHandoff_checked {α : Type} {record : α → HandoffRecord} {p : SqlThread α}
    {check : HandoffRecord → Except DevRelayError Unit}
    (hp : OnHandoff config project handoffId call q hid record p) :
    OnHandoff config project handoffId call q hid record (do
      let handoff ← requireHandoffProject q hid
      Thread.ofExcept (check handoff)
      p) := by
  intro err previous w hnoted
  rw [onProject_bind]
  apply Thread.Reports.andThen (tells_requireProject hnoted)
  rintro h _ t ⟨rfl, htold⟩
  rw [onProject_bind, onProject, Thread.embed_ofExcept]
  apply Thread.leaves_check
  intro _ _
  exact hp err previous t htold.noted

theorem markHandoffTargetVerified_outcome (env : Env) (db : MetadataDb) :
    TxOutcome hid db (markHandoffTargetVerified env hid db) :=
  updateHandoffState_outcome (by rfl) (by decide) env _ db

theorem markHandoffSourceReady_outcome (env : Env) (db : MetadataDb) :
    TxOutcome hid db (markHandoffSourceReady env hid db) :=
  updateHandoffState_outcome (by rfl) (by decide) env _ db

theorem abortHandoff_outcome (env : Env) (db : MetadataDb) :
    TxOutcome hid db (abortHandoff env hid db) := abortHandoffAt_outcome env _ _ db

theorem onHandoff_commit {params : HandoffCommitParams} {now : UInt64}
    (hcall : call.method? = some (.commit params now)) :
    OnHandoff config project handoffId call params.project params.handoffId id
      (commitHandoffSteps params.handoffId params.observedSourceGeneration now none) := by
  intro err previous w hnoted
  apply tells_commit hnoted
  intro t input _ hinput his h hstored hready
  have haccepts := hinput.accepted (concerns_of_named hcall rfl his t) h
    (by rw [← his.1, ← his.2]; exact hstored) hready
  unfold AgentCall.Accepts at haccepts
  rw [hcall] at haccepts
  exact haccepts

/-- The steps of a recovery leave the call with what it noted. -/
theorem tells_recoverSteps {params : HandoffRecoverParams} {now : UInt64}
    (hcall : call.method? = some (.recover params now)) {err : DevRelayError → RpcError}
    {previous : Option HandoffState}
    (hnoted : Noted config project handoffId call params.project params.handoffId previous
      .quiet w) :
    Tells config project handoffId call (fun _ m t => Noted config project handoffId call
      params.project params.handoffId previous m t) .quiet
      (onProject params.project err (recoverHandoffSteps params.handoffId
        params.observedSourceGeneration now)) w := by
  apply tells_recover hnoted
  intro t input _ hinput his h hstored hready
  have haccepts := hinput.accepted (concerns_of_named hcall rfl his t) h
    (by rw [← his.1, ← his.2]; exact hstored) hready
  unfold AgentCall.Accepts at haccepts
  rw [hcall] at haccepts
  exact haccepts

theorem tells_handleHandoffRecover {params : HandoffRecoverParams} {now : UInt64}
    (hcall : call.method? = some (.recover params now)) :
    Tells config project handoffId call (fun _ m _ => m = .quiet) .quiet
      (handleHandoffRecover config params now) w := by
  apply Thread.Reports.andThen (tells_open _ _ _)
  rintro _ _ t rfl
  apply Thread.Reports.andThen
    (tells_previousState fun his => concerns_of_named hcall rfl his)
  rintro previous _ u ⟨rfl, hnoted⟩
  apply Thread.Reports.andThen (tells_recoverSteps hcall hnoted)
  intro outcome m v hnoted
  apply Thread.Reports.andThen (K := fun handoff m x => OwnRows x ∧
    Noted config project handoffId call params.project params.handoffId previous m x ∧
    (x.projectDb params.project).getHandoff params.handoffId = handoff)
  · exact tells_read fun x hx hbetween => ⟨hx, hnoted.between hbetween, rfl⟩
  · rintro handoff m x ⟨hx, hnoted, hread⟩
    cases handoff with
    | none => exact hnoted.found hread
    | some h =>
      apply Thread.Reports.andThen (K := fun _ m y => Told config project handoffId call
        params.project params.handoffId previous h m y)
      · exact tells_read fun y _ hbetween => (hnoted.told hx hread).between hbetween
      · exact fun journal m y htold => tells_reply _ htold

theorem onHandoff_remoteRecover {params : HandoffRecoverParams} {now : UInt64}
    (hcall : call.method? = some (.recover params now)) (actor : String) :
    OnHandoff config project handoffId call params.project params.handoffId
      HandoffRecoverResult.handoff (remoteHandoffRecover actor params now) := by
  apply onHandoff_checked
  intro err previous w hnoted
  rw [onProject_bind]
  apply Thread.Reports.andThen (tells_recoverSteps hcall hnoted)
  intro outcome m t hnoted
  rw [onProject_bind]
  apply Thread.Reports.andThen (tells_requireProject hnoted)
  rintro h m u ⟨rfl, htold⟩
  rw [onProject_bind]
  apply Thread.Reports.andThen (K := fun _ m v => Told config project handoffId call
    params.project params.handoffId previous h m v)
  · exact tells_read fun v _ hbetween => htold.between hbetween
  · exact fun journal m v htold => Thread.leaves_pure htold

theorem tells_handleRemoteHandoffRecover {params : HandoffRecoverParams} {now : UInt64}
    (hcall : call.method? = some (.recover params now)) (actor : String) :
    Tells config project handoffId call (fun _ m _ => m = .quiet) .quiet
      (handleRemoteHandoffRecover config actor params now) w := by
  apply Thread.Reports.andThen (tells_open _ _ _)
  rintro _ _ t rfl
  apply Thread.Reports.andThen
    (tells_previousState fun his => concerns_of_named hcall rfl his)
  rintro previous _ u ⟨rfl, hnoted⟩
  apply Thread.Reports.andThen (onHandoff_remoteRecover hcall actor _ previous u hnoted)
  exact fun result m v htold => tells_reply result htold

/-! ## Begin -/

theorem tells_ensureKnownTargetDevice (err : AgentError → RpcError) (target : String) :
    Tells config project handoffId call (fun _ m _ => m = .quiet) .quiet
      (ensureKnownTargetDevice err target) w := by
  apply Thread.Reports.andThen (K := fun _ m _ => m = .quiet)
  · exact Thread.leaves_observe fun _ _ _ _ _ _ _ => rfl
  · rintro _ _ t rfl
    apply Thread.Reports.andThen (K := fun _ m _ => m = .quiet)
    · exact Thread.leaves_observe fun _ _ _ _ _ _ _ => rfl
    · rintro known _ u rfl
      apply Thread.leaves_check
      intro _ _
      exact Thread.leaves_observe fun _ _ _ _ _ _ _ => rfl

/-- The handoff that a begin opens had no state before. -/
theorem tells_begin {params : HandoffBeginParams} {source : String} {ttl : UInt64}
    {err : DevRelayError → RpcError} (hcall : call.method? = some (.begin params)) :
    Tells config project handoffId call (fun h m t => Told config project handoffId call
      params.project h.handoffId none h m t) .quiet
      (onProject params.project err (Thread.atomically fun env => beginHandoff env
        params.leaseId source params.targetDeviceId params.sourceGeneration ttl)) w := by
  rw [onProject, Thread.embed_atomically]
  apply Thread.reports_atomically
  intro t ht _ _ input _
  rcases beginHandoff_opens input.env params.leaseId source params.targetDeviceId
      params.sourceGeneration ttl (t.projectDb params.project) with
    ⟨e, heq⟩ | ⟨h, l, reply, db, hlease, -, -, heq, hid, hproject, hstate, -, hopens, -⟩
  · rw [heq, AgentWorld.setProjectDb_self]
    exact ⟨.quiet, .idle _ rfl rfl, rfl⟩
  · rw [heq]
    have hafter := hopens.touches.after
    have hown : reply.projectId = params.project := by
      rw [hproject, hopens.projectId]
      exact ht.leases _ _ l hopens.lease
    by_cases his : IsHandoff project handoffId params.project reply.handoffId
    · obtain ⟨rfl, rfl⟩ := his
      have hbefore : storedState params.project reply.handoffId t = none := by
        rw [storedState, hid, hopens.fresh]
        rfl
      have hstored : ((t.setProjectDb params.project db).projectDb
          params.project).getHandoff reply.handoffId = some h := by
        rw [projectDb_setProjectDb, hid]
        exact hafter
      have hvalue : storedState params.project reply.handoffId
          (t.setProjectDb params.project db) = some reply.state := by
        rw [storedState, hstored, hstate]
        rfl
      refine ⟨.owing (storedState params.project reply.handoffId t), .change ?_ ?_ rfl,
        hown, rfl, fun _ => hvalue, fun _ => Or.inr ⟨reply.state, ?_, hvalue, ?_⟩,
        fun hnot => absurd ⟨rfl, rfl⟩ hnot⟩
      · show AgentCall.Concerns config params.project reply.handoffId call _
        unfold AgentCall.Concerns
        rw [hcall]
        exact ⟨rfl, h, hstored, hlease⟩
      · show storedState params.project reply.handoffId (t.setProjectDb params.project db) ≠
          storedState params.project reply.handoffId t
        rw [hbefore, hvalue]
        exact Option.some_ne_none _
      · rw [hbefore]
      · exact (Option.some_ne_none _).symm
    · have hsame : storedState project handoffId (t.setProjectDb params.project db) =
          storedState project handoffId t := by
        unfold storedState
        by_cases hq : project = params.project
        · subst hq
          rw [projectDb_setProjectDb, getHandoff_of_touches hopens.touches]
          exact fun hsame => his ⟨rfl, hid.trans hsame.symm⟩
        · rw [projectDb_setProjectDb_of_ne t db hq]
      exact ⟨.quiet, .idle _ hsame rfl, hown, rfl, fun h' => absurd h' his,
        fun h' => absurd h' his, fun _ => rfl⟩

theorem tells_handleHandoffBegin {params : HandoffBeginParams}
    (hcall : call.method? = some (.begin params)) :
    Tells config project handoffId call (fun _ m _ => m = .quiet) .quiet
      (handleHandoffBegin config params) w := by
  apply Thread.Reports.andThen (tells_ensureKnownTargetDevice _ _)
  rintro _ _ t rfl
  apply Thread.Reports.andThen (tells_open _ _ _)
  rintro _ _ u rfl
  apply Thread.Reports.andThen (tells_begin hcall)
  intro h m v htold
  apply Thread.Reports.andThen (tells_journal htold)
  exact fun result m x htold => tells_reply result htold

theorem tells_remoteHandoffBegin {params : HandoffBeginParams} {actor : String}
    {err : DevRelayError → RpcError} (hcall : call.method? = some (.begin params)) :
    Tells config project handoffId call (fun result m t => ∃ hid,
      Told config project handoffId call params.project hid none result.handoff m t) .quiet
      (onProject params.project err (remoteHandoffBegin actor params)) w := by
  rw [remoteHandoffBegin, onProject_bind]
  apply Thread.Reports.andThen (K := fun _ m _ => m = .quiet)
  · exact tells_read fun _ _ _ => rfl
  · rintro lease _ t rfl
    cases lease with
    | none => exact Thread.leaves_fail _
    | some lease =>
      simp only
      rw [onProject_bind, onProject, Thread.embed_ofExcept]
      apply Thread.leaves_check
      intro _ _
      rw [onProject_bind, onProject, Thread.embed_ofExcept]
      apply Thread.leaves_check
      intro _ _
      rw [onProject_bind]
      apply Thread.Reports.andThen (tells_begin hcall)
      intro h m u htold
      apply Thread.Reports.mono (tells_journal htold)
      intro r m v hr
      cases r with
      | ok result => exact ⟨_, hr⟩
      | error e => exact hr

theorem tells_handleRemoteHandoffBegin {params : HandoffBeginParams} {actor : String}
    (hcall : call.method? = some (.begin params)) :
    Tells config project handoffId call (fun _ m _ => m = .quiet) .quiet
      (handleRemoteHandoffBegin config actor params) w := by
  apply Thread.Reports.andThen (tells_ensureKnownTargetDevice _ _)
  rintro _ _ t rfl
  apply Thread.Reports.andThen (tells_open _ _ _)
  rintro _ _ u rfl
  apply Thread.Reports.andThen (tells_remoteHandoffBegin hcall)
  rintro result m v ⟨hid, htold⟩
  exact tells_reply result htold

end

end

end DevRelay.Agent
