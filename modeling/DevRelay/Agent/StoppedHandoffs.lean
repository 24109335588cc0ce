import DevRelay.Agent.EditStages

/-!
# An edit on the source stops its handoffs

The loop of the handler ends at the first handoff that it cannot abort.  As long
as that leaves nothing open behind, every handoff that was pending when the edit
arrived has ended when the call returns, each abort is announced, and none of them
is committed later.
-/

namespace DevRelay.Agent

open DevRelay.Lib DevRelay.Core DevRelay.Storage DevRelay.Remote

section

variable (config : AgentConfig) (project : String)

/-- The handoff is stored, and has not ended. -/
def StillOpen (h : HandoffRecord) (w : AgentWorld) : Prop :=
  ∃ state, storedState project h.handoffId w = some state ∧ state.isTerminal = false

def Stopped (handoffId : String) (w : AgentWorld) : Prop :=
  ∃ state, storedState project handoffId w = some state ∧ state.isTerminal = true

/-- The databases are opened and read, and no statement fails. -/
structure DatabaseWorks (input : AgentInput) : Prop where
  opens : input.openFault = none
  reads : input.env.readFault = none
  runs : input.env.fault = noFault
  json : ∀ reason, ∃ text, input.env.json.reserialize (input.env.json.reasonObject reason) =
    .ok text

/-- What a step of the edit finds: a database that works while there is something to
stop, no committed handoff in front of an open one, and a number for its event. -/
structure Unhindered (canonicalize : String → Option String) (stage : EditStage)
    (input : AgentInput) (w : AgentWorld) : Prop where
  path : input.canonicalize = canonicalize
  works : (∃ h ∈ stage.remaining config project w, StillOpen project h w) →
    DatabaseWorks input
  uncommitted : ∀ g h pending aborted, stage = .aborting g (h :: pending) aborted →
    (∃ later ∈ pending, StillOpen project later w) →
      storedState project h.handoffId w ≠ some .committed
  numbered : ∀ g next previous pending aborted,
    stage = .announcing g next previous pending aborted → previous ≠ next.state →
      w.events.inner.nextSequence.toNat + 1 < 2 ^ 64

/-- A listed handoff was open, and is still stored. -/
structure ListedOpen (w : AgentWorld) (h : HandoffRecord) : Prop where
  wasOpen : h.state.isTerminal = false
  stored : ∃ state, (w.projectDb project).getHandoff h.handoffId = some { h with state := state }

/-- What the handler knows at a stage. -/
def EditStage.Sound (w : AgentWorld) : EditStage → Prop
  | .aborting _ pending _ => ∀ h ∈ pending, ListedOpen project w h
  | .announcing _ next previous pending _ =>
    previous.isTerminal = false ∧ next.state = .aborted ∧
      ∀ h ∈ pending, ListedOpen project w h
  | _ => True

end

section

variable {config : AgentConfig} {project : String} {params : EditorEventRecordParams}
  {w w' : AgentWorld}

/-! ## What every step keeps -/

theorem Stopped.step (hstep : ∃ call, CallEffect config call w w') {handoffId : String}
    (h : Stopped project handoffId w) : Stopped project handoffId w' := by
  obtain ⟨call, heffect⟩ := hstep
  obtain ⟨state, hstored, hterminal⟩ := h
  exact ⟨state, heffect.storedState_of_terminal hstored hterminal, hterminal⟩

theorem ListedOpen.step (hstep : ∃ call, CallEffect config call w w') {h : HandoffRecord}
    (hlisted : ListedOpen project w h) : ListedOpen project w' h := by
  obtain ⟨call, heffect⟩ := hstep
  obtain ⟨state, hstored⟩ := hlisted.stored
  obtain ⟨state', hstored'⟩ := (heffect.frozenHome project).handoffs _ _ hstored
  exact ⟨hlisted.wasOpen, state', hstored'⟩

theorem EditStage.Sound.step (hstep : ∃ call, CallEffect config call w w')
    {stage : EditStage} (hsound : stage.Sound project w) : stage.Sound project w' := by
  cases stage with
  | resolving => trivial
  | counting => trivial
  | opening g => trivial
  | listing g => trivial
  | aborting g pending aborted => exact fun h hh => (hsound h hh).step hstep
  | announcing g next previous pending aborted =>
    exact ⟨hsound.1, hsound.2.1, fun h hh => (hsound.2.2 h hh).step hstep⟩

theorem EditStage.Sound.changes {stage : EditStage} (hsound : stage.Sound project w) :
    ∀ g next previous pending aborted,
      stage = .announcing g next previous pending aborted → previous ≠ next.state := by
  rintro g next previous pending aborted rfl rfl
  obtain ⟨hopen, haborted, -⟩ := hsound
  rw [haborted] at hopen
  cases hopen

/-- A handoff of this device is pending, or has ended. -/
theorem stopped_or_pending (hrows : OwnRows w) {handoffId : String} {h : HandoffRecord}
    (hstored : (w.projectDb project).getHandoff handoffId = some h)
    (hsource : h.sourceDeviceId = config.deviceId) :
    Stopped project handoffId w ∨
      ∃ h ∈ pendingHandoffs config project w, h.handoffId = handoffId := by
  have hid := MetadataDb.handoffId_of_getHandoff hstored
  subst hid
  cases hterminal : h.state.isTerminal with
  | true =>
    refine Or.inl ⟨h.state, ?_, hterminal⟩
    rw [storedState, hstored]
    rfl
  | false =>
    refine Or.inr ⟨h, ?_, rfl⟩
    rw [pendingHandoffs, List.mem_filter, mem_listHandoffs]
    refine ⟨⟨hstored, hrows.handoffs project _ h hstored⟩, ?_⟩
    rw [pendingFrom, hterminal, Bool.not_false, Bool.true_and]
    exact decide_eq_true hsource

theorem mem_pendingHandoffs {h : HandoffRecord} (hpending : h ∈ pendingHandoffs config project w) :
    (w.projectDb project).getHandoff h.handoffId = some h ∧ h.state.isTerminal = false ∧
      h.sourceDeviceId = config.deviceId := by
  rw [pendingHandoffs, List.mem_filter, mem_listHandoffs] at hpending
  obtain ⟨⟨hstored, -⟩, hfrom⟩ := hpending
  simp only [pendingFrom, Bool.and_eq_true, Bool.not_eq_true', decide_eq_true_eq] at hfrom
  exact ⟨hstored, hfrom.1, hfrom.2⟩

theorem listedOpen_of_pending {h : HandoffRecord}
    (hpending : h ∈ pendingHandoffs config project w) : ListedOpen project w h := by
  obtain ⟨hstored, hopen, -⟩ := mem_pendingHandoffs hpending
  exact ⟨hopen, h.state, hstored⟩

/-! ## The handler, step by step -/

/-- Every handoff of `S` has ended, or is one that the handler has still to stop; when the
handler has failed they have all ended. -/
structure Stopping (config : AgentConfig) (project : String)
    (params : EditorEventRecordParams) (S : String → Prop) (w : AgentWorld)
    (p : AgentThread AgentReply) : Prop where
  rows : OwnRows w
  known : KnownProjects w
  held : ∀ handoffId, S handoffId → ∃ h,
    (w.projectDb project).getHandoff handoffId = some h ∧
      h.sourceDeviceId = config.deviceId
  stage : (∃ stage : EditStage, p = stage.rest config project params ∧
      stage.Sound project w ∧ ∀ handoffId, S handoffId → Stopped project handoffId w ∨
        ∃ h ∈ stage.remaining config project w, h.handoffId = handoffId) ∨
    (∃ e, p = Thread.fail e) ∧ ∀ handoffId, S handoffId → Stopped project handoffId w

variable {S : String → Prop} {p : AgentThread AgentReply}

/-- What the handler has to stop may be what is pending now, or a list that it has. -/
theorem remaining_step (hrows : OwnRows w') (hheld : ∀ handoffId, S handoffId → ∃ h,
      (w'.projectDb project).getHandoff handoffId = some h ∧
        h.sourceDeviceId = config.deviceId)
    (hstep : ∃ call, CallEffect config call w w') (stage : EditStage)
    (h : ∀ handoffId, S handoffId → Stopped project handoffId w ∨
      ∃ h ∈ stage.remaining config project w, h.handoffId = handoffId) :
    ∀ handoffId, S handoffId → Stopped project handoffId w' ∨
      ∃ h ∈ stage.remaining config project w', h.handoffId = handoffId := by
  intro handoffId hid
  obtain ⟨g, hstored, hsource⟩ := hheld handoffId hid
  have hpending := stopped_or_pending hrows hstored hsource
  have hlist : ∀ pending : List HandoffRecord,
      (Stopped project handoffId w ∨ ∃ h ∈ pending, h.handoffId = handoffId) →
        Stopped project handoffId w' ∨ ∃ h ∈ pending, h.handoffId = handoffId := by
    rintro pending (hstopped | hremaining)
    · exact Or.inl (hstopped.step hstep)
    · exact Or.inr hremaining
  cases stage with
  | resolving => exact hpending
  | counting => exact hpending
  | opening g => exact hpending
  | listing g => exact hpending
  | aborting g pending aborted => exact hlist pending (h handoffId hid)
  | announcing g next previous pending aborted => exact hlist pending (h handoffId hid)

theorem held_step (hstep : ∃ call, CallEffect config call w w')
    (hheld : ∀ handoffId, S handoffId → ∃ h, (w.projectDb project).getHandoff handoffId = some h ∧
        h.sourceDeviceId = config.deviceId) :
    ∀ handoffId, S handoffId → ∃ h,
      (w'.projectDb project).getHandoff handoffId = some h ∧
        h.sourceDeviceId = config.deviceId := by
  intro handoffId hid
  obtain ⟨call, heffect⟩ := hstep
  obtain ⟨h, hstored, hsource⟩ := hheld handoffId hid
  obtain ⟨state, hstored'⟩ := (heffect.frozenHome project).handoffs _ h hstored
  exact ⟨_, hstored', hsource⟩

theorem Stopping.others (hstep : ∃ call, CallEffect config call w w')
    (h : Stopping config project params S w p) : Stopping config project params S w' p := by
  have hheld := held_step hstep h.held
  obtain ⟨call, heffect⟩ := id hstep
  have hrows := heffect.ownRows h.rows
  refine ⟨hrows, heffect.knownProjects h.known, hheld, ?_⟩
  rcases h.stage with ⟨stage, hp, hsound, hremaining⟩ | ⟨hfailed, hstopped⟩
  · exact Or.inl ⟨stage, hp, hsound.step hstep, remaining_step hrows hheld hstep stage hremaining⟩
  · exact Or.inr ⟨hfailed, fun id hid => (hstopped id hid).step hstep⟩

/-- With nothing open left to stop, everything has ended. -/
theorem stopped_of_none_open {pending : List HandoffRecord} (hheld : ∀ handoffId, S handoffId → ∃ h,
      (w.projectDb project).getHandoff handoffId = some h ∧
        h.sourceDeviceId = config.deviceId)
    (hremaining : ∀ handoffId, S handoffId → Stopped project handoffId w ∨
      ∃ h ∈ pending, h.handoffId = handoffId)
    (hnone : ¬∃ h ∈ pending, StillOpen project h w) :
    ∀ handoffId, S handoffId → Stopped project handoffId w := by
  intro handoffId hid
  rcases hremaining handoffId hid with hstopped | ⟨h, hmem, rfl⟩
  · exact hstopped
  · obtain ⟨g, hstored, -⟩ := hheld _ hid
    have hstate : storedState project h.handoffId w = some g.state := by
      rw [storedState, hstored]
      rfl
    cases hterminal : g.state.isTerminal with
    | true => exact ⟨g.state, hstate, hterminal⟩
    | false => exact absurd ⟨h, hmem, g.state, hstate, hterminal⟩ hnone

/-- What an abort that succeeds leaves. -/
theorem storedState_of_aborted {input : AgentInput} {handoffId : String}
    {next : HandoffRecord} {db : MetadataDb} (h : abortHandoffWithReason input.env handoffId
      "source generation changed by editor event" (w.projectDb project) = (.ok next, db)) :
    next.handoffId = handoffId ∧ next.state = .aborted ∧
      db.getHandoff handoffId = some next ∧
        storedState project handoffId (w.setProjectDb project db) = some .aborted := by
  rcases abortHandoffAt_moves input.env handoffId input.env.unixNowSeconds
      "source generation changed by editor event" (w.projectDb project) with
    ⟨e, heq⟩ | ⟨g, hstored, haborted, heq⟩ | ⟨g, t, hid, heq, hmoves, -⟩
  · cases heq.symm.trans h
  · cases heq.symm.trans h
    refine ⟨MetadataDb.handoffId_of_getHandoff hstored, haborted, hstored, ?_⟩
    rw [storedState, projectDb_setProjectDb, hstored]
    exact congrArg some haborted
  · cases heq.symm.trans h
    subst hid
    have hafter := hmoves.touches.after
    refine ⟨rfl, rfl, hafter, ?_⟩
    rw [storedState, projectDb_setProjectDb]
    exact congrArg (Option.map HandoffRecord.state) hafter

/-- An abort that fails leaves nothing open, when the step is unhindered. -/
theorem none_open_of_unaborted {canonicalize : String → Option String} {g : UInt64}
    {handoff : HandoffRecord} {pending aborted : List HandoffRecord} {input : AgentInput}
    {e : DevRelayError} (hknown : KnownProjects w) (hlisted : ListedOpen project w handoff)
    (hcan : Unhindered config project canonicalize (.aborting g (handoff :: pending) aborted)
      input w)
    (h : abortHandoffWithReason input.env handoff.handoffId
      "source generation changed by editor event" (w.projectDb project) =
        (.error e, w.projectDb project)) :
    ¬∃ h ∈ handoff :: pending, StillOpen project h w := by
  intro hopen
  have hworks := hcan.works hopen
  obtain ⟨state, hstored⟩ := hlisted.stored
  have hstate : storedState project handoff.handoffId w = some state := by
    rw [storedState, hstored]
    rfl
  by_cases hcommitted : state = .committed
  · -- a committed handoff is in front of no open one, and is not open itself
    subst hcommitted
    obtain ⟨later, hmem, hlater⟩ := hopen
    rcases List.mem_cons.mp hmem with rfl | hmem
    · obtain ⟨state, hstate', hopen⟩ := hlater
      cases hstate.symm.trans hstate'
      cases hopen
    · exact hcan.uncommitted g handoff pending aborted rfl ⟨later, hmem, hlater⟩ hstate
  · obtain ⟨text, hjson⟩ := hworks.json "source generation changed by editor event"
    obtain ⟨t, hok⟩ := abortHandoffAt_stops (h := { handoff with state := state })
      input.env.unixNowSeconds hworks.runs hjson hstored
      (hknown project _ _ hstored) hcommitted
    cases hok.symm.trans h

/-- A step of the handler that is unhindered keeps what it has to stop. -/
theorem Stopping.own {canonicalize : String → Option String} {input : AgentInput}
    (hregistered : project ∈ config.projects)
    (hproject : params.editedProject config canonicalize = some project)
    (hcan : ∀ stage : EditStage, p = stage.rest config project params →
      Unhindered config project canonicalize stage input w)
    (hstep : ∃ call, CallEffect config call w (p.advance input w).1)
    (h : Stopping config project params S w p) :
    Stopping config project params S (p.advance input w).1 (p.advance input w).2 := by
  have hheld := held_step hstep h.held
  obtain ⟨call, heffect⟩ := id hstep
  have hrows := heffect.ownRows h.rows
  refine ⟨hrows, heffect.knownProjects h.known, hheld, ?_⟩
  rcases h.stage with ⟨stage, rfl, hsound, hremaining⟩ | ⟨⟨e, rfl⟩, hstopped⟩
  · have hcan := hcan stage rfl
    by_cases hend : ∃ g aborted, stage = .aborting g [] aborted
    · obtain ⟨g, aborted, rfl⟩ := hend
      exact Or.inl ⟨.aborting g [] aborted, rfl, hsound, hremaining⟩
    · have hadvance := editStep_advance input w hregistered
        (by rw [hcan.path]; exact hproject) (fun g aborted heq => hend ⟨g, aborted, heq⟩)
        hsound.changes
      have hnext := fun next : EditStage => remaining_step hrows hheld hstep next
      generalize hresult : ((stage.rest config project params).advance input w) = result
        at hadvance hnext hheld hrows hstep ⊢
      obtain ⟨w', q⟩ := result
      simp only at hadvance hnext hheld hrows hstep ⊢
      cases hadvance with
      | resolved hresolved => exact Or.inl ⟨.counting, rfl, trivial, hremaining⟩
      | counted generations g =>
        exact Or.inl ⟨.opening g, rfl, trivial, hnext (.opening g) hremaining⟩
      | @opened g hopened => exact Or.inl ⟨.listing g, rfl, trivial, hremaining⟩
      | unopened e hfault =>
        exact Or.inr ⟨⟨e, rfl⟩, stopped_of_none_open hheld hremaining fun hopen =>
          hfault (hcan.works hopen).opens⟩
      | @listed g hread =>
        exact Or.inl ⟨.aborting g (pendingHandoffs config project w) [], rfl,
          fun h hh => listedOpen_of_pending hh, hremaining⟩
      | unlisted e hfault =>
        exact Or.inr ⟨⟨e, rfl⟩, stopped_of_none_open hheld hremaining fun hopen =>
          hfault (hcan.works hopen).reads⟩
      | @aborted g handoff pending aborted next db habort =>
        obtain ⟨-, hnextState, -, hstored⟩ := storedState_of_aborted habort
        have hlisted := hsound handoff List.mem_cons_self
        refine Or.inl ⟨.announcing g next handoff.state pending aborted, rfl,
          ⟨hlisted.wasOpen, hnextState, fun h hh =>
            (hsound h (List.mem_cons_of_mem _ hh)).step hstep⟩, fun id hid => ?_⟩
        rcases hremaining id hid with hstopped | ⟨h, hmem, rfl⟩
        · exact Or.inl (hstopped.step hstep)
        · rcases List.mem_cons.mp hmem with rfl | hmem
          · exact Or.inl ⟨.aborted, hstored, rfl⟩
          · exact Or.inr ⟨h, hmem, rfl⟩
      | @unaborted g handoff pending aborted e habort =>
        exact Or.inr ⟨⟨_, rfl⟩, stopped_of_none_open hheld hremaining
          (none_open_of_unaborted h.known (hsound handoff List.mem_cons_self) hcan habort)⟩
      | @announced g next previous pending aborted envelope events hpublish =>
        exact Or.inl ⟨.aborting g pending (aborted ++ [next]), rfl,
          fun h hh => (hsound.2.2 h hh).step hstep,
          hnext (.aborting g pending (aborted ++ [next])) hremaining⟩
      | @unannounced g next previous pending aborted e events hpublish =>
        obtain ⟨envelope, events', hok, -, -⟩ := publish_ok input.nowUnixMillis
          (HandoffStateChangedEvent.fromHandoff next (some previous)) h.rows.numbered
          (hcan.numbered g next previous pending aborted rfl
            (hsound.changes g next previous pending aborted rfl))
        cases hok.symm.trans hpublish
  · exact Or.inr ⟨⟨e, rfl⟩, hstopped⟩

/-- A handler that has returned has stopped everything. -/
theorem Stopping.finished (hregistered : project ∈ config.projects)
    (h : Stopping config project params S w p) (hfinished : p.finished = true) :
    ∀ handoffId, S handoffId → Stopped project handoffId w := by
  rcases h.stage with ⟨stage, rfl, hsound, hremaining⟩ | ⟨-, hstopped⟩
  · obtain ⟨g, aborted, rfl⟩ := finished_rest hregistered hsound.changes hfinished
    intro id hid
    rcases hremaining id hid with hstopped | ⟨h, hmem, -⟩
    · exact hstopped
    · cases hmem
  · exact hstopped

end

end DevRelay.Agent
