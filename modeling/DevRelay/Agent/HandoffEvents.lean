import DevRelay.Agent.Effects
import DevRelay.Lib.Announcements

/-!
# Events of a handoff

The state of a handoff is a value of the home, and its `HandoffStateChanged`
events announce the changes: a handler reads the state before, changes it in a
transaction and publishes in a third step.  The events mirror the state in the
runs in which no call comes between these steps, and in which a changed state is
always published: a rejected commit aborts the handoff and publishes nothing.
-/

namespace DevRelay.Agent

open DevRelay.Lib DevRelay.Core DevRelay.Storage DevRelay.Remote

/-! ## State and events of a handoff -/

section

variable (config : AgentConfig) (project handoffId : String)

/-- The state that the database of the project has for the handoff. -/
def storedState (world : AgentWorld) : Option HandoffState :=
  ((world.projectDb project).getHandoff handoffId).map HandoffRecord.state

/-- The previous and the new state of an event, when it is one of the handoff. -/
def handoffChange (event : EventEnvelope AgentEventPayload) :
    Option (Option HandoffState × HandoffState) :=
  match event.payload with
  | .handoffStateChanged e =>
    if e.projectId = project ∧ e.handoffId = handoffId then
      some (e.previousState, e.state)
    else
      none
  | .other _ => none

/-- The changes that the events of the handoff tell, in the order of their
numbers. -/
def handoffEvents (world : AgentWorld) : List (Option HandoffState × HandoffState) :=
  world.events.inner.events.filterMap (handoffChange project handoffId)

def handoffAnnounced : Announced AgentWorld HandoffState where
  value := storedState project handoffId
  log := handoffEvents project handoffId

/-! ## What the runs have to meet -/

namespace AgentCall

def method? : AgentCall → Option HandoffMethod
  | .ipc method => some method
  | .remote _ method => some method
  | .editorEvent _ => none

/-- A meaningful edit in the project; an edit that names no project may be in any. -/
def Edits (project : String) : AgentCall → Prop
  | .editorEvent params =>
    params.incrementsGeneration = true ∧ ∀ p ∈ params.project, trim p = project
  | _ => False

/-- The handoff is the one that the call is about: it is named, or on the lease
that is handed over, or stopped by the edit. -/
def Concerns (call : AgentCall) (world : AgentWorld) : Prop :=
  match call.method? with
  | some (.begin params) => params.project = project ∧
      ∃ h, (world.projectDb project).getHandoff handoffId = some h ∧
        h.leaseId = params.leaseId
  | some method => method.named = some (project, handoffId)
  | none => call.Edits project ∧
      ∃ h, (world.projectDb project).getHandoff handoffId = some h ∧
        h.sourceDeviceId = config.deviceId

/-- A commit of the source-ready handoff `h` would not be rejected for its age or
its generation; a recovery aborts an old handoff itself. -/
def Accepts (call : AgentCall) (h : HandoffRecord) : Prop :=
  match call.method? with
  | some (.commit params now) =>
    commitAbortReason h params.observedSourceGeneration now = none
  | some (.recover params now) => now > h.expiresAtUnixSeconds ∨
      commitAbortReason h params.observedSourceGeneration now = none
  | _ => True

end AgentCall

/-- What a step of a call finds: a number for an event, readable rows while a
change is not yet published, and no source-ready handoff that its commit would
reject. -/
structure Publishable (call : AgentCall) (input : AgentInput) (world : AgentWorld) :
    Prop where
  numbers : world.events.inner.nextSequence.toNat + 1 < 2 ^ 64
  readable : call.Concerns config project handoffId world →
    ¬(handoffAnnounced project handoffId).InSync world → input.env.readFault = none
  accepted : call.Concerns config project handoffId world →
    ∀ h, (world.projectDb project).getHandoff handoffId = some h →
      h.state = .sourceReady → call.Accepts h

/-- Every database holds the rows of its own project, and numbers are left at all. -/
structure OwnRows (world : AgentWorld) : Prop where
  leases : ∀ project id l,
    (world.projectDb project).getLease id = some l → l.projectId = project
  handoffs : ∀ project id h,
    (world.projectDb project).getHandoff id = some h → h.projectId = project
  numbered : world.events.inner.nextSequence ≠ 0

/-- Handoffs keep everything but their state, in every project. -/
def FrozenHome (w w' : AgentWorld) : Prop :=
  ∀ project, Frozen (w.projectDb project) (w'.projectDb project)

theorem frozenHome_refl (w : AgentWorld) : FrozenHome w w := fun _ => frozen_refl _

theorem FrozenHome.trans {w w' w'' : AgentWorld} (h : FrozenHome w w')
    (h' : FrozenHome w' w'') : FrozenHome w w'' := fun project =>
  (h project).trans (h' project)

theorem AgentCall.Concerns.frozen {config : AgentConfig} {project handoffId : String}
    {call : AgentCall} {w w' : AgentWorld} (hkept : FrozenHome w w')
    (hconcerns : call.Concerns config project handoffId w) :
    call.Concerns config project handoffId w' := by
  unfold AgentCall.Concerns at hconcerns ⊢
  split at hconcerns
  · obtain ⟨hproject, h, hstored, hlease⟩ := hconcerns
    obtain ⟨state, hstored'⟩ := (hkept project).handoffs handoffId h hstored
    exact ⟨hproject, _, hstored', hlease⟩
  · exact hconcerns
  · obtain ⟨hedits, h, hstored, hsource⟩ := hconcerns
    obtain ⟨state, hstored'⟩ := (hkept project).handoffs handoffId h hstored
    exact ⟨hedits, _, hstored', hsource⟩

/-- The handoff as an announced value. -/
def handoffReporting : Reporting AgentCall AgentInput AgentWorld HandoffState where
  toAnnounced := handoffAnnounced project handoffId
  invariant := OwnRows
  allowed := Publishable config project handoffId
  concerns := AgentCall.Concerns config project handoffId
  kept := FrozenHome
  kept_refl := frozenHome_refl
  kept_trans := FrozenHome.trans
  concerns_kept := AgentCall.Concerns.frozen

end

/-! ## What every step keeps -/

section

variable {config : AgentConfig} {call : AgentCall} {w w' : AgentWorld}

theorem projectDb_setProjectDb (w : AgentWorld) (project : String) (db : MetadataDb) :
    (w.setProjectDb project db).projectDb project = db := Function.update_self ..

theorem projectDb_setProjectDb_of_ne (w : AgentWorld) {project other : String} (db : MetadataDb)
    (hne : other ≠ project) :
    (w.setProjectDb project db).projectDb other = w.projectDb other :=
  Function.update_of_ne hne ..

theorem frozenHome_setProjectDb {project : String} {db : MetadataDb}
    (hfrozen : Frozen (w.projectDb project) db) :
    FrozenHome w (w.setProjectDb project db) := by
  intro other
  by_cases hother : other = project
  · subst hother
    rw [projectDb_setProjectDb]
    exact hfrozen
  · rw [projectDb_setProjectDb_of_ne w db hother]
    exact frozen_refl _

theorem DbEffect.frozen {project : String} {s t : MetadataDb}
    (heffect : DbEffect config call project s t) : Frozen s t := by
  cases heffect with
  | begun params h l hcall hproject hlease htarget hknown hopens hrows =>
    exact frozen_of_opens hopens
  | moved h next taken hcall hmoves hrows htaken => exact frozen_of_moves hmoves

theorem CallEffect.frozenHome (heffect : CallEffect config call w w') : FrozenHome w w' := by
  intro other
  cases heffect with
  | same h =>
    rw [h]
    exact frozen_refl _
  | counted generations h =>
    rw [h]
    exact frozen_refl _
  | published now payload h =>
    rw [h]
    exact frozen_refl _
  | transaction project db h heffect =>
    rw [h]
    exact frozenHome_setProjectDb heffect.frozen other

/-- What a transaction does to the projects of the handoffs. -/
theorem DbEffect.projectId {project : String} {s t : MetadataDb}
    (heffect : DbEffect config call project s t)
    (hleases : ∀ id l, s.getLease id = some l → l.projectId = project)
    (hhandoffs : ∀ id h, s.getHandoff id = some h → h.projectId = project) (id : String)
    (g : HandoffRecord) (hg : t.getHandoff id = some g) : g.projectId = project := by
  cases heffect with
  | begun params h l hcall hproject hlease htarget hknown hopens hrows =>
    by_cases hid : id = h.handoffId
    · subst hid
      cases hopens.touches.after.symm.trans hg
      rw [hopens.projectId]
      exact hleases _ l hopens.lease
    · rw [getHandoff_of_touches hopens.touches hid] at hg
      exact hhandoffs id g hg
  | moved h next taken hcall hmoves hrows htaken =>
    by_cases hid : id = h.handoffId
    · subst hid
      have hafter := hmoves.touches.after
      cases hafter.symm.trans hg
      exact hhandoffs _ h hmoves.stored
    · have hg' := (getHandoff_of_touches hmoves.touches hid).symm.trans hg
      exact hhandoffs id g hg'

theorem publish_nextSequence (events : EventStream AgentEventPayload) (now : UInt64)
    (payload : TypedEventPayload AgentEventPayload) (hnumbered : events.inner.nextSequence ≠ 0) :
    (events.publish now payload).2.inner.nextSequence ≠ 0 := by
  unfold EventStream.publish
  split
  · rename_i sequence nextSequence hsequence hnext
    have hnext : nextSequence ≠ 0 := by
      intro hzero
      have htoNat := toNat_of_checkedAdd hnext
      rw [hzero] at htoNat
      have hone : (1 : UInt64).toNat = 1 := rfl
      have hzero' : (0 : UInt64).toNat = 0 := rfl
      omega
    simp only
    split
    · exact hnext
    · exact hnext
  · exact hnumbered

theorem CallEffect.ownRows (heffect : CallEffect config call w w') (hrows : OwnRows w) :
    OwnRows w' := by
  cases heffect with
  | same h =>
    rw [h]
    exact hrows
  | counted generations h =>
    rw [h]
    exact ⟨hrows.leases, hrows.handoffs, hrows.numbered⟩
  | published now payload h =>
    rw [h]
    exact ⟨hrows.leases, hrows.handoffs, publish_nextSequence _ _ _ hrows.numbered⟩
  | transaction project db h heffect =>
    rw [h]
    refine ⟨fun other id l hl => ?_, fun other id g hg => ?_, hrows.numbered⟩
    · by_cases hother : other = project
      · subst hother
        rw [projectDb_setProjectDb] at hl
        have hproject := heffect.frozen.leaseProject id
        rw [hl] at hproject
        obtain ⟨l', hl', hsame⟩ := Option.map_eq_some_iff.mp hproject.symm
        rw [← hsame]
        exact hrows.leases other id l' hl'
      · rw [projectDb_setProjectDb_of_ne w db hother] at hl
        exact hrows.leases other id l hl
    · by_cases hother : other = project
      · subst hother
        rw [projectDb_setProjectDb] at hg
        exact heffect.projectId (hrows.leases other) (hrows.handoffs other) id g hg
      · rw [projectDb_setProjectDb_of_ne w db hother] at hg
        exact hrows.handoffs other id g hg

/-- A handoff that has ended stays as it is. -/
theorem CallEffect.storedState_of_terminal (heffect : CallEffect config call w w')
    {project handoffId : String} {state : HandoffState}
    (hstored : storedState project handoffId w = some state) (hterminal : state.isTerminal = true) :
    storedState project handoffId w' = some state := by
  cases heffect with
  | same h =>
    rw [h]
    exact hstored
  | counted generations h =>
    rw [h]
    exact hstored
  | published now payload h =>
    rw [h]
    exact hstored
  | transaction q db h heffect =>
    rw [h]
    by_cases hq : project = q
    · subst hq
      obtain ⟨g, hg, rfl⟩ := Option.map_eq_some_iff.mp hstored
      have hsame : db.getHandoff handoffId = some g := by
        cases heffect with
        | begun params h l hcall hproject hlease htarget hknown hopens hrows =>
          have hne : handoffId ≠ h.handoffId := by
            rintro rfl
            cases hopens.fresh.symm.trans hg
          exact (getHandoff_of_touches hopens.touches hne).trans hg
        | moved h next taken hcall hmoves hrows htaken =>
          have hne : handoffId ≠ h.handoffId := by
            rintro rfl
            cases hmoves.stored.symm.trans hg
            have hopen := hmoves.isOpen
            rw [hterminal] at hopen
            cases hopen
          exact (getHandoff_of_touches hmoves.touches hne).trans hg
      rw [storedState, projectDb_setProjectDb, hsame]
      rfl
    · rw [storedState, projectDb_setProjectDb_of_ne w db hq]
      exact hstored

/-- Events are only added. -/
theorem CallEffect.handoffEvents_append (heffect : CallEffect config call w w')
    (project handoffId : String) :
    ∃ later, handoffEvents project handoffId w' = handoffEvents project handoffId w ++ later := by
  cases heffect with
  | same h => exact ⟨[], by rw [h, List.append_nil]⟩
  | counted generations h => exact ⟨[], by rw [h, List.append_nil]; rfl⟩
  | transaction q db h heffect => exact ⟨[], by rw [h, List.append_nil]; rfl⟩
  | published now payload h =>
    have hevents : ∃ published, (w.events.publish now payload).2.inner.events =
        w.events.inner.events ++ published := by
      unfold EventStream.publish
      split
      · simp only
        split
        · exact ⟨[_], rfl⟩
        · exact ⟨[], (List.append_nil _).symm⟩
      · exact ⟨[], (List.append_nil _).symm⟩
    obtain ⟨published, hpublished⟩ := hevents
    refine ⟨published.filterMap (handoffChange project handoffId), ?_⟩
    rw [h, handoffEvents, hpublished, List.filterMap_append]
    rfl

/-- The project of a stored handoff is stored beside it. -/
def KnownProjects (w : AgentWorld) : Prop :=
  ∀ project id h, (w.projectDb project).getHandoff id = some h →
    ((w.projectDb project).projects.lookup h.projectId).isSome

theorem DbEffect.known {project : String} {s t : MetadataDb}
    (heffect : DbEffect config call project s t)
    (hknown : ∀ id h, s.getHandoff id = some h → (s.projects.lookup h.projectId).isSome)
    (id : String) (g : HandoffRecord) (hg : t.getHandoff id = some g) :
    (t.projects.lookup g.projectId).isSome := by
  cases heffect with
  | begun params h l hcall hproject hlease htarget hnew hopens hrows =>
    rw [hrows.projects]
    by_cases hid : id = h.handoffId
    · subst hid
      cases hopens.touches.after.symm.trans hg
      exact hnew
    · rw [getHandoff_of_touches hopens.touches hid] at hg
      exact hknown id g hg
  | moved h next taken hcall hmoves hrows htaken =>
    rw [hrows.projects]
    by_cases hid : id = h.handoffId
    · subst hid
      have hafter := hmoves.touches.after
      cases hafter.symm.trans hg
      exact hknown _ h hmoves.stored
    · have hg' := (getHandoff_of_touches hmoves.touches hid).symm.trans hg
      exact hknown id g hg'

theorem CallEffect.knownProjects (heffect : CallEffect config call w w')
    (hknown : KnownProjects w) : KnownProjects w' := by
  cases heffect with
  | same h =>
    rw [h]
    exact hknown
  | counted generations h =>
    rw [h]
    exact hknown
  | published now payload h =>
    rw [h]
    exact hknown
  | transaction project db h heffect =>
    rw [h]
    intro other id g hg
    by_cases hother : other = project
    · subst hother
      rw [projectDb_setProjectDb] at hg ⊢
      exact heffect.known (hknown other) id g hg
    · rw [projectDb_setProjectDb_of_ne w db hother] at hg ⊢
      exact hknown other id g hg

end

end DevRelay.Agent
