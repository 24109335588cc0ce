import DevRelay.Agent.HandoffMirroring

/-!
# The stages of an edit on the source

The handler of a meaningful edit looks up the project, counts the edit, opens the
database, lists the handoffs, and aborts the pending ones: each in a transaction,
and each with an event.  Other calls run between any two of these steps, so what
is left of the handler is named by its stage; `EditStep` says what the next step
does.
-/

namespace DevRelay.Agent

open DevRelay.Lib DevRelay.Core DevRelay.Storage DevRelay.Remote

/-- The registered project that an editor event is resolved to. -/
def EditorEventRecordParams.editedProject (config : AgentConfig)
    (canonicalize : String → Option String) (params : EditorEventRecordParams) :
    Option String :=
  match params.project, params.workspacePath with
  | some project, _ =>
    if trim project ≠ "" ∧ trim project ∈ config.projects then some (trim project)
    else none
  | none, none => none
  | none, some path =>
    match config.workspaceByPath path with
    | some project => some project
    | none => (canonicalize path).bind config.workspaceByPath

/-- The handoffs of the project that an edit on this device has to stop. -/
def pendingHandoffs (config : AgentConfig) (project : String) (w : AgentWorld) :
    List HandoffRecord :=
  (listHandoffs project (w.projectDb project)).filter (pendingFrom config.deviceId)

inductive EditStage where
  | resolving
  | counting
  | opening (sourceGeneration : UInt64)
  | listing (sourceGeneration : UInt64)
  | aborting (sourceGeneration : UInt64) (pending aborted : List HandoffRecord)
  | announcing (sourceGeneration : UInt64) (next : HandoffRecord)
      (previous : HandoffState) (pending aborted : List HandoffRecord)

section

variable (config : AgentConfig) (project : String) (params : EditorEventRecordParams)

def editReply (resolved : Option String) (sourceGeneration : UInt64)
    (p : AgentThread (List HandoffRecord)) : AgentThread AgentReply := do
  let abortedHandoffs ← p
  pure (.editorEvent { project := resolved, sourceGeneration, abortedHandoffs })

/-- The handler once the project is known. -/
def editResolved (resolved : Option String) : AgentThread AgentReply := do
  let sourceGeneration ← bumpSourceGeneration
    (editorSourceGenerationKey resolved params.workspacePath) true
  editReply resolved sourceGeneration (abortSourceHandoffsAfterEditorEdit config resolved)

namespace EditStage

/-- What is left of the handler. -/
def rest : EditStage → AgentThread AgentReply
  | .resolving => do
    let resolved ← Thread.observe fun input _ =>
      .ok (params.editedProject config input.canonicalize)
    editResolved config params resolved
  | .counting => editResolved config params (some project)
  | .opening g => editReply (some project) g
      (abortSourceHandoffsAfterEditorEdit config (some project))
  | .listing g => editReply (some project) g do
      let handoffs ← onProject project .ofDevRelay (readStep (listHandoffs project))
      abortPendingHandoffs project (handoffs.filter (pendingFrom config.deviceId)) []
  | .aborting g pending aborted => editReply (some project) g
      (abortPendingHandoffs project pending aborted)
  | .announcing g next previous pending aborted => editReply (some project) g do
      publishHandoffStateChanged next (some previous)
      abortPendingHandoffs project pending (aborted ++ [next])

/-- The handoffs that the handler has still to stop. -/
def remaining (w : AgentWorld) : EditStage → List HandoffRecord
  | .aborting _ pending _ => pending
  | .announcing _ _ _ pending _ => pending
  | _ => pendingHandoffs config project w

end EditStage

/-- The next step at a stage: the state it leaves, and what is left of the handler. -/
inductive EditStep (input : AgentInput) (w : AgentWorld) :
    EditStage → AgentWorld → AgentThread AgentReply → Prop where
  | resolved (h : params.editedProject config input.canonicalize = some project) :
      EditStep input w .resolving w (EditStage.counting.rest config project params)
  | counted (generations : String → UInt64) (g : UInt64) :
      EditStep input w .counting { w with editorSourceGenerations := generations }
        ((EditStage.opening g).rest config project params)
  | opened {g : UInt64} (h : input.openFault = none) :
      EditStep input w (.opening g) w ((EditStage.listing g).rest config project params)
  | unopened {g : UInt64} (e : RpcError) (h : input.openFault ≠ none) :
      EditStep input w (.opening g) w (Thread.fail e)
  | listed {g : UInt64} (h : input.env.readFault = none) :
      EditStep input w (.listing g) w
        ((EditStage.aborting g (pendingHandoffs config project w) []).rest config project params)
  | unlisted {g : UInt64} (e : RpcError) (h : input.env.readFault ≠ none) :
      EditStep input w (.listing g) w (Thread.fail e)
  | aborted {g : UInt64} {handoff : HandoffRecord} {pending aborted : List HandoffRecord}
      (next : HandoffRecord) (db : MetadataDb)
      (h : abortHandoffWithReason input.env handoff.handoffId
        "source generation changed by editor event" (w.projectDb project) = (.ok next, db)) :
      EditStep input w (.aborting g (handoff :: pending) aborted) (w.setProjectDb project db)
        ((EditStage.announcing g next handoff.state pending aborted).rest config project params)
  | unaborted {g : UInt64} {handoff : HandoffRecord} {pending aborted : List HandoffRecord}
      (e : DevRelayError)
      (h : abortHandoffWithReason input.env handoff.handoffId
        "source generation changed by editor event" (w.projectDb project) =
          (.error e, w.projectDb project)) :
      EditStep input w (.aborting g (handoff :: pending) aborted) w
        (Thread.fail (.ofDevRelay e))
  | announced {g : UInt64} {next : HandoffRecord} {previous : HandoffState}
      {pending aborted : List HandoffRecord} (envelope : EventEnvelope AgentEventPayload)
      (events : EventStream AgentEventPayload)
      (h : w.events.publish input.nowUnixMillis (HandoffStateChangedEvent.fromHandoff next
        (some previous)).typedPayload = (.ok envelope, events)) :
      EditStep input w (.announcing g next previous pending aborted) { w with events }
        ((EditStage.aborting g pending (aborted ++ [next])).rest config project params)
  | unannounced {g : UInt64} {next : HandoffRecord} {previous : HandoffState}
      {pending aborted : List HandoffRecord} (e : DevRelayError)
      (events : EventStream AgentEventPayload)
      (h : w.events.publish input.nowUnixMillis (HandoffStateChangedEvent.fromHandoff next
        (some previous)).typedPayload = (.error e, events)) :
      EditStep input w (.announcing g next previous pending aborted) { w with events }
        (Thread.fail (.internal (.devRelay e)))

end

section

variable {config : AgentConfig} {project : String} {params : EditorEventRecordParams}

/-! ## The handler as a stage -/

theorem program_eq_resolved (hedit : params.incrementsGeneration = true) :
    AgentCall.program config (.editorEvent params) =
      resolveEditorEventProject config params >>= editResolved config params := by
  show (handleEditorEventRecord config params >>= fun result =>
    (pure (.editorEvent result) : AgentThread AgentReply)) = _
  rw [handleEditorEventRecord, Thread.bind_assoc]
  congr 1
  funext resolved
  rw [Thread.bind_assoc, editResolved, hedit]
  congr 1
  funext g
  rw [if_pos rfl, Thread.bind_assoc]
  rfl

/-- A meaningful edit starts by resolving its project, or knows it. -/
theorem program_eq_rest (hedit : params.incrementsGeneration = true)
    {canonicalize : String → Option String}
    (hproject : params.editedProject config canonicalize = some project) :
    ∃ stage : EditStage, (stage = .resolving ∨ stage = .counting) ∧
      AgentCall.program config (.editorEvent params) = stage.rest config project params := by
  rw [program_eq_resolved hedit]
  unfold resolveEditorEventProject
  rcases hraw : params.project with _ | raw
  · rcases hpath : params.workspacePath with _ | path
    · simp only [EditorEventRecordParams.editedProject, hraw, hpath] at hproject
      cases hproject
    · simp only
      cases hknown : config.workspaceByPath path with
      | some q =>
        simp only [EditorEventRecordParams.editedProject, hraw, hpath, hknown] at hproject
        cases hproject
        exact ⟨.counting, Or.inr rfl, rfl⟩
      | none =>
        refine ⟨.resolving, Or.inl rfl, ?_⟩
        simp only [EditStage.rest, EditorEventRecordParams.editedProject, hraw, hpath, hknown]
  · simp only [EditorEventRecordParams.editedProject, hraw] at hproject
    split at hproject
    · rename_i hregistered
      cases hproject
      refine ⟨.counting, Or.inr rfl, ?_⟩
      simp only
      rw [show require (trim raw ≠ "") (RpcError.internal (.bail "project must not be empty"))
          = .ok () from require_eq_ok.mpr (decide_eq_true hregistered.1),
        show require (trim raw ∈ config.projects) (RpcError.internal (.bail
          ("unknown project " ++ trim raw))) = .ok () from
            require_eq_ok.mpr (decide_eq_true hregistered.2)]
      rfl
    · cases hproject

/-! ## The steps of the stages -/

theorem editReply_bind {α : Type} (resolved : Option String) (g : UInt64) (p : AgentThread α)
    (k : α → AgentThread (List HandoffRecord)) :
    editReply resolved g (p >>= k) = p >>= fun a => editReply resolved g (k a) :=
  Thread.bind_assoc p k _

theorem rest_opening (hregistered : project ∈ config.projects) (g : UInt64) :
    (EditStage.opening g).rest config project params =
      openDb (fun e => RpcError.internal (.devRelay e)) >>= fun _ =>
        (EditStage.listing g).rest config project params := by
  have hopen : openRegisteredProjectDb config .internal project =
      openDb fun e => RpcError.internal (.devRelay e) := by
    rw [openRegisteredProjectDb, require_eq_ok.mpr (decide_eq_true hregistered)]
    rfl
  rw [EditStage.rest, abortSourceHandoffsAfterEditorEdit, editReply_bind, hopen]
  rfl

/-- A handler that is not at its end takes the step of its stage. -/
theorem editStep_advance {stage : EditStage} (input : AgentInput) (w : AgentWorld)
    (hregistered : project ∈ config.projects)
    (hproject : params.editedProject config input.canonicalize = some project)
    (hend : ∀ g aborted, stage ≠ .aborting g [] aborted)
    (hchange : ∀ g next previous pending aborted,
      stage = .announcing g next previous pending aborted → previous ≠ next.state) :
    EditStep config project params input w stage
      ((stage.rest config project params).advance input w).1
      ((stage.rest config project params).advance input w).2 := by
  cases stage with
  | resolving =>
    rw [EditStage.rest, Thread.advance_observe_bind, hproject]
    exact .resolved hproject
  | counting => exact .counted _ _
  | opening g =>
    rw [rest_opening hregistered, openDb, Thread.advance_observe_bind]
    cases hfault : input.openFault with
    | none => exact .opened hfault
    | some e => exact .unopened _ (by rw [hfault]; exact Option.some_ne_none e)
  | listing g =>
    rw [EditStage.rest, editReply_bind, readStep, onProject_observe, Thread.advance_observe_bind]
    cases hfault : input.env.readFault with
    | none => exact .listed hfault
    | some e => exact .unlisted _ (by rw [hfault]; exact Option.some_ne_none e)
  | aborting g pending aborted =>
    cases pending with
    | nil => exact absurd rfl (hend g aborted)
    | cons handoff pending =>
      rw [EditStage.rest, abortPendingHandoffs, editReply_bind, onProject,
        Thread.embed_atomically, Thread.advance_atomically_bind]
      rcases hresult : abortHandoffWithReason input.env handoff.handoffId
        "source generation changed by editor event" (w.projectDb project) with ⟨e | next, db⟩
      · have hsame : db = w.projectDb project := by
          rcases abortHandoffAt_moves input.env handoff.handoffId
              input.env.unixNowSeconds "source generation changed by editor event"
              (w.projectDb project) with
            ⟨e', heq⟩ | ⟨h, -, -, heq⟩ | ⟨h, t, -, heq, -, -⟩
          · cases heq.symm.trans hresult
            rfl
          · cases heq.symm.trans hresult
          · cases heq.symm.trans hresult
        subst hsame
        simp only
        rw [AgentWorld.setProjectDb_self]
        exact .unaborted e hresult
      · exact .aborted next db hresult
  | announcing g next previous pending aborted =>
    have hne : ¬some previous = some next.state := fun heq =>
      hchange g next previous pending aborted rfl (Option.some.inj heq)
    rw [EditStage.rest, editReply_bind, publishHandoffStateChanged, if_neg hne,
      Thread.advance_atomically_bind]
    rcases hresult : w.events.publish input.nowUnixMillis
      (HandoffStateChangedEvent.fromHandoff next (some previous)).typedPayload with
      ⟨e | envelope, events⟩
    · exact .unannounced e events hresult
    · exact .announced envelope events hresult

/-- Only the end is finished. -/
theorem finished_rest {stage : EditStage} (hregistered : project ∈ config.projects)
    (hchange : ∀ g next previous pending aborted,
      stage = .announcing g next previous pending aborted → previous ≠ next.state)
    (hfinished : (stage.rest config project params).finished = true) :
    ∃ g aborted, stage = .aborting g [] aborted := by
  cases stage with
  | resolving => cases hfinished
  | counting => cases hfinished
  | opening g =>
    rw [rest_opening hregistered] at hfinished
    cases hfinished
  | listing g => cases hfinished
  | aborting g pending aborted =>
    cases pending with
    | nil => exact ⟨g, aborted, rfl⟩
    | cons handoff pending => cases hfinished
  | announcing g next previous pending aborted =>
    have hne : ¬some previous = some next.state := fun heq =>
      hchange g next previous pending aborted rfl (Option.some.inj heq)
    rw [EditStage.rest, editReply_bind, publishHandoffStateChanged, if_neg hne] at hfinished
    cases hfinished

end

end DevRelay.Agent
