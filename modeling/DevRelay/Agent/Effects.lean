import DevRelay.Agent.Handlers
import DevRelay.Remote.Effects

/-!
# What a handler can do to the home

Every step of a handler leaves the databases alone, or runs one transaction on
the database of one project (`CallEffect`).  Results on runs of the agent start
from `handlers_everyStep`.
-/

namespace DevRelay.Agent

open DevRelay.Lib DevRelay.Core DevRelay.Storage DevRelay.Remote

namespace AgentCall

/-- The begin that a call asks for, with its source. -/
def begins (config : AgentConfig) : AgentCall → Option (HandoffBeginParams × String)
  | .ipc (.begin params) => some (params, config.deviceId)
  | .remote actorDeviceId (.begin params) => some (params, actorDeviceId)
  | _ => none

/-- The call may move the handoff `h` of the project to the state `next`. -/
def MayMove (project : String) (h : HandoffRecord) (next : HandoffState) :
    AgentCall → Prop
  | .ipc method => method.named = some (project, h.handoffId) ∧
      (next = .committed → method.mayCommit = true)
  | .remote _ method => method.named = some (project, h.handoffId) ∧
      (next = .committed → method.mayCommit = true)
  | .editorEvent params => params.incrementsGeneration = true ∧ next = .aborted

end AgentCall

/-- What a transaction of a call does to the database of a project. -/
inductive DbEffect (config : AgentConfig) (call : AgentCall) (project : String)
    (s t : MetadataDb) : Prop where
  | begun (params : HandoffBeginParams) (h : HandoffRecord) (l : LeaseRecord)
      (hcall : call.begins config = some (params, h.sourceDeviceId))
      (hproject : params.project = project) (hlease : h.leaseId = params.leaseId)
      (htarget : h.targetDeviceId = params.targetDeviceId)
      (hknown : (s.projects.lookup h.projectId).isSome) (hopens : OpensHandoff s t h l)
      (hrows : RowsAfter s t none)
  | moved (h : HandoffRecord) (next : HandoffState) (taken : Option String)
      (hcall : call.MayMove project h next) (hmoves : MovesHandoff s t h next)
      (hrows : RowsAfter s t taken)
      (htaken : taken = none ∨ taken = some h.targetDeviceId ∧ next = .committed)

inductive CallEffect (config : AgentConfig) (call : AgentCall) (w w' : AgentWorld) :
    Prop where
  | same (h : w' = w)
  | counted (generations : String → UInt64)
      (h : w' = { w with editorSourceGenerations := generations })
  | published (now : UInt64) (payload : TypedEventPayload AgentEventPayload)
      (h : w' = { w with events := (w.events.publish now payload).2 })
  | transaction (project : String) (db : MetadataDb) (h : w' = w.setProjectDb project db)
      (heffect : DbEffect config call project (w.projectDb project) db)

/-! ## The list of handoffs -/

theorem mem_listHandoffs {project : String} {db : MetadataDb} {h : HandoffRecord} :
    h ∈ listHandoffs project db ↔ db.getHandoff h.handoffId = some h ∧ h.projectId = project := by
  unfold listHandoffs
  rw [List.mem_map]
  constructor
  · rintro ⟨row, hrow, rfl⟩
    rw [List.mem_insertionSort, List.mem_filter] at hrow
    have hlookup := Table.lookup_of_mem (t := db.handoffs) hrow.1
    refine ⟨?_, of_decide_eq_true hrow.2⟩
    rw [MetadataDb.getHandoff]
    exact congrArg (Option.map handoffRecordFromRow) hlookup
  · rintro ⟨hstored, hproject⟩
    obtain ⟨row, hrow, rfl⟩ := Option.map_eq_some_iff.mp hstored
    refine ⟨row, ?_, rfl⟩
    rw [List.mem_insertionSort, List.mem_filter]
    exact ⟨Table.mem_of_lookup hrow, decide_eq_true hproject⟩

theorem nodup_listHandoffs (project : String) (db : MetadataDb) :
    ((listHandoffs project db).map HandoffRecord.handoffId).Nodup := by
  unfold listHandoffs
  rw [List.map_map]
  have hperm := (List.perm_insertionSort (fun a b : HandoffRow => a.handoffId ≤ b.handoffId)
    (db.handoffs.rows.filter fun r => r.projectId = project)).map HandoffRow.handoffId
  have hsublist := (List.filter_sublist (p := fun r : HandoffRow => r.projectId = project)
    (l := db.handoffs.rows)).map HandoffRow.handoffId
  exact hperm.nodup_iff.mpr (db.handoffs.nodup.sublist hsublist)

section

variable {config : AgentConfig} {call : AgentCall}

theorem AgentWorld.setProjectDb_self (w : AgentWorld) (project : String) :
    w.setProjectDb project (w.projectDb project) = w := by
  rw [AgentWorld.setProjectDb, Function.update_eq_self]

theorem callEffect_refl (w : AgentWorld) : CallEffect config call w w := .same rfl

/-! ## Steps of the helpers -/

theorem openDb_acts (err : DevRelayError → RpcError) :
    (openDb err).Acts (CallEffect config call) := Thread.acts_observe callEffect_refl

theorem openRegisteredProjectDb_acts (err : AgentError → RpcError) (project : String) :
    (openRegisteredProjectDb config err project).Acts (CallEffect config call) :=
  (Thread.acts_ofExcept _).bind fun _ => openDb_acts _

theorem ensureKnownTargetDevice_acts (err : AgentError → RpcError) (target : String) :
    (ensureKnownTargetDevice err target).Acts (CallEffect config call) := by
  apply (openDb_acts _).bind
  intro _
  apply (Thread.acts_observe callEffect_refl).bind
  intro _
  apply (Thread.acts_ofExcept _).bind
  intro _
  exact Thread.acts_observe callEffect_refl

theorem publishHandoffStateChanged_acts (h : HandoffRecord) (previous : Option HandoffState) :
    (publishHandoffStateChanged h previous).Acts (CallEffect config call) := by
  unfold publishHandoffStateChanged
  split
  · exact Thread.acts_pure _
  · apply Thread.acts_atomically
    intro input w
    apply CallEffect.published input.nowUnixMillis
      (HandoffStateChangedEvent.fromHandoff h previous).typedPayload
    split
    · rename_i heq
      rw [heq]
    · rename_i heq
      rw [heq]

theorem processRemoteFrame_acts (actor : String) :
    (processRemoteFrame actor).Acts (CallEffect config call) :=
  (openDb_acts _).bind fun _ => Thread.acts_observe callEffect_refl

theorem onProject_acts {α : Type} {project : String} {err : DevRelayError → RpcError}
    {H : MetadataDb → MetadataDb → Prop} {p : SqlThread α} (hp : p.Acts H)
    (heffect : ∀ s t, H s t → t = s ∨ DbEffect config call project s t) :
    (onProject project err p).Acts (CallEffect config call) := by
  apply hp.embed
  intro w t ht
  rcases heffect _ _ ht with rfl | heffect
  · exact .same (w.setProjectDb_self project)
  · exact .transaction project t rfl heffect

theorem onProject_readStep_acts {α : Type} (project : String)
    (err : DevRelayError → RpcError) (f : MetadataDb → α) :
    (onProject project err (readStep f)).Acts (CallEffect config call) :=
  onProject_acts (H := fun s t => t = s) (readStep_acts fun _ => rfl) fun _ _ h => Or.inl h

theorem readPreviousState_acts (project : String) (err : DevRelayError → RpcError)
    (handoffId : String) :
    (readPreviousState project err handoffId).Acts (CallEffect config call) :=
  onProject_readStep_acts project err _

theorem onProject_result_acts (project : String) (err : DevRelayError → RpcError)
    (h : HandoffRecord) :
    (onProject project err (handoffMutationResult h)).Acts (CallEffect config call) :=
  onProject_acts (handoffMutationResult_acts (G := fun s t => t = s) (fun _ => rfl) h)
    fun _ _ h => Or.inl h

/-- A thread of transactions on the handoff that the call names. -/
theorem onProject_mutates_acts {α : Type} {project handoffId : String}
    {err : DevRelayError → RpcError} {mayCommit : Bool} {p : SqlThread α}
    (hp : p.Acts (Mutates handoffId mayCommit)) (hcall : ∀ h next, h.handoffId = handoffId →
      (next = .committed → mayCommit = true) → call.MayMove project h next) :
    (onProject project err p).Acts (CallEffect config call) := by
  apply onProject_acts hp
  intro s t heffect
  rcases heffect with rfl | ⟨h, next, taken, hid, hmoves, hrows, htaken, hcommits⟩
  · exact Or.inl rfl
  · exact Or.inr (.moved h next taken (hcall h next hid hcommits) hmoves hrows htaken)

theorem onProject_begins_acts {α : Type} {params : HandoffBeginParams} {source : String}
    {err : DevRelayError → RpcError} {p : SqlThread α} (hp : p.Acts (Begins params source))
    (hcall : call.begins config = some (params, source)) :
    (onProject params.project err p).Acts (CallEffect config call) := by
  apply onProject_acts hp
  intro s t heffect
  rcases heffect with rfl | ⟨h, l, hlease, hsource, htarget, hknown, hopens, hrows⟩
  · exact Or.inl rfl
  · exact Or.inr (.begun params h l (by rw [hsource]; exact hcall) rfl hlease htarget hknown
      hopens hrows)

/-! ## Steps of the handlers -/

theorem handleHandoffBegin_acts (params : HandoffBeginParams) :
    (handleHandoffBegin config params).Acts (CallEffect config (.ipc (.begin params))) := by
  apply (ensureKnownTargetDevice_acts _ _).bind
  intro _
  apply (openRegisteredProjectDb_acts _ _).bind
  intro _
  apply Thread.Acts.bind
  · exact onProject_begins_acts
      (Thread.acts_atomically fun env s => beginHandoff_begins env params _ _ s) rfl
  · intro h
    apply (onProject_result_acts _ _ h).bind
    intro result
    exact (publishHandoffStateChanged_acts _ _).bind fun _ => Thread.acts_pure _

theorem handleHandoffMutation_acts {project handoffId : String} {mayCommit : Bool}
    {mutate : SqlThread HandoffRecord} (hmutate : mutate.Acts (Mutates handoffId mayCommit))
    (hcall : ∀ h next, h.handoffId = handoffId →
      (next = .committed → mayCommit = true) → call.MayMove project h next) :
    (handleHandoffMutation config project handoffId mutate).Acts
      (CallEffect config call) := by
  apply (openRegisteredProjectDb_acts _ _).bind
  intro _
  apply (readPreviousState_acts _ _ _).bind
  intro previous
  apply (onProject_mutates_acts hmutate hcall).bind
  intro h
  apply (onProject_result_acts _ _ h).bind
  intro result
  exact (publishHandoffStateChanged_acts _ _).bind fun _ => Thread.acts_pure _

theorem handleRemoteHandoffMutation_acts {project handoffId : String} {mayCommit : Bool}
    {mutate : SqlThread HandoffMutationResult} (hmutate : mutate.Acts (Mutates handoffId mayCommit))
    (hcall : ∀ h next, h.handoffId = handoffId →
      (next = .committed → mayCommit = true) → call.MayMove project h next) :
    (handleRemoteHandoffMutation config project handoffId mutate).Acts
      (CallEffect config call) := by
  apply (openRegisteredProjectDb_acts _ _).bind
  intro _
  apply (readPreviousState_acts _ _ _).bind
  intro previous
  apply (onProject_mutates_acts hmutate hcall).bind
  intro result
  exact (publishHandoffStateChanged_acts _ _).bind fun _ => Thread.acts_pure _

theorem handleHandoffRecover_acts (params : HandoffRecoverParams) (now : UInt64)
    (hcall : ∀ h next, h.handoffId = params.handoffId →
      call.MayMove params.project h next) :
    (handleHandoffRecover config params now).Acts (CallEffect config call) := by
  apply (openRegisteredProjectDb_acts _ _).bind
  intro _
  apply (readPreviousState_acts _ _ _).bind
  intro previous
  apply (onProject_mutates_acts (recoverHandoffSteps_acts _ _ _)
    fun h next hid _ => hcall h next hid).bind
  intro outcome
  apply (onProject_readStep_acts _ _ _).bind
  intro handoff
  cases handoff with
  | none => exact Thread.acts_fail _
  | some h =>
    apply (onProject_readStep_acts _ _ _).bind
    intro journal
    exact (publishHandoffStateChanged_acts _ _).bind fun _ => Thread.acts_pure _

theorem handleRemoteHandoffBegin_acts (actor : String) (params : HandoffBeginParams) :
    (handleRemoteHandoffBegin config actor params).Acts
      (CallEffect config (.remote actor (.begin params))) := by
  apply (ensureKnownTargetDevice_acts _ _).bind
  intro _
  apply (openRegisteredProjectDb_acts _ _).bind
  intro _
  apply (onProject_begins_acts (remoteHandoffBegin_acts actor params) rfl).bind
  intro result
  exact (publishHandoffStateChanged_acts _ _).bind fun _ => Thread.acts_pure _

theorem handleRemoteHandoffRecover_acts (actor : String) (params : HandoffRecoverParams)
    (now : UInt64) (hcall : ∀ h next, h.handoffId = params.handoffId →
      call.MayMove params.project h next) :
    (handleRemoteHandoffRecover config actor params now).Acts (CallEffect config call) := by
  apply (openRegisteredProjectDb_acts _ _).bind
  intro _
  apply (readPreviousState_acts _ _ _).bind
  intro previous
  apply (onProject_mutates_acts (remoteHandoffRecover_acts actor params now)
    fun h next hid _ => hcall h next hid).bind
  intro result
  exact (publishHandoffStateChanged_acts _ _).bind fun _ => Thread.acts_pure _

theorem abortPendingHandoffs_acts {params : EditorEventRecordParams}
    (hincrements : params.incrementsGeneration = true) (project : String)
    (pending aborted : List HandoffRecord) :
    (abortPendingHandoffs project pending aborted).Acts
      (CallEffect config (.editorEvent params)) := by
  induction pending generalizing aborted with
  | nil => exact Thread.acts_pure _
  | cons handoff pending ih =>
    rw [abortPendingHandoffs]
    apply Thread.Acts.bind
    · apply onProject_acts (H := fun s t => t = s ∨ ∃ h, MovesHandoff s t h .aborted ∧
        RowsAfter s t none)
      · apply Thread.acts_atomically
        intro env s
        rcases abortHandoffAt_moves env handoff.handoffId env.unixNowSeconds
            "source generation changed by editor event" s with
          ⟨e, heq⟩ | ⟨h, -, -, heq⟩ | ⟨h, t, -, heq, hmoves, hrows⟩
        · rw [abortHandoffWithReason, heq]
          exact Or.inl rfl
        · rw [abortHandoffWithReason, heq]
          exact Or.inl rfl
        · rw [abortHandoffWithReason, heq]
          exact Or.inr ⟨h, hmoves, hrows⟩
      · rintro s t (rfl | ⟨h, hmoves, hrows⟩)
        · exact Or.inl rfl
        · exact Or.inr (.moved h .aborted none ⟨hincrements, rfl⟩ hmoves hrows
            (Or.inl rfl))
    · intro next
      exact (publishHandoffStateChanged_acts _ _).bind fun _ => ih _

theorem resolveEditorEventProject_acts (params : EditorEventRecordParams) :
    (resolveEditorEventProject config params).Acts (CallEffect config call) := by
  unfold resolveEditorEventProject
  split
  · apply (Thread.acts_ofExcept _).bind
    intro _
    exact (Thread.acts_ofExcept _).bind fun _ => Thread.acts_pure _
  · exact Thread.acts_pure _
  · split
    · exact Thread.acts_pure _
    · exact Thread.acts_observe callEffect_refl

theorem handleEditorEventRecord_acts (params : EditorEventRecordParams) :
    (handleEditorEventRecord config params).Acts
      (CallEffect config (.editorEvent params)) := by
  apply (resolveEditorEventProject_acts params).bind
  intro project
  apply Thread.Acts.bind
  · exact Thread.acts_atomically fun _ w => .counted _ rfl
  · intro generation
    apply Thread.Acts.bind
    · split
      · rename_i hincrements
        cases project with
        | none => exact Thread.acts_pure _
        | some project =>
          apply (openRegisteredProjectDb_acts _ _).bind
          intro _
          apply (onProject_readStep_acts _ _ _).bind
          intro handoffs
          exact abortPendingHandoffs_acts hincrements project _ _
      · exact Thread.acts_pure _
    · exact fun _ => Thread.acts_pure _

theorem ipcProgram_acts (method : HandoffMethod) :
    (ipcProgram config method).Acts (CallEffect config (.ipc method)) := by
  cases method with
  | begin params => exact (handleHandoffBegin_acts params).map
  | targetVerify params =>
    apply Thread.Acts.map
    apply handleHandoffMutation_acts (Thread.acts_atomically fun env s =>
      markHandoffTargetVerified_mutates params.handoffId env s)
    intro h next hid hnext
    exact ⟨by rw [hid]; rfl, hnext⟩
  | sourceReady params =>
    apply Thread.Acts.map
    apply handleHandoffMutation_acts (Thread.acts_atomically fun env s =>
      markHandoffSourceReady_mutates params.handoffId env s)
    intro h next hid hnext
    exact ⟨by rw [hid]; rfl, hnext⟩
  | commit params now =>
    apply Thread.Acts.map
    apply handleHandoffMutation_acts (commitHandoffSteps_acts params.handoffId _ _ _)
    intro h next hid hnext
    exact ⟨by rw [hid]; rfl, hnext⟩
  | abort params =>
    apply Thread.Acts.map
    apply handleHandoffMutation_acts (Thread.acts_atomically fun env s =>
      abortHandoff_mutates params.handoffId env s)
    intro h next hid hnext
    exact ⟨by rw [hid]; rfl, hnext⟩
  | recover params now =>
    apply Thread.Acts.map
    apply handleHandoffRecover_acts
    intro h next hid
    exact ⟨by rw [hid]; rfl, fun _ => rfl⟩

theorem dispatchRemoteRequest_acts (actor : String) (method : HandoffMethod) :
    (dispatchRemoteRequest config actor method).Acts
      (CallEffect config (.remote actor method)) := by
  cases method with
  | begin params => exact (handleRemoteHandoffBegin_acts actor params).map
  | targetVerify params =>
    apply Thread.Acts.map
    apply handleRemoteHandoffMutation_acts (remoteHandoffTargetVerify_acts actor params)
    intro h next hid hnext
    exact ⟨by rw [hid]; rfl, hnext⟩
  | sourceReady params =>
    apply Thread.Acts.map
    apply handleRemoteHandoffMutation_acts (remoteHandoffSourceReady_acts actor params)
    intro h next hid hnext
    exact ⟨by rw [hid]; rfl, hnext⟩
  | commit params now =>
    apply Thread.Acts.map
    apply handleRemoteHandoffMutation_acts (remoteHandoffCommit_acts actor params now)
    intro h next hid hnext
    exact ⟨by rw [hid]; rfl, hnext⟩
  | abort params =>
    apply Thread.Acts.map
    apply handleRemoteHandoffMutation_acts (remoteHandoffAbort_acts actor params)
    intro h next hid hnext
    exact ⟨by rw [hid]; rfl, hnext⟩
  | recover params now =>
    apply Thread.Acts.map
    apply handleRemoteHandoffRecover_acts
    intro h next hid
    exact ⟨by rw [hid]; rfl, fun _ => rfl⟩

theorem program_acts (call : AgentCall) : (call.program config).Acts (CallEffect config call) := by
  cases call with
  | ipc method => exact ipcProgram_acts method
  | remote actor method =>
    exact (processRemoteFrame_acts actor).bind fun _ => dispatchRemoteRequest_acts actor method
  | editorEvent params => exact (handleEditorEventRecord_acts params).map

/-- In every run of the agent a step has one of the effects of its call. -/
theorem handlers_everyStep (config : AgentConfig) (world : AgentWorld)
    (moves : List (Move AgentCall AgentInput)) :
    Pool.EveryStep (AgentCall.program config) world moves (CallEffect config) :=
  Pool.everyStep_of_acts (fun _ w => callEffect_refl w) program_acts world moves

end

end DevRelay.Agent
