import DevRelay.Agent.MirroredRuns
import DevRelay.Agent.StoppedHandoffs

/-!
# Runs in which an edit stops the handoffs

The call of one edit, followed through a run of the agent in which any other calls
take steps between its own.
-/

namespace DevRelay.Agent

open DevRelay.Lib DevRelay.Core DevRelay.Storage DevRelay.Remote

section

variable {config : AgentConfig} {project : String} {params : EditorEventRecordParams}
  {w w' : AgentWorld} {p : AgentThread AgentReply}

/-! ## The event of an abort -/

/-- The handler is about to tell that it has aborted the handoff, or has told it since
`before`. -/
structure Announcing (config : AgentConfig) (project : String)
    (params : EditorEventRecordParams) (handoffId : String)
    (before : List (Option HandoffState × HandoffState)) (w : AgentWorld)
    (p : AgentThread AgentReply) : Prop where
  rows : OwnRows w
  grown : ∃ later, handoffEvents project handoffId w = before ++ later
  told : (∃ g next previous pending aborted,
      p = (EditStage.announcing g next previous pending aborted).rest config project params ∧
      IsHandoff project handoffId next.projectId next.handoffId ∧ next.state = .aborted ∧
      previous.isTerminal = false) ∨
    ∃ previous later, handoffEvents project handoffId w = before ++ later ∧
      (some previous, .aborted) ∈ later

variable {handoffId : String} {before : List (Option HandoffState × HandoffState)}

theorem handoffEvents_later (hstep : ∃ call, CallEffect config call w w')
    {later : List (Option HandoffState × HandoffState)}
    (h : handoffEvents project handoffId w = before ++ later) :
    ∃ more, handoffEvents project handoffId w' = before ++ (later ++ more) := by
  obtain ⟨call, heffect⟩ := hstep
  obtain ⟨more, hmore⟩ := heffect.handoffEvents_append project handoffId
  exact ⟨more, by rw [hmore, h, List.append_assoc]⟩

theorem Announcing.others (hstep : ∃ call, CallEffect config call w w')
    (h : Announcing config project params handoffId before w p) :
    Announcing config project params handoffId before w' p := by
  obtain ⟨later, hlater⟩ := h.grown
  obtain ⟨more, hmore⟩ := handoffEvents_later hstep hlater
  obtain ⟨call, heffect⟩ := id hstep
  refine ⟨heffect.ownRows h.rows, ⟨_, hmore⟩, ?_⟩
  rcases h.told with hpending | ⟨previous, later, hlater, hmem⟩
  · exact Or.inl hpending
  · obtain ⟨more, hmore⟩ := handoffEvents_later hstep hlater
    exact Or.inr ⟨previous, _, hmore, List.mem_append_left _ hmem⟩

theorem Announcing.own {canonicalize : String → Option String} {input : AgentInput}
    (hregistered : project ∈ config.projects)
    (hproject : params.editedProject config canonicalize = some project)
    (hcan : ∀ stage : EditStage, p = stage.rest config project params →
      Unhindered config project canonicalize stage input w)
    (hstep : ∃ call, CallEffect config call w (p.advance input w).1)
    (h : Announcing config project params handoffId before w p) :
    Announcing config project params handoffId before (p.advance input w).1
      (p.advance input w).2 := by
  obtain ⟨call, heffect⟩ := id hstep
  have hrows := heffect.ownRows h.rows
  obtain ⟨later, hlater⟩ := h.grown
  obtain ⟨more, hmore⟩ := handoffEvents_later hstep hlater
  refine ⟨hrows, ⟨_, hmore⟩, Or.inr ?_⟩
  rcases h.told with
    ⟨g, next, previous, pending, aborted, rfl, his, haborted, hopen⟩ |
    ⟨previous, later, hlater, hmem⟩
  · have hcan := hcan _ rfl
    have hne : previous ≠ next.state := by
      rintro rfl
      rw [haborted] at hopen
      cases hopen
    have hchange : ∀ g' next' previous' pending' aborted',
        EditStage.announcing g next previous pending aborted =
          .announcing g' next' previous' pending' aborted' → previous' ≠ next'.state := by
      rintro _ _ _ _ _ ⟨⟩
      exact hne
    have hadvance := editStep_advance input w hregistered
      (by rw [hcan.path]; exact hproject) (by rintro _ _ ⟨⟩) hchange
    generalize hresult : (((EditStage.announcing g next previous pending aborted).rest config
      project params).advance input w) = result at hadvance ⊢
    obtain ⟨w', q⟩ := result
    obtain ⟨envelope, events, hpublish, hpayload, hevents⟩ := publish_ok input.nowUnixMillis
      (HandoffStateChangedEvent.fromHandoff next (some previous)) h.rows.numbered
      (hcan.numbered g next previous pending aborted rfl hne)
    cases hadvance with
    | announced envelope' events' hpublish' =>
      cases hpublish.symm.trans hpublish'
      have hlog := handoffEvents_concat project handoffId next (some previous) hpayload hevents
      rw [if_pos his, hlater, haborted] at hlog
      refine ⟨previous, later ++ [(some previous, .aborted)], ?_,
        List.mem_append_right _ List.mem_cons_self⟩
      rw [← List.append_assoc]
      exact hlog
    | unannounced e events' hpublish' => cases hpublish.symm.trans hpublish'
  · obtain ⟨more, hmore⟩ := handoffEvents_later hstep hlater
    exact ⟨previous, _, hmore, List.mem_append_left _ hmem⟩

/-- A step of the handler that aborts a handoff goes on to announce it. -/
theorem announcing_of_aborts {S : String → Prop} {input : AgentInput}
    {canonicalize : String → Option String} (hregistered : project ∈ config.projects)
    (hproject : params.editedProject config canonicalize = some project)
    (hcan : ∀ stage : EditStage, p = stage.rest config project params →
      Unhindered config project canonicalize stage input w)
    (hstep : ∃ call, CallEffect config call w (p.advance input w).1)
    (h : Stopping config project params S w p) {state : HandoffState}
    (hbefore : storedState project handoffId w = some state) (hopen : state.isTerminal = false)
    (hafter : storedState project handoffId (p.advance input w).1 = some .aborted) :
    Announcing config project params handoffId (handoffEvents project handoffId w)
      (p.advance input w).1 (p.advance input w).2 := by
  obtain ⟨call, heffect⟩ := id hstep
  have hrows := heffect.ownRows h.rows
  have hgrown := heffect.handoffEvents_append project handoffId
  refine ⟨hrows, hgrown, Or.inl ?_⟩
  -- a step that leaves the database alone does not abort
  have hsame : storedState project handoffId w ≠ some .aborted := by
    rw [hbefore]
    intro heq
    cases heq
    cases hopen
  rcases h.stage with ⟨stage, rfl, hsound, -⟩ | ⟨⟨e, rfl⟩, -⟩
  · by_cases hend : ∃ g aborted, stage = .aborting g [] aborted
    · obtain ⟨g, aborted, rfl⟩ := hend
      exact absurd hafter hsame
    · have hadvance := editStep_advance input w hregistered
        (by rw [(hcan stage rfl).path]; exact hproject)
        (fun g aborted heq => hend ⟨g, aborted, heq⟩) hsound.changes
      generalize hresult : ((stage.rest config project params).advance input w) = result
        at hadvance hafter hrows hgrown ⊢
      obtain ⟨w', q⟩ := result
      simp only at hadvance hafter hrows hgrown ⊢
      cases hadvance with
      | @aborted g handoff pending aborted next db habort =>
        obtain ⟨hid, hstate, hstored, -⟩ := storedState_of_aborted habort
        have hlisted := hsound handoff List.mem_cons_self
        have hprojectId : next.projectId = project := by
          apply hrows.handoffs project handoff.handoffId next
          rw [projectDb_setProjectDb]
          exact hstored
        have hhandoff : handoff.handoffId = handoffId := by
          by_contra hne
          apply hsame
          rw [← hafter]
          rcases abortHandoffAt_moves input.env handoff.handoffId input.env.unixNowSeconds
              "source generation changed by editor event" (w.projectDb project) with
            ⟨e, heq⟩ | ⟨h', -, -, heq⟩ | ⟨h', t, hid', heq, hmoves, -⟩
          · cases heq.symm.trans habort
          · cases heq.symm.trans habort
            rw [AgentWorld.setProjectDb_self]
          · cases heq.symm.trans habort
            symm
            apply (storedState_moves project handoffId hmoves).2
            rintro ⟨-, hsameId⟩
            exact hne (hid'.symm.trans hsameId)
        exact ⟨g, next, handoff.state, pending, aborted, rfl,
          ⟨hprojectId, hid.trans hhandoff⟩, hstate, hlisted.wasOpen⟩
      | resolved _ => exact absurd hafter hsame
      | counted _ _ => exact absurd hafter hsame
      | opened _ => exact absurd hafter hsame
      | unopened _ _ => exact absurd hafter hsame
      | listed _ => exact absurd hafter hsame
      | unlisted _ _ => exact absurd hafter hsame
      | unaborted _ _ => exact absurd hafter hsame
      | announced _ _ _ => exact absurd hafter hsame
      | unannounced _ _ _ => exact absurd hafter hsame
  · exact absurd hafter hsame

/-- A told abort stays told when the handler has returned. -/
theorem Announcing.finished (hregistered : project ∈ config.projects)
    (h : Announcing config project params handoffId before w p) (hfinished : p.finished = true) :
    ∃ previous later, handoffEvents project handoffId w = before ++ later ∧
      (some previous, .aborted) ∈ later := by
  rcases h.told with ⟨g, next, previous, pending, aborted, rfl, -, haborted, hopen⟩ | htold
  · have hend := finished_rest hregistered (by
      rintro _ _ _ _ _ ⟨⟩ rfl
      rw [haborted] at hopen
      cases hopen) hfinished
    obtain ⟨_, _, heq⟩ := hend
    cases heq
  · exact htold

end

/-! ## Runs -/

section

variable (config : AgentConfig) (project : String) (params : EditorEventRecordParams)
  (home : AgentWorld) (moves : List (Move AgentCall AgentInput))

/-- The agent after the first `n` moves. -/
abbrev agentAt (n : Nat) : Pool AgentCall AgentInput AgentWorld RpcError AgentReply :=
  Pool.after (AgentCall.program config) home moves n

/-- The call with the number `i` has returned a result or an error. -/
def Returned (n i : Nat) : Prop :=
  ∃ c, (agentAt config home moves n).calls[i]? = some c ∧ c.2.finished = true

/-- What is left of the edit is what the handler does from the stage on. -/
def AtStage (i n : Nat) (stage : EditStage) : Prop :=
  (agentAt config home moves n).calls[i]? =
    some (.editorEvent params, stage.rest config project params)

/-- Every step of the call with the number `i` is unhindered. -/
def EditUnhindered (canonicalize : String → Option String) (i : Nat) : Prop :=
  ∀ n input stage, moves[n]? = some (.advance i input) →
    AtStage config project params home moves i n stage →
      Unhindered config project canonicalize stage input (agentAt config home moves n).state

/-- The edit that arrives with the move `m`, as the call with the number `i`, stops the
handoffs of the project that are handed over from this device. -/
structure EditStops (m i : Nat) : Prop where
  pendingStopped : ∀ n, Returned config home moves n i →
    ∀ h ∈ pendingHandoffs config project (agentAt config home moves m).state,
      Stopped project h.handoffId (agentAt config home moves n).state
  listedStopped : ∀ k n g, AtStage config project params home moves i k (.listing g) → k ≤ n →
    Returned config home moves n i →
      ∀ h ∈ pendingHandoffs config project (agentAt config home moves k).state,
        Stopped project h.handoffId (agentAt config home moves n).state
  endsAborted : ∀ k n input g h pending aborted, moves[k]? = some (.advance i input) →
    AtStage config project params home moves i k (.aborting g (h :: pending) aborted) →
      StillOpen project h (agentAt config home moves k).state → k < n →
        storedState project h.handoffId (agentAt config home moves n).state = some .aborted
  announced : ∀ k n input handoffId state, moves[k]? = some (.advance i input) → k < n →
    storedState project handoffId (agentAt config home moves k).state = some state →
      state.isTerminal = false →
        storedState project handoffId (agentAt config home moves (k + 1)).state =
            some .aborted →
          Returned config home moves n i → ∃ previous later,
            handoffEvents project handoffId (agentAt config home moves n).state =
              handoffEvents project handoffId (agentAt config home moves k).state ++ later ∧
            (some previous, .aborted) ∈ later
  neverCommitted : ∀ n n' handoffId h,
    ((agentAt config home moves m).state.projectDb project).getHandoff handoffId = some h →
      h.sourceDeviceId = config.deviceId → Returned config home moves n i → n ≤ n' →
        storedState project handoffId (agentAt config home moves n').state =
            some .committed →
          storedState project handoffId (agentAt config home moves n).state = some .committed

end

section

variable {config : AgentConfig} {project : String} {params : EditorEventRecordParams}
  {home : AgentWorld} {moves : List (Move AgentCall AgentInput)}

theorem agent_everyStep (config : AgentConfig) (home : AgentWorld)
    (moves : List (Move AgentCall AgentInput)) :
    Pool.EveryStep (AgentCall.program config) home moves fun _ w w' =>
      ∃ call, CallEffect config call w w' := by
  intro n hn
  obtain ⟨hcall, hnone⟩ := handlers_everyStep config home moves n hn
  exact ⟨fun call hcaller => ⟨call, hcall call hcaller⟩, hnone⟩

theorem agentAt_rows (config : AgentConfig) (moves : List (Move AgentCall AgentInput))
    (hrows : OwnRows home) (hknown : KnownProjects home) (n : Nat) :
    OwnRows (agentAt config home moves n).state ∧
      KnownProjects (agentAt config home moves n).state :=
  (agent_everyStep config home moves).kept
    (I := fun w => OwnRows w ∧ KnownProjects w)
    (fun hstep h => by
      obtain ⟨call, heffect⟩ := hstep
      exact ⟨heffect.ownRows h.1, heffect.knownProjects h.2⟩)
    (Nat.zero_le n) ⟨hrows, hknown⟩

theorem agentAt_storedState {handoffId : String} {state : HandoffState} {k n : Nat} (hkn : k ≤ n)
    (hstored : storedState project handoffId (agentAt config home moves k).state = some state)
    (hterminal : state.isTerminal = true) :
    storedState project handoffId (agentAt config home moves n).state = some state :=
  (agent_everyStep config home moves).kept
    (I := fun w => storedState project handoffId w = some state)
    (fun hstep h => by
      obtain ⟨call, heffect⟩ := hstep
      exact heffect.storedState_of_terminal h hterminal)
    hkn hstored

/-- An early stage has everything to stop that is pending. -/
theorem stopping_of_pending (params : EditorEventRecordParams) (stage : EditStage)
    {w : AgentWorld} (hrows : OwnRows w) (hknown : KnownProjects w)
    (hearly : stage.remaining config project w = pendingHandoffs config project w)
    (hsound : stage.Sound project w) :
    Stopping config project params
      (fun id => ∃ h, (w.projectDb project).getHandoff id = some h ∧
        h.sourceDeviceId = config.deviceId) w (stage.rest config project params) := by
  refine ⟨hrows, hknown, fun _ h => h, Or.inl ⟨stage, rfl, hsound, ?_⟩⟩
  rintro id ⟨h, hstored, hsource⟩
  rw [hearly]
  exact stopped_or_pending hrows hstored hsource

variable {canonicalize : String → Option String} {i : Nat}

/-- From an early stage on, the edit has everything to stop that was stored there. -/
theorem stopping_from (hregistered : project ∈ config.projects)
    (hproject : params.editedProject config canonicalize = some project)
    (hcan : EditUnhindered config project params home moves canonicalize i) {k : Nat}
    {S : String → Prop} {p : AgentThread AgentReply}
    (hk : (agentAt config home moves k).calls[i]? = some (.editorEvent params, p))
    (hstopping : Stopping config project params S (agentAt config home moves k).state p)
    {n : Nat} (hkn : k ≤ n) :
    ∃ q, (agentAt config home moves n).calls[i]? = some (.editorEvent params, q) ∧
      Stopping config project params S (agentAt config home moves n).state q := by
  refine Pool.tracked (J := Stopping config project params S)
    (agent_everyStep config home moves) (fun hstep h => h.others hstep) ?_ hk hstopping n hkn
  intro n input p hmove hp h hstep
  refine h.own hregistered hproject (fun stage hstage => ?_) hstep
  apply hcan n input stage hmove
  rw [AtStage, ← hstage]
  exact hp

/-- A call that has returned has only one thing left. -/
theorem Returned.finished {n : Nat} (h : Returned config home moves n i) {call : AgentCall}
    {q : AgentThread AgentReply}
    (hq : (agentAt config home moves n).calls[i]? = some (call, q)) : q.finished = true := by
  obtain ⟨c, hc, hfinished⟩ := h
  cases hc.symm.trans hq
  exact hfinished

/-- A step of one call of the run, on its thread. -/
theorem agentAt_advance {n : Nat} {input : AgentInput} {call : AgentCall}
    {q : AgentThread AgentReply} (hmove : moves[n]? = some (.advance i input))
    (hq : (agentAt config home moves n).calls[i]? = some (call, q)) :
    (agentAt config home moves (n + 1)).state =
        (q.advance input (agentAt config home moves n).state).1 ∧
      (agentAt config home moves (n + 1)).calls[i]? =
        some (call, (q.advance input (agentAt config home moves n).state).2) := by
  obtain ⟨hn, heq⟩ := List.getElem?_eq_some_iff.mp hmove
  rw [agentAt, Pool.after_succ hn, heq]
  exact Pool.step_advance _ hq input

theorem callEffect_advance {n : Nat} {input : AgentInput} {call : AgentCall}
    {q : AgentThread AgentReply} (hmove : moves[n]? = some (.advance i input))
    (hq : (agentAt config home moves n).calls[i]? = some (call, q)) :
    ∃ call, CallEffect config call (agentAt config home moves n).state
      (q.advance input (agentAt config home moves n).state).1 := by
  obtain ⟨hn, heq⟩ := List.getElem?_eq_some_iff.mp hmove
  have hstep := (agent_everyStep config home moves n hn).1 call
  rw [heq, (agentAt_advance hmove hq).1] at hstep
  apply hstep
  rw [Pool.caller, hq]
  rfl

/-- The transaction of the edit on an open handoff aborts it. -/
theorem storedState_abortStep (hregistered : project ∈ config.projects)
    (hproject : params.editedProject config canonicalize = some project)
    (hcan : EditUnhindered config project params home moves canonicalize i) {k : Nat}
    {input : AgentInput} {g : UInt64} {h : HandoffRecord} {pending aborted : List HandoffRecord}
    (hknown : KnownProjects (agentAt config home moves k).state)
    (hmove : moves[k]? = some (.advance i input))
    (hat : AtStage config project params home moves i k (.aborting g (h :: pending) aborted))
    (hopen : StillOpen project h (agentAt config home moves k).state) :
    storedState project h.handoffId (agentAt config home moves (k + 1)).state = some .aborted := by
  have hcan := hcan k input _ hmove hat
  have hworks := hcan.works ⟨h, List.mem_cons_self, hopen⟩
  rw [(agentAt_advance hmove hat).1]
  have hend : ∀ g' aborted', EditStage.aborting g (h :: pending) aborted ≠
      .aborting g' [] aborted' := by
    rintro _ _ ⟨⟩
  have hadvance := editStep_advance input (agentAt config home moves k).state hregistered
    (by rw [hcan.path]; exact hproject) hend (by rintro _ _ _ _ _ ⟨⟩)
  generalize hresult : (((EditStage.aborting g (h :: pending) aborted).rest config project
    params).advance input (agentAt config home moves k).state) = result at hadvance ⊢
  obtain ⟨w', q⟩ := result
  cases hadvance with
  | aborted next db habort => exact (storedState_of_aborted habort).2.2.2
  | unaborted e habort =>
    obtain ⟨state, hstate, hterminal⟩ := hopen
    obtain ⟨r, hstored, rfl⟩ := Option.map_eq_some_iff.mp hstate
    have hid := MetadataDb.handoffId_of_getHandoff hstored
    obtain ⟨text, hjson⟩ := hworks.json "source generation changed by editor event"
    have hcommitted : r.state ≠ .committed := by
      intro heq
      rw [heq] at hterminal
      cases hterminal
    obtain ⟨t, hok⟩ := abortHandoffAt_stops (h := r) input.env.unixNowSeconds hworks.runs hjson
      (by rw [hid]; exact hstored) (hknown project _ r hstored) hcommitted
    rw [hid] at hok
    cases hok.symm.trans habort

/-- What the edit aborts it has told when it returns. -/
theorem announced_of_aborts (hregistered : project ∈ config.projects)
    (hproject : params.editedProject config canonicalize = some project)
    (hcan : EditUnhindered config project params home moves canonicalize i) {k n : Nat}
    {input : AgentInput} {S : String → Prop} {q : AgentThread AgentReply} {handoffId : String}
    {state : HandoffState} (hmove : moves[k]? = some (.advance i input))
    (hq : (agentAt config home moves k).calls[i]? = some (.editorEvent params, q))
    (hstopping : Stopping config project params S (agentAt config home moves k).state q)
    (hbefore : storedState project handoffId (agentAt config home moves k).state = some state)
    (hopen : state.isTerminal = false)
    (hafter : storedState project handoffId (agentAt config home moves (k + 1)).state =
      some .aborted)
    (hkn : k < n) (hreturned : Returned config home moves n i) :
    ∃ previous later,
      handoffEvents project handoffId (agentAt config home moves n).state =
        handoffEvents project handoffId (agentAt config home moves k).state ++ later ∧
      (some previous, .aborted) ∈ later := by
  obtain ⟨hstate, hnext⟩ := agentAt_advance hmove hq
  have hunhindered : ∀ (n : Nat) input p, moves[n]? = some (.advance i input) →
      (agentAt config home moves n).calls[i]? = some (.editorEvent params, p) →
      ∀ stage : EditStage, p = stage.rest config project params →
        Unhindered config project canonicalize stage input (agentAt config home moves n).state := by
    intro n input p hmove hp stage hstage
    apply hcan n input stage hmove
    rw [AtStage, ← hstage]
    exact hp
  rw [hstate] at hafter
  have hfirst := announcing_of_aborts hregistered hproject (hunhindered k input q hmove hq)
    (callEffect_advance hmove hq) hstopping hbefore hopen hafter
  rw [← hstate] at hfirst
  obtain ⟨r, hr, hannouncing⟩ := Pool.tracked
    (J := Announcing config project params handoffId
      (handoffEvents project handoffId (agentAt config home moves k).state))
    (agent_everyStep config home moves) (fun hstep h => h.others hstep)
    (fun n input p hmove hp h hstep =>
      h.own hregistered hproject (hunhindered n input p hmove hp) hstep)
    hnext hfirst n hkn
  exact hannouncing.finished hregistered (hreturned.finished hr)

/-- From its arrival on, the handler of the edit is at a stage of what it has to stop. -/
theorem stopping_of_arrival {params : EditorEventRecordParams}
    {canonicalize : String → Option String} {home : AgentWorld}
    {moves : List (Move AgentCall AgentInput)} {m i n : Nat}
    {c : AgentCall × AgentThread AgentReply} (hrows : OwnRows home) (hknown : KnownProjects home)
    (hregistered : project ∈ config.projects) (hedit : params.incrementsGeneration = true)
    (hproject : params.editedProject config canonicalize = some project)
    (harrives : moves[m]? = some (.arrive (.editorEvent params)))
    (hi : (agentAt config home moves m).calls.length = i)
    (hcan : EditUnhindered config project params home moves canonicalize i)
    (hc : (agentAt config home moves n).calls[i]? = some c) :
    ∃ q, (agentAt config home moves n).calls[i]? = some (.editorEvent params, q) ∧
      Stopping config project params (fun id => ∃ h,
        ((agentAt config home moves m).state.projectDb project).getHandoff id = some h ∧
          h.sourceDeviceId = config.deviceId) (agentAt config home moves n).state q := by
  have hlt : m < moves.length := (List.getElem?_eq_some_iff.mp harrives).1
  have hmove : moves[m] = .arrive (.editorEvent params) := (List.getElem?_eq_some_iff.mp
    harrives).2
  -- the arrival
  have hafter : agentAt config home moves (m + 1) =
      (agentAt config home moves m).step (AgentCall.program config)
        (.arrive (.editorEvent params)) := by
    rw [agentAt, Pool.after_succ hlt, hmove]
  have hstate : (agentAt config home moves (m + 1)).state =
      (agentAt config home moves m).state := by
    rw [hafter]
    rfl
  obtain ⟨start, hstart, hprogram⟩ := program_eq_rest hedit hproject
  have hcall : (agentAt config home moves (m + 1)).calls[i]? =
      some (.editorEvent params, start.rest config project params) := by
    rw [hafter, ← hprogram, ← hi]
    exact List.getElem?_concat_length
  have hrowsAt := agentAt_rows config moves hrows hknown m
  have hfirst : Stopping config project params
      (fun id => ∃ h, ((agentAt config home moves m).state.projectDb project).getHandoff id =
        some h ∧ h.sourceDeviceId = config.deviceId)
      (agentAt config home moves (m + 1)).state (start.rest config project params) := by
    rw [hstate]
    rcases hstart with rfl | rfl
    · exact stopping_of_pending _ _ hrowsAt.1 hrowsAt.2 rfl trivial
    · exact stopping_of_pending _ _ hrowsAt.1 hrowsAt.2 rfl trivial
  -- the call is not there before it arrives
  have harrived : m + 1 ≤ n := by
    by_contra hlate
    have hle : (agentAt config home moves n).calls.length ≤
        (agentAt config home moves m).calls.length :=
      Pool.length_calls_mono (by omega)
    have hlt : i < (agentAt config home moves n).calls.length :=
      (List.getElem?_eq_some_iff.mp hc).1
    omega
  exact stopping_from hregistered hproject hcan hcall hfirst harrived

/-- In every run of the agent an edit stops the handoffs of its project that are handed over
from this device, when its own steps are unhindered. -/
theorem edit_stops_source_handoffs (config : AgentConfig) (project : String)
    (params : EditorEventRecordParams) (canonicalize : String → Option String)
    (home : AgentWorld) (moves : List (Move AgentCall AgentInput)) (m : Nat)
    (hrows : OwnRows home) (hknown : KnownProjects home)
    (hregistered : project ∈ config.projects) (hedit : params.incrementsGeneration = true)
    (hproject : params.editedProject config canonicalize = some project)
    (harrives : moves[m]? = some (.arrive (.editorEvent params)))
    (hcan : EditUnhindered config project params home moves canonicalize
      (agentAt config home moves m).calls.length) :
    EditStops config project params home moves m
      (agentAt config home moves m).calls.length := by
  generalize hi : (agentAt config home moves m).calls.length = i at hcan ⊢
  have hrowsAt := agentAt_rows config moves hrows hknown
  have hstage {n : Nat} {c} (hc : (agentAt config home moves n).calls[i]? = some c) :=
    stopping_of_arrival hrows hknown hregistered hedit hproject harrives hi hcan hc
  have hstopped : ∀ n, Returned config home moves n i → ∀ id h,
      ((agentAt config home moves m).state.projectDb project).getHandoff id = some h →
        h.sourceDeviceId = config.deviceId →
          Stopped project id (agentAt config home moves n).state := by
    intro n hreturned id h hstored hsource
    have hfinished : ∀ {q}, (agentAt config home moves n).calls[i]? =
        some (.editorEvent params, q) → q.finished = true := hreturned.finished
    obtain ⟨c, hc, -⟩ := hreturned
    obtain ⟨q, hq, hstopping⟩ := hstage hc
    exact hstopping.finished hregistered (hfinished hq) id ⟨h, hstored, hsource⟩
  have hpending : ∀ n, Returned config home moves n i →
      ∀ h ∈ pendingHandoffs config project (agentAt config home moves m).state,
        Stopped project h.handoffId (agentAt config home moves n).state := by
    intro n hreturned h hmem
    obtain ⟨hstored, -, hsource⟩ := mem_pendingHandoffs hmem
    exact hstopped n hreturned _ h hstored hsource
  refine ⟨hpending, ?_, ?_, ?_, ?_⟩
  · intro k n g hlisting hkn hreturned h hmem
    obtain ⟨hstored, -, hsource⟩ := mem_pendingHandoffs hmem
    have hfrom := stopping_of_pending params (.listing g) (hrowsAt k).1 (hrowsAt k).2
      (Eq.refl (pendingHandoffs config project _)) trivial
    obtain ⟨q, hq, hstopping⟩ := stopping_from hregistered hproject hcan hlisting hfrom hkn
    exact hstopping.finished hregistered (hreturned.finished hq) _ ⟨h, hstored, hsource⟩
  · intro k n input g h pending aborted hmove hat hopen hkn
    have haborted := storedState_abortStep hregistered hproject hcan (hrowsAt k).2 hmove hat hopen
    exact agentAt_storedState hkn haborted rfl
  · intro k n input id state hmove hkn hbefore hopen hafter hreturned
    cases hc : (agentAt config home moves k).calls[i]? with
    | none =>
      -- the call is not there yet, and nothing happens
      have hnone : (agentAt config home moves (k + 1)).state =
          (agentAt config home moves k).state := by
        have hk : k < moves.length := (List.getElem?_eq_some_iff.mp hmove).1
        rw [agentAt, Pool.after_succ hk, (List.getElem?_eq_some_iff.mp hmove).2, Pool.step, hc]
      rw [hnone, hbefore] at hafter
      cases hafter
      cases hopen
    | some c =>
      obtain ⟨q, hq, hstopping⟩ := hstage hc
      exact announced_of_aborts hregistered hproject hcan hmove hq hstopping hbefore hopen
        hafter hkn hreturned
  · intro n n' id h hstored hsource hreturned hnn' hcommitted
    obtain ⟨state, hstate, hterminal⟩ := hstopped n hreturned id h hstored hsource
    have hlater := agentAt_storedState hnn' hstate hterminal
    cases hlater.symm.trans hcommitted
    exact hstate

end

/-! ## An edit on two handoffs, alone and beside a commit -/

def demoEdit : EditorEventRecordParams where
  project := some "project-1"
  workspacePath := none
  eventKind := .textDocumentChanged
  meaningfulEdit := true

/-- Two leases of the first device are being handed over to the second. -/
def twoHandoffs : MetadataDb :=
  let lease (leaseId handoffId : String) : LeaseRow := {
    leaseId := leaseId
    projectId := "project-1"
    sessionId := some "session-1"
    state := "handoff-pending"
    epoch := 7
    holderDeviceId := some "device-a"
    latestSnapshotId := none
    handoffId := some handoffId }
  let handoff (leaseId handoffId : String) : HandoffRow :=
    handoffRowOf {
      handoffId := handoffId
      leaseId := leaseId
      projectId := "project-1"
      expectedEpoch := 7
      sourceDeviceId := "device-a"
      targetDeviceId := "device-b"
      sourceGeneration := "gen-1"
      expiresAtUnixSeconds := 500
      state := .sourceReady } 100
  { demoStore with
    leases := ⟨[lease "lease-1" "ho_1", lease "lease-2" "ho_2"], by decide⟩
    handoffs := ⟨[handoff "lease-1" "ho_1", handoff "lease-2" "ho_2"], by decide⟩ }

def twoHandoffsHome : AgentWorld := demoHomeWith twoHandoffs

theorem twoHandoffsHome_ownRows : OwnRows twoHandoffsHome :=
  demoHomeWith_ownRows twoHandoffs (by decide) (by decide)

theorem twoHandoffsHome_knownProjects : KnownProjects twoHandoffsHome :=
  demoHomeWith_knownProjects twoHandoffs (by decide) (by decide)

/-- An edit on the source. -/
def editRun : List (Move AgentCall AgentInput) := demoCall 0 (.editorEvent demoEdit) 8 110

/-- One edit stops both handoffs. -/
theorem edit_stops_source_handoffs_both :
    EditStops demoConfig "project-1" demoEdit twoHandoffsHome editRun 0
        (agentAt demoConfig twoHandoffsHome editRun 0).calls.length ∧
      ∀ id ∈ ["ho_1", "ho_2"], storedState "project-1" id
        (agentAt demoConfig twoHandoffsHome editRun 9).state = some .aborted := by
  have hlength : ∀ {n : Nat} {move}, editRun[n]? = some move → n < 9 := fun h =>
    (List.getElem?_eq_some_iff.mp h).1
  -- nothing is committed in the run
  have hrows : ∀ n < 9, ∀ row ∈ ((agentAt demoConfig twoHandoffsHome editRun n).state.projectDb
      "project-1").handoffs.rows, HandoffState.parse row.state ≠ .committed := by decide
  have hnumbers : ∀ n < 9, (agentAt demoConfig twoHandoffsHome editRun
      n).state.events.inner.nextSequence.toNat + 1 < 2 ^ 64 := by decide
  refine ⟨edit_stops_source_handoffs demoConfig "project-1" demoEdit (fun _ => none)
    twoHandoffsHome editRun 0 twoHandoffsHome_ownRows twoHandoffsHome_knownProjects (by decide)
    (by decide) (by decide) (by rfl) ?_, by decide⟩
  intro n input stage hmove hat
  have hn := hlength hmove
  obtain ⟨-, rfl⟩ := advance_mem_demoCall (List.mem_of_getElem? hmove)
  refine ⟨rfl, fun _ => ⟨rfl, rfl, rfl, fun reason => ⟨_, rfl⟩⟩,
    fun g h pending aborted _ _ hcommitted => ?_, fun _ _ _ _ _ _ _ => hnumbers n hn⟩
  obtain ⟨r, hstored, hstate⟩ := Option.map_eq_some_iff.mp hcommitted
  obtain ⟨row, hrow, rfl⟩ := Option.map_eq_some_iff.mp hstored
  exact hrows n hn row (Table.mem_of_lookup hrow) hstate

/-- The edit has listed both handoffs when the first one is committed; the second one is
committed after the edit has returned. -/
def overtakenRun : List (Move AgentCall AgentInput) :=
  demoCall 0 (.editorEvent demoEdit) 3 110 ++
    demoCall 1 (.ipc (.commit ⟨"project-1", "ho_1", "gen-1"⟩ 120)) 6 120 ++
    [.advance 0 (demoInput 130)] ++
    demoCall 2 (.ipc (.commit ⟨"project-1", "ho_2", "gen-1"⟩ 140)) 6 140

/-- The edit ends at the handoff that is committed meanwhile, and leaves the next one open. -/
theorem not_editStops_overtaken :
    ¬∀ (config : AgentConfig) (project : String) (params : EditorEventRecordParams)
      (canonicalize : String → Option String) (home : AgentWorld)
      (moves : List (Move AgentCall AgentInput)) (m : Nat),
      OwnRows home → KnownProjects home → project ∈ config.projects →
        params.incrementsGeneration = true →
          params.editedProject config canonicalize = some project →
            moves[m]? = some (.arrive (.editorEvent params)) →
              EditStops config project params home moves m
                (agentAt config home moves m).calls.length := by
  intro hclaim
  obtain ⟨-, -, -, -, hnever⟩ := hclaim demoConfig "project-1" demoEdit (fun _ => none)
    twoHandoffsHome overtakenRun 0 twoHandoffsHome_ownRows twoHandoffsHome_knownProjects
    (by decide) (by decide) (by decide) rfl
  have hreturned : ((agentAt demoConfig twoHandoffsHome overtakenRun 12).calls[0]?).any
      (fun c => c.2.finished) = true := by decide
  have hbefore : (twoHandoffs.getHandoff "ho_2").map HandoffRecord.sourceDeviceId =
      some "device-a" := by decide
  have hopen : storedState "project-1" "ho_2"
      (agentAt demoConfig twoHandoffsHome overtakenRun 12).state = some .sourceReady := by
    decide
  have hcommitted : storedState "project-1" "ho_2"
      (agentAt demoConfig twoHandoffsHome overtakenRun 19).state = some .committed := by
    decide
  obtain ⟨h, hh, hsource⟩ := Option.map_eq_some_iff.mp hbefore
  obtain ⟨c, hc, hfinished⟩ := (Option.any_eq_true _ _).mp hreturned
  have hstill := hnever 12 19 "ho_2" h hh hsource ⟨c, hc, hfinished⟩ (by omega) hcommitted
  rw [hopen] at hstill
  cases hstill

end DevRelay.Agent
