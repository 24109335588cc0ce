import DevRelay.Agent.HandoffMirroring

/-!
# Runs whose events mirror the handoffs

The handler of editor events lists the pending handoffs, and then aborts and
publishes one after the other; with it every handler reads, changes and publishes
as `HandoffMirroring` says, and the events of a handoff follow its state.
-/

namespace DevRelay.Agent

open DevRelay.Lib DevRelay.Core DevRelay.Storage DevRelay.Remote

section

variable {config : AgentConfig} {project handoffId : String} {call : AgentCall}
  {q : String} {w : AgentWorld}

/-! ## Editor events -/

/-- The listed handoffs are still in the state that was listed. -/
def Listed (config : AgentConfig) (project handoffId : String) (call : AgentCall)
    (q : String) (pending : List HandoffRecord) (w : AgentWorld) : Prop :=
  (pending.map HandoffRecord.handoffId).Nodup ∧
    ∀ h ∈ pending, IsHandoff project handoffId q h.handoffId →
      storedState project handoffId w = some h.state ∧
        call.Concerns config project handoffId w

theorem tells_abortPendingHandoffs {pending aborted : List HandoffRecord}
    (hlisted : Listed config project handoffId call q pending w) :
    Tells config project handoffId call (fun _ m _ => m = .quiet) .quiet
      (abortPendingHandoffs q pending aborted) w := by
  induction pending generalizing aborted w with
  | nil => exact Thread.leaves_pure rfl
  | cons h pending ih =>
    obtain ⟨hnodup, hstates⟩ := hlisted
    rw [List.map_cons, List.nodup_cons] at hnodup
    have hnoted : Noted config project handoffId call q h.handoffId (some h.state) .quiet
        w :=
      ⟨fun his => Or.inl ⟨rfl, hstates h List.mem_cons_self his⟩, fun _ => rfl⟩
    rw [abortPendingHandoffs]
    apply Thread.Reports.andThen
      (tells_transaction (fun env db => abortHandoffAt_outcome env _ _ db) hnoted)
    rintro next m t ⟨htold, hframe⟩
    apply Thread.Reports.andThen (tells_publish htold)
    rintro _ _ u ⟨rfl, hremembers⟩
    apply ih
    refine ⟨hnodup.2, fun g hg his => ?_⟩
    -- another listed handoff was left alone meanwhile
    have hother : ¬IsHandoff project handoffId q h.handoffId := by
      intro hsame
      apply hnodup.1
      rw [hsame.2.trans his.2.symm]
      exact List.mem_map_of_mem hg
    obtain ⟨hstate, hconcerns⟩ := hstates g (List.mem_cons_of_mem h hg) his
    obtain ⟨hsame, hconcerns'⟩ := hframe hother hconcerns
    obtain ⟨hsame', hconcerns''⟩ := hremembers hconcerns'
    exact ⟨hsame'.trans (hsame.trans hstate), hconcerns''⟩

theorem listed_of_read {params : EditorEventRecordParams}
    (hincrements : params.incrementsGeneration = true)
    (hproject : ∀ p ∈ params.project, trim p = q) (w : AgentWorld) :
    Listed config project handoffId (.editorEvent params) q
      ((listHandoffs q (w.projectDb q)).filter (pendingFrom config.deviceId)) w := by
  constructor
  · exact (nodup_listHandoffs q _).sublist (List.filter_sublist.map _)
  · intro h hh his
    rw [List.mem_filter] at hh
    obtain ⟨hlisted, hpending⟩ := hh
    obtain ⟨rfl, rfl⟩ := his
    obtain ⟨hstored, -⟩ := mem_listHandoffs.mp hlisted
    simp only [pendingFrom, Bool.and_eq_true, decide_eq_true_eq] at hpending
    refine ⟨?_, ⟨hincrements, hproject⟩, h, hstored, hpending.2⟩
    rw [storedState, hstored]
    rfl

theorem tells_resolve (params : EditorEventRecordParams) :
    Tells config project handoffId call (fun resolved m _ => m = .quiet ∧
      ∀ q ∈ resolved, ∀ p ∈ params.project, trim p = q) .quiet
      (resolveEditorEventProject config params) w := by
  unfold resolveEditorEventProject
  split
  · rename_i hraw
    apply Thread.leaves_check
    intro _ _
    apply Thread.leaves_check
    intro _ _
    apply Thread.leaves_pure
    refine ⟨rfl, fun q hq p hp => ?_⟩
    cases hq
    rw [hraw] at hp
    cases hp
    rfl
  · exact Thread.leaves_pure ⟨rfl, fun _ hq => nomatch hq⟩
  · rename_i hnone _
    have hvacuous : ∀ q : String, ∀ p ∈ params.project, trim p = q := by
      intro q p hp
      rw [hnone] at hp
      cases hp
    split
    · exact Thread.leaves_pure ⟨rfl, fun q _ => hvacuous q⟩
    · exact Thread.leaves_observe fun _ _ _ _ _ _ _ => ⟨rfl, fun q _ => hvacuous q⟩

theorem tells_handleEditorEventRecord (params : EditorEventRecordParams) :
    Tells config project handoffId (.editorEvent params) (fun _ m _ => m = .quiet) .quiet
      (handleEditorEventRecord config params) w := by
  apply Thread.Reports.andThen (tells_resolve params)
  rintro resolved _ t ⟨rfl, hresolved⟩
  apply Thread.Reports.andThen (K := fun _ m _ => m = .quiet)
  · apply Thread.reports_atomically
    intro u _ _ _ input _
    exact ⟨.quiet, .idle _ rfl rfl, rfl⟩
  · rintro generation _ u rfl
    apply Thread.Reports.andThen (K := fun _ m _ => m = .quiet)
    · split
      · rename_i hincrements
        cases resolved with
        | none => exact Thread.leaves_pure rfl
        | some q =>
          apply Thread.Reports.andThen (tells_open _ _ _)
          rintro _ _ v rfl
          apply Thread.Reports.andThen (K := fun handoffs m x => m = .quiet ∧
            handoffs = listHandoffs q (x.projectDb q))
          · exact tells_read fun _ _ _ => ⟨rfl, rfl⟩
          · rintro _ _ x ⟨rfl, rfl⟩
            exact tells_abortPendingHandoffs
              (listed_of_read hincrements (hresolved q rfl) x)
      · exact Thread.leaves_pure rfl
    · rintro _ _ _ rfl
      exact Thread.leaves_pure rfl

/-! ## Every call -/

/-- The reply of a handler, named. -/
theorem tells_map {α : Type} {p : AgentThread α} (f : α → AgentReply)
    (hp : Tells config project handoffId call (fun _ m _ => m = .quiet) .quiet p w) :
    Tells config project handoffId call (fun _ m _ => m = .quiet) .quiet (f <$> p) w :=
  hp.andThen fun _ _ _ hquiet => Thread.leaves_pure hquiet

theorem tells_ipc (method : HandoffMethod) :
    Tells config project handoffId (.ipc method) (fun _ m _ => m = .quiet) .quiet
      (ipcProgram config method) w := by
  cases method with
  | begin params => exact tells_map _ (tells_handleHandoffBegin rfl)
  | targetVerify params =>
    apply tells_map
    exact tells_handleHandoffMutation (fun his => concerns_of_named rfl rfl his)
      (onHandoff_transaction markHandoffTargetVerified_outcome)
  | sourceReady params =>
    apply tells_map
    exact tells_handleHandoffMutation (fun his => concerns_of_named rfl rfl his)
      (onHandoff_transaction markHandoffSourceReady_outcome)
  | commit params now =>
    apply tells_map
    exact tells_handleHandoffMutation (fun his => concerns_of_named rfl rfl his)
      (onHandoff_commit rfl)
  | abort params =>
    apply tells_map
    exact tells_handleHandoffMutation (fun his => concerns_of_named rfl rfl his)
      (onHandoff_transaction abortHandoff_outcome)
  | recover params now => exact tells_map _ (tells_handleHandoffRecover rfl)

theorem tells_dispatch (actor : String) (method : HandoffMethod) :
    Tells config project handoffId (.remote actor method) (fun _ m _ => m = .quiet) .quiet
      (dispatchRemoteRequest config actor method) w := by
  cases method with
  | begin params => exact tells_map _ (tells_handleRemoteHandoffBegin rfl)
  | targetVerify params =>
    apply tells_map
    exact tells_handleRemoteHandoffMutation (fun his => concerns_of_named rfl rfl his)
      (onHandoff_checked
        (onHandoff_journal (onHandoff_transaction markHandoffTargetVerified_outcome)))
  | sourceReady params =>
    apply tells_map
    exact tells_handleRemoteHandoffMutation (fun his => concerns_of_named rfl rfl his)
      (onHandoff_checked
        (onHandoff_journal (onHandoff_transaction markHandoffSourceReady_outcome)))
  | commit params now =>
    apply tells_map
    exact tells_handleRemoteHandoffMutation (fun his => concerns_of_named rfl rfl his)
      (onHandoff_checked (onHandoff_journal (onHandoff_commit rfl)))
  | abort params =>
    apply tells_map
    exact tells_handleRemoteHandoffMutation (fun his => concerns_of_named rfl rfl his)
      (onHandoff_checked (onHandoff_journal (onHandoff_transaction abortHandoff_outcome)))
  | recover params now => exact tells_map _ (tells_handleRemoteHandoffRecover rfl actor)

theorem tells_program (call : AgentCall) (w : AgentWorld) :
    Tells config project handoffId call (fun _ m _ => m = .quiet) .quiet
      (call.program config) w := by
  cases call with
  | ipc method => exact tells_ipc method
  | remote actor method =>
    apply Thread.Reports.andThen (K := fun _ m _ => m = .quiet)
    · apply Thread.Reports.andThen (K := fun _ m _ => m = .quiet)
      · exact Thread.leaves_observe fun _ _ _ _ _ _ _ => rfl
      · rintro _ _ t rfl
        exact Thread.leaves_observe fun _ _ _ _ _ _ _ => rfl
    · rintro _ _ t rfl
      exact tells_dispatch actor method
  | editorEvent params => exact tells_map _ (tells_handleEditorEventRecord params)

end

/-! ## The events of a handoff -/

/-- The events of the handoff start with no previous state, each goes on from the
one before, and when no call is in progress the last one has the stored state. -/
def EventsMirror (project handoffId : String)
    (pool : Pool AgentCall AgentInput AgentWorld RpcError AgentReply) : Prop :=
  Chained (handoffEvents project handoffId pool.state) ∧
    ((∀ c ∈ pool.calls, c.2.finished = true) →
      (handoffAnnounced project handoffId).InSync pool.state)

/-- The events of a handoff that is begun in the run mirror its state, when no call
changes the handoff while another call that is about it is in progress, every step
finds what it needs to publish, and no commit is rejected. -/
theorem handoff_events_mirror_states (config : AgentConfig) (project handoffId : String)
    (home : AgentWorld) (moves : List (Move AgentCall AgentInput)) (hrows : OwnRows home)
    (hlog : handoffEvents project handoffId home = [])
    (hnew : storedState project handoffId home = none)
    (hallowed : Pool.Allowed (handoffReporting config project handoffId)
      (AgentCall.program config) home moves)
    (hundisturbed : Pool.Undisturbed (handoffReporting config project handoffId)
      (AgentCall.program config) home moves) (n : Nat) :
    EventsMirror project handoffId (Pool.after (AgentCall.program config) home moves n) := by
  have hsteps : Pool.EveryStep (AgentCall.program config) home moves fun _ w w' =>
      FrozenHome w w' ∧ (OwnRows w → OwnRows w') := by
    intro k hk
    obtain ⟨hcall, hnone⟩ := handlers_everyStep config home moves k hk
    exact ⟨fun call hcaller =>
      ⟨(hcall call hcaller).frozenHome, (hcall call hcaller).ownRows⟩, hnone⟩
  have hreported := Pool.reported_after (D := handoffReporting config project handoffId)
    hrows hlog hnew (fun call w _ => (tells_program call w).settles) hsteps hallowed
    hundisturbed n
  exact ⟨hreported.chained, hreported.inSync⟩

/-! ## A handover, and a rejected commit -/

/-- The demo home with another store of its project. -/
def demoHomeWith (db : MetadataDb) : AgentWorld :=
  { demoHome with projectDb := Function.update (fun _ => emptyStore) "project-1" db }

theorem demoHomeWith_emptyStore (db : MetadataDb) {project : String} (h : project ≠ "project-1") :
    (demoHomeWith db).projectDb project = emptyStore := by
  show Function.update (fun _ => emptyStore) "project-1" db project = emptyStore
  rw [Function.update_of_ne h]

theorem demoHomeWith_ownRows (db : MetadataDb)
    (hhandoffs : ∀ row ∈ db.handoffs.rows, row.projectId = "project-1")
    (hleases : ∀ row ∈ db.leases.rows, row.projectId = "project-1") :
    OwnRows (demoHomeWith db) where
  leases project id l hl := by
    by_cases hproject : project = "project-1"
    · subst hproject
      obtain ⟨row, hrow, rfl⟩ := Option.map_eq_some_iff.mp hl
      exact hleases row (Table.mem_of_lookup hrow)
    · rw [demoHomeWith_emptyStore db hproject] at hl
      cases hl
  handoffs project id h hh := by
    by_cases hproject : project = "project-1"
    · subst hproject
      obtain ⟨row, hrow, rfl⟩ := Option.map_eq_some_iff.mp hh
      exact hhandoffs row (Table.mem_of_lookup hrow)
    · rw [demoHomeWith_emptyStore db hproject] at hh
      cases hh
  numbered := show demoHome.events.inner.nextSequence ≠ 0 by decide

theorem demoHomeWith_knownProjects (db : MetadataDb)
    (hhandoffs : ∀ row ∈ db.handoffs.rows, row.projectId = "project-1")
    (hproject : (db.projects.lookup "project-1").isSome) :
    KnownProjects (demoHomeWith db) := by
  intro project id h hh
  by_cases heq : project = "project-1"
  · subst heq
    obtain ⟨row, hrow, rfl⟩ := Option.map_eq_some_iff.mp hh
    have hown : (handoffRecordFromRow row).projectId = "project-1" :=
      hhandoffs row (Table.mem_of_lookup hrow)
    rw [hown]
    exact hproject
  · rw [demoHomeWith_emptyStore db heq] at hh
    cases hh

theorem demoHome_ownRows : OwnRows demoHome :=
  demoHomeWith_ownRows demoStore (by decide) (by decide)

/-- What a move of the run of one call is. -/
theorem advance_mem_demoCall {call : AgentCall} {steps i j : Nat} {now : UInt64}
    {input : AgentInput} (h : Move.advance i input ∈ demoCall j call steps now) :
    i = j ∧ input = demoInput now := by
  rcases List.mem_cons.mp h with h | h
  · cases h
  · cases (List.mem_replicate.mp h).2
    exact ⟨rfl, rfl⟩

/-- The run of one begin. -/
def beginRun : List (Move AgentCall AgentInput) := demoCall 0 demoBegin 7 100

/-- The calls of a handover: the target verifies over its own connection. -/
def handoverCalls : List AgentCall := [
  demoBegin,
  .remote "device-b" (.targetVerify ⟨"project-1", "ho_1"⟩),
  .ipc (.sourceReady ⟨"project-1", "ho_1"⟩),
  .ipc (.commit ⟨"project-1", "ho_1", "gen-1"⟩ 130)]

/-- The four calls, one after the other. -/
def handoverRun : List (Move AgentCall AgentInput) :=
  handoverCalls.zipIdx.flatMap fun call => demoCall call.2 call.1 9 (100 + 10 * UInt64.ofNat call.2)

abbrev handoverAt (n : Nat) : Pool AgentCall AgentInput AgentWorld RpcError AgentReply :=
  Pool.after (AgentCall.program demoConfig) demoHome handoverRun n

theorem advance_mem_handoverRun {i : Nat} {input : AgentInput}
    (h : Move.advance i input ∈ handoverRun) : ∃ now, input = demoInput now := by
  obtain ⟨call, -, hmem⟩ := List.mem_flatMap.mp h
  exact ⟨_, (advance_mem_demoCall hmem).2⟩

/-- Every call is finished but the one that moves. -/
def othersFinished (n : Nat) : Bool :=
  match handoverRun[n]? with
  | some (.advance i _) => (handoverAt n).calls.zipIdx.all fun c => c.1.2.finished || c.2 == i
  | _ => true

theorem handover_alone {n i j : Nat} {input : AgentInput}
    {c : AgentCall × Thread AgentInput AgentWorld RpcError AgentReply}
    (hmove : handoverRun[n]? = some (.advance i input))
    (hc : (handoverAt n).calls[j]? = some c) (hfinished : c.2.finished = false) : j = i := by
  have halone : ∀ n < 40, othersFinished n = true := by decide
  have hchecked := halone n (List.getElem?_eq_some_iff.mp hmove).1
  rw [othersFinished, hmove] at hchecked
  have hmem : (c, j) ∈ (handoverAt n).calls.zipIdx := List.mk_mem_zipIdx_iff_getElem?.mpr hc
  have hcall := List.all_eq_true.mp hchecked _ hmem
  rw [hfinished] at hcall
  simpa using hcall

theorem handover_accepts {n : Nat} {c : AgentCall × Thread AgentInput AgentWorld RpcError
      AgentReply}
    {h : HandoffRecord} (hn : n < 40) (hc : c ∈ (handoverAt n).calls)
    (hstored : ((handoverAt n).state.projectDb "project-1").getHandoff "ho_1" = some h) :
    c.1.Accepts h := by
  have hcalls : ∀ n < 40, (handoverAt n).calls.map Prod.fst <+: handoverCalls := by decide
  have haccepted : ∀ n < 40, ∀ row ∈ ((handoverAt n).state.projectDb "project-1").handoffs.rows,
      commitAbortReason (handoffRecordFromRow row) "gen-1" 130 = none := by decide
  have hmem : c.1 ∈ handoverCalls := (hcalls n hn).subset (List.mem_map_of_mem hc)
  simp only [handoverCalls, List.mem_cons, List.not_mem_nil, or_false] at hmem
  rcases hmem with hcall | hcall | hcall | hcall
  · rw [hcall]
    trivial
  · rw [hcall]
    trivial
  · rw [hcall]
    trivial
  · obtain ⟨row, hrow, rfl⟩ := Option.map_eq_some_iff.mp hstored
    rw [hcall]
    exact haccepted n hn row (Table.mem_of_lookup hrow)

/-- The lease is handed over, and the events tell it. -/
theorem handoff_events_mirror_states_handover :
    EventsMirror "project-1" "ho_1" (handoverAt 40) ∧
      storedState "project-1" "ho_1" (handoverAt 40).state = some .committed := by
  have hnumbers : ∀ n < 40, (handoverAt n).state.events.inner.nextSequence.toNat + 1 < 2 ^ 64 := by
    decide
  refine ⟨handoff_events_mirror_states demoConfig "project-1" "ho_1" demoHome handoverRun
    demoHome_ownRows (by decide) (by decide) ?_ ?_ 40, by decide⟩
  · intro n i input hmove c hc _
    have hn : n < 40 := (List.getElem?_eq_some_iff.mp hmove).1
    obtain ⟨now, rfl⟩ := advance_mem_handoverRun (List.mem_of_getElem? hmove)
    exact ⟨hnumbers n hn, fun _ _ => rfl, fun _ h hstored _ =>
      handover_accepts hn (List.mem_of_getElem? hc) hstored⟩
  · intro n i input hmove j c hj hc hfinished
    exact absurd (handover_alone hmove hc hfinished) hj

/-- A handoff up to a commit that names another generation of the source. -/
def rejectedRun : List (Move AgentCall AgentInput) :=
  beginRun ++
    demoCall 1 (.ipc (.targetVerify ⟨"project-1", "ho_1"⟩)) 5 110 ++
    demoCall 2 (.ipc (.sourceReady ⟨"project-1", "ho_1"⟩)) 5 120 ++
    demoCall 3 (.ipc (.commit ⟨"project-1", "ho_1", "gen-2"⟩ 130)) 3 130

/-- The rejected commit aborts the handoff and publishes nothing. -/
theorem not_eventsMirror_rejected :
    ¬∀ (config : AgentConfig) (project handoffId : String) (home : AgentWorld)
      (moves : List (Move AgentCall AgentInput)),
      OwnRows home → home.events = .start → storedState project handoffId home = none →
        ∀ n, EventsMirror project handoffId
          (Pool.after (AgentCall.program config) home moves n) := by
  intro hclaim
  obtain ⟨-, hidle⟩ := hclaim demoConfig "project-1" "ho_1" demoHome rejectedRun
    demoHome_ownRows rfl (by decide) 24
  have hfinished : (Pool.after (AgentCall.program demoConfig) demoHome rejectedRun
      24).calls.all (fun c => c.2.finished) = true := by decide
  have hlast : (handoffAnnounced "project-1" "ho_1").last
      (Pool.after (AgentCall.program demoConfig) demoHome rejectedRun 24).state =
        some .sourceReady := by decide
  have hstored : (handoffAnnounced "project-1" "ho_1").value
      (Pool.after (AgentCall.program demoConfig) demoHome rejectedRun 24).state =
        some .aborted := by decide
  have hsync := hidle fun c hc => List.all_eq_true.mp hfinished c hc
  rw [Announced.InSync, hlast, hstored] at hsync
  cases hsync

end DevRelay.Agent
