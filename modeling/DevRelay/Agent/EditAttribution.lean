import DevRelay.Agent.StoppedRuns
import DevRelay.Core.ProjectRegistry
import DevRelay.Editor.EditGuard

/-!
# The project of an edit

The extension names the first open folder and the agent looks that folder up by
its path, so the project of an edit is the project of the first folder: the
document has no part in it.
-/

namespace DevRelay.Agent

open DevRelay.Lib DevRelay.Core DevRelay.Storage DevRelay.Remote DevRelay.Editor

/-! ## The handler on its own -/

/-- The source generation of a project. -/
def AgentWorld.generation (w : AgentWorld) (projectId : String) : UInt64 :=
  w.editorSourceGenerations (editorSourceGenerationKey (some projectId) none)

section

variable {config : AgentConfig} {project : String} {params : EditorEventRecordParams}
  {inputs : Nat → AgentInput} {w : AgentWorld}

theorem sourceGenerationKey_inj {path : Option String} {resolved : Option String}
    (h : editorSourceGenerationKey resolved path = editorSourceGenerationKey (some project) none) :
    resolved = some project := by
  have hlists := congrArg String.toList h
  cases resolved with
  | some other =>
    simp only [editorSourceGenerationKey, String.toList_append] at hlists
    have hnames := List.append_cancel_left hlists
    rw [String.toList_inj.mp hnames]
  | none =>
    cases path with
    | some path =>
      simp only [editorSourceGenerationKey, String.toList_append] at hlists
      have hhead : 'w' = 'p' := (List.cons.inj hlists).1
      exact absurd hhead (by decide)
    | none =>
      simp only [editorSourceGenerationKey, String.toList_append] at hlists
      have hhead : 'w' = 'p' := (List.cons.inj hlists).1
      exact absurd hhead (by decide)

/-- The handler goes on with the project that the path is resolved to. -/
theorem alone_resolved (config : AgentConfig) {canonicalize : String → Option String}
    (hpath : ∀ i, (inputs i).canonicalize = canonicalize) (hproject : params.project = none)
    (k : Option String → AgentThread EditorEventRecordResult) (n : Nat) :
    ∃ m, (resolveEditorEventProject config params >>= k).alone inputs n w =
      (k (params.editedProject config canonicalize)).alone inputs m w := by
  unfold resolveEditorEventProject EditorEventRecordParams.editedProject
  rw [hproject]
  cases params.workspacePath with
  | none => exact ⟨n, rfl⟩
  | some path =>
    simp only
    cases config.workspaceByPath path with
    | some found => exact ⟨n, rfl⟩
    | none =>
      refine ⟨n + 1, ?_⟩
      rw [← hpath n]
      exact Thread.alone_observe_bind_ok rfl k

/-- The loop leaves the counters alone. -/
theorem abortSourceHandoffs_keeps_generations (config : AgentConfig) (resolved : Option String) :
    (abortSourceHandoffsAfterEditorEdit config resolved).Acts
      fun s t => t.editorSourceGenerations = s.editorSourceGenerations := by
  have hproject : ∀ {α : Type} (name : String) (p : SqlThread α),
      (onProject name .ofDevRelay p).Acts
        fun s t => t.editorSourceGenerations = s.editorSourceGenerations := by
    intro α name p
    have htrivial : p.Acts fun _ _ => True := by
      induction p with
      | done a => trivial
      | fail e => trivial
      | atomic act next ih => exact fun i s => ⟨trivial, ih i s⟩
    exact htrivial.embed fun _ _ _ => rfl
  have hloop : ∀ (name : String) (pending aborted : List HandoffRecord),
      (abortPendingHandoffs name pending aborted).Acts
        fun s t => t.editorSourceGenerations = s.editorSourceGenerations := by
    intro name pending
    induction pending with
    | nil => exact fun aborted => Thread.acts_pure _
    | cons handoff pending ih =>
      intro aborted
      apply (hproject name _).bind
      intro next
      apply Thread.Acts.bind _ fun _ => ih _
      unfold publishHandoffStateChanged
      split
      · exact Thread.acts_pure _
      · apply Thread.acts_atomically
        intro input w
        split
        · rfl
        · rfl
  cases resolved with
  | none => exact Thread.acts_pure _
  | some name =>
    apply Thread.Acts.bind
    · exact (Thread.acts_ofExcept _).bind fun _ => Thread.acts_observe fun _ => rfl
    · intro _
      exact (hproject name _).bind fun _ => hloop name _ _

theorem alone_bumped (key : String) (k : UInt64 → AgentThread EditorEventRecordResult) (n : Nat) :
    (bumpSourceGeneration key true >>= k).alone inputs n w =
      (k (saturatingAdd (w.editorSourceGenerations key) 1)).alone inputs (n + 1)
        { w with
          editorSourceGenerations := Function.update w.editorSourceGenerations key
            (saturatingAdd (w.editorSourceGenerations key) 1) } :=
  rfl

/-- A meaningful edit is counted under the key of its project, and stops what is pending there. -/
theorem alone_edit (config : AgentConfig) {canonicalize : String → Option String}
    (hpath : ∀ i, (inputs i).canonicalize = canonicalize) (hproject : params.project = none)
    (hedit : params.incrementsGeneration = true) :
    let resolved := params.editedProject config canonicalize
    let key := editorSourceGenerationKey resolved params.workspacePath
    let generation := saturatingAdd (w.editorSourceGenerations key) 1
    ∃ m, (handleEditorEventRecord config params).alone inputs 0 w =
      (abortSourceHandoffsAfterEditorEdit config resolved >>= fun abortedHandoffs =>
        pure { project := resolved, sourceGeneration := generation, abortedHandoffs }).alone
          inputs (m + 1) { w with
            editorSourceGenerations :=
              Function.update w.editorSourceGenerations key generation } := by
  intro resolved key generation
  rw [handleEditorEventRecord]
  obtain ⟨m, hm⟩ := alone_resolved config (w := w) hpath hproject
    (fun project => do
      let sourceGeneration ← bumpSourceGeneration
        (editorSourceGenerationKey project params.workspacePath) params.incrementsGeneration
      let abortedHandoffs ←
        (if params.incrementsGeneration then
          abortSourceHandoffsAfterEditorEdit config project
        else
          pure [])
      pure { project, sourceGeneration, abortedHandoffs }) 0
  rw [hm, hedit, alone_bumped]
  exact ⟨m, rfl⟩

/-- A meaningful edit counts under the key of what its path is resolved to, and under no
other key. -/
theorem generations_after {canonicalize : String → Option String}
    (hpath : ∀ i, (inputs i).canonicalize = canonicalize) (hproject : params.project = none)
    (hedit : params.incrementsGeneration = true) :
    ((handleEditorEventRecord config params).alone inputs 0 w).2.editorSourceGenerations =
      let key := editorSourceGenerationKey (params.editedProject config canonicalize)
        params.workspacePath
      Function.update w.editorSourceGenerations key
        (saturatingAdd (w.editorSourceGenerations key) 1) := by
  obtain ⟨m, hm⟩ := alone_edit config (w := w) hpath hproject hedit
  rw [hm]
  generalize params.editedProject config canonicalize = resolved
  have hrest := Thread.Acts.alone
    (G := fun s t : AgentWorld => t.editorSourceGenerations = s.editorSourceGenerations)
    ((abortSourceHandoffs_keeps_generations config resolved).bind
      (f := fun abortedHandoffs => (pure
        { project := resolved
          sourceGeneration := saturatingAdd (w.editorSourceGenerations
            (editorSourceGenerationKey resolved params.workspacePath)) 1
          abortedHandoffs } : AgentThread EditorEventRecordResult))
      fun _ => Thread.acts_pure _)
    (fun _ => rfl) (fun h h' => h'.trans h) inputs (m + 1)
  exact hrest _

/-- The generation of a project goes up when the edit is resolved to it, and stays
otherwise. -/
theorem generation_after {canonicalize : String → Option String}
    (hpath : ∀ i, (inputs i).canonicalize = canonicalize) (hproject : params.project = none)
    (hedit : params.incrementsGeneration = true) (name : String) :
    ((handleEditorEventRecord config params).alone inputs 0 w).2.generation name =
      if params.editedProject config canonicalize = some name then
        saturatingAdd (w.generation name) 1
      else w.generation name := by
  rw [AgentWorld.generation, generations_after hpath hproject hedit]
  simp only
  by_cases hresolved : params.editedProject config canonicalize = some name
  · rw [if_pos hresolved, hresolved]
    exact Function.update_self ..
  · rw [if_neg hresolved]
    apply Function.update_of_ne
    intro hsame
    exact hresolved (sourceGenerationKey_inj hsame.symm)

/-! ## Pending handoffs -/

/-- What an abort that succeeds does to the home. -/
theorem abort_ok (config : AgentConfig) {input : AgentInput} {handoffId : String}
    {next : HandoffRecord}
    {db : MetadataDb} (hedit : params.incrementsGeneration = true)
    (h : abortHandoffWithReason input.env handoffId
      "source generation changed by editor event" (w.projectDb project) = (.ok next, db)) :
    CallEffect config (.editorEvent params) w (w.setProjectDb project db) ∧
      ∀ id, storedState project id (w.setProjectDb project db) =
        if id = handoffId then some .aborted else storedState project id w := by
  have hself := (storedState_of_aborted h).2.2.2
  rcases abortHandoffAt_moves input.env handoffId input.env.unixNowSeconds
      "source generation changed by editor event" (w.projectDb project) with
    ⟨e, heq⟩ | ⟨g, -, -, heq⟩ | ⟨g, t, hid, heq, hmoves, hrows⟩
  · cases heq.symm.trans h
  · cases heq.symm.trans h
    rw [AgentWorld.setProjectDb_self] at hself ⊢
    refine ⟨callEffect_refl w, fun id => ?_⟩
    split
    · rename_i heq
      rw [heq, hself]
    · rfl
  · cases heq.symm.trans h
    refine ⟨.transaction project _ rfl (.moved g .aborted none ⟨hedit, rfl⟩ hmoves hrows
      (Or.inl rfl)), fun id => ?_⟩
    split
    · rename_i heq
      rw [heq, hself]
    · rename_i hne
      apply (storedState_moves project id hmoves).2
      rintro ⟨-, hsame⟩
      exact hne (hsame.symm.trans hid)

/-- An event that has a number takes the next one. -/
theorem publish_next {events : EventStream AgentEventPayload} (now : UInt64)
    (event : HandoffStateChangedEvent) (hnumbered : events.inner.nextSequence ≠ 0)
    (hleft : events.inner.nextSequence.toNat + 1 < 2 ^ 64) :
    ∃ envelope, (events.publish now event.typedPayload).1 = .ok envelope ∧
      (events.publish now event.typedPayload).2.inner.nextSequence.toNat =
        events.inner.nextSequence.toNat + 1 := by
  have hnext : checkedAdd events.inner.nextSequence 1 =
      some (events.inner.nextSequence + 1) := checkedAdd_of_lt hleft
  have hsequence : EventSequence.new events.inner.nextSequence =
      some ⟨events.inner.nextSequence, hnumbered⟩ := dif_neg hnumbered
  have hvalue : (events.inner.nextSequence + 1).toNat = events.inner.nextSequence.toNat + 1 := by
    rw [UInt64.toNat_add, UInt64.toNat_one]
    omega
  unfold EventStream.publish
  rw [hsequence, hnext]
  exact ⟨_, rfl, hvalue⟩

/-- The state has a row, and can be aborted. -/
def Abortable (project : String) (h : HandoffRecord) (w : AgentWorld) : Prop :=
  ∃ state, (w.projectDb project).getHandoff h.handoffId = some { h with state := state } ∧
    state ≠ .committed

theorem Abortable.step {w' : AgentWorld} (hstep : ∃ call, CallEffect config call w w')
    {h : HandoffRecord} (hstates : storedState project h.handoffId w' = some .aborted ∨
      storedState project h.handoffId w' = storedState project h.handoffId w)
    (habortable : Abortable project h w) : Abortable project h w' := by
  obtain ⟨call, heffect⟩ := hstep
  obtain ⟨state, hstored, hcommitted⟩ := habortable
  obtain ⟨state', hstored'⟩ := (heffect.frozenHome project).handoffs _ _ hstored
  have hbefore : storedState project h.handoffId w = some state := by
    rw [storedState, hstored]
    rfl
  have hafter : storedState project h.handoffId w' = some state' := by
    rw [storedState, hstored']
    rfl
  refine ⟨state', hstored', ?_⟩
  rintro rfl
  rw [hafter, hbefore] at hstates
  rcases hstates with habsurd | hsame
  · cases habsurd
  · cases hsame
    exact hcommitted rfl

/-- One turn of the loop: the handoff is aborted and told, and the rest goes on from there. -/
theorem abortPending_cons (config : AgentConfig) (hedit : params.incrementsGeneration = true)
    (hworks : ∀ i, DatabaseWorks (inputs i)) {handoff : HandoffRecord}
    (pending aborted : List HandoffRecord) (n : Nat) (hrows : OwnRows w) (hknown : KnownProjects w)
    (hroom : w.events.inner.nextSequence.toNat + 1 < 2 ^ 64)
    (hopen : handoff.state.isTerminal = false) (habortable : Abortable project handoff w) :
    ∃ w', (abortPendingHandoffs project (handoff :: pending) aborted).alone inputs n w =
        (abortPendingHandoffs project pending
          (aborted ++ [{ handoff with state := .aborted }])).alone inputs (n + 2) w' ∧
      OwnRows w' ∧ KnownProjects w' ∧
      w'.events.inner.nextSequence.toNat = w.events.inner.nextSequence.toNat + 1 ∧
      (∀ id, storedState project id w' =
        if id = handoff.handoffId then some .aborted else storedState project id w) ∧
      ∀ h, Abortable project h w → Abortable project h w' := by
  obtain ⟨state, hstored, hcommitted⟩ := habortable
  obtain ⟨text, hjson⟩ := (hworks n).json "source generation changed by editor event"
  obtain ⟨db, habort⟩ := abortHandoffAt_stops (h := { handoff with state := state })
    (inputs n).env.unixNowSeconds (hworks n).runs hjson hstored
    (hknown project _ _ hstored) hcommitted
  have heffect : CallEffect config (.editorEvent params) w (w.setProjectDb project db) :=
    (abort_ok config hedit habort).1
  have hstates := (abort_ok config hedit habort).2
  have hfirst : ∀ k : HandoffRecord → AgentThread (List HandoffRecord),
      (onProject project .ofDevRelay (Thread.atomically fun env => abortHandoffWithReason env
        handoff.handoffId "source generation changed by editor event") >>= k).alone
          inputs n w = (k { handoff with state := .aborted }).alone inputs (n + 1)
          (w.setProjectDb project db) := by
    intro k
    rw [onProject, Thread.embed_atomically]
    apply Thread.alone_atomically_bind_ok
    simp only [abortHandoffWithReason]
    rw [habort]
    rfl
  -- the abort is told under the next number
  have hnumber : (w.setProjectDb project db).events = w.events := rfl
  obtain ⟨envelope, hpublish, hnext⟩ := publish_next (inputs (n + 1)).nowUnixMillis
    (HandoffStateChangedEvent.fromHandoff { handoff with state := .aborted }
      (some handoff.state)) hrows.numbered hroom
  generalize hpublished : w.events.publish (inputs (n + 1)).nowUnixMillis
    (HandoffStateChangedEvent.fromHandoff { handoff with state := .aborted }
      (some handoff.state)).typedPayload = published at hpublish hnext
  obtain ⟨answer, events⟩ := published
  simp only at hpublish hnext
  subst hpublish
  have hchange : ¬some handoff.state = some HandoffState.aborted := by
    intro heq
    rw [Option.some.inj heq] at hopen
    cases hopen
  have hsecond : ∀ k : Unit → AgentThread (List HandoffRecord),
      (publishHandoffStateChanged { handoff with state := .aborted } (some handoff.state) >>=
        k).alone inputs (n + 1) (w.setProjectDb project db) =
        (k ()).alone inputs (n + 2) { w.setProjectDb project db with events := events } := by
    intro k
    rw [publishHandoffStateChanged, if_neg hchange]
    apply Thread.alone_atomically_bind_ok
    simp only [hnumber]
    rw [hpublished]
  have htold : CallEffect config (.editorEvent params) (w.setProjectDb project db)
      { w.setProjectDb project db with events := events } := by
    apply CallEffect.published (inputs (n + 1)).nowUnixMillis
      (HandoffStateChangedEvent.fromHandoff { handoff with state := .aborted }
        (some handoff.state)).typedPayload
    rw [hnumber, hpublished]
  refine ⟨{ w.setProjectDb project db with events := events }, ?_,
    htold.ownRows (heffect.ownRows hrows), htold.knownProjects (heffect.knownProjects hknown),
    hnext, hstates, ?_⟩
  · rw [abortPendingHandoffs, hfirst, hsecond]
  · intro h habortable
    show Abortable project h (w.setProjectDb project db)
    apply habortable.step ⟨_, heffect⟩
    rw [hstates]
    split
    · exact Or.inl rfl
    · exact Or.inr rfl

/-- With a database that works, the loop aborts every handoff of its list. -/
theorem abortPending_alone (config : AgentConfig) (hedit : params.incrementsGeneration = true)
    (hworks : ∀ i, DatabaseWorks (inputs i)) (pending : List HandoffRecord) :
    ∀ (aborted : List HandoffRecord) (n : Nat) (w : AgentWorld), OwnRows w → KnownProjects w →
      w.events.inner.nextSequence.toNat + pending.length < 2 ^ 64 →
      (∀ h ∈ pending, h.state.isTerminal = false ∧ Abortable project h w) →
      ∃ result, ((abortPendingHandoffs project pending aborted).alone inputs n w).1 =
          .ok result ∧
        ∀ id, (storedState project id w = some .aborted ∨ ∃ h ∈ pending, h.handoffId = id) →
          storedState project id
            ((abortPendingHandoffs project pending aborted).alone inputs n w).2 =
              some .aborted := by
  induction pending with
  | nil =>
    intro aborted n w _ _ _ _
    refine ⟨aborted, rfl, fun id hid => ?_⟩
    rcases hid with hdone | ⟨h, hmem, -⟩
    · exact hdone
    · cases hmem
  | cons handoff pending ih =>
    intro aborted n w hrows hknown hroom hpending
    rw [List.length_cons] at hroom
    obtain ⟨hopen, habortable⟩ := hpending handoff List.mem_cons_self
    obtain ⟨w', hturn, hrows', hknown', hnext, hstates, hkept⟩ := abortPending_cons config hedit
      hworks pending aborted n hrows hknown (by omega) hopen habortable
    rw [hturn]
    obtain ⟨result, hresult, hlater⟩ := ih (aborted ++ [{ handoff with state := .aborted }])
      (n + 2) w' hrows' hknown' (by omega) fun h hmem =>
        (hpending h (List.mem_cons_of_mem _ hmem)).imp_right (hkept h)
    refine ⟨result, hresult, fun id hid => hlater id ?_⟩
    rw [hstates]
    rcases hid with hdone | ⟨h, hmem, hid⟩
    · left
      split
      · rfl
      · exact hdone
    · rcases List.mem_cons.mp hmem with rfl | hmem
      · left
        exact if_pos hid.symm
      · exact Or.inr ⟨h, hmem, hid⟩

/-- An edit of a registered project stops what is pending there, with a database that
works. -/
theorem alone_stops {canonicalize : String → Option String}
    (hpath : ∀ i, (inputs i).canonicalize = canonicalize) (hworks : ∀ i, DatabaseWorks (inputs i))
    (hproject : params.project = none) (hedit : params.incrementsGeneration = true)
    (hresolved : params.editedProject config canonicalize = some project)
    (hregistered : project ∈ config.projects) (hrows : OwnRows w) (hknown : KnownProjects w)
    (hroom : w.events.inner.nextSequence.toNat + (pendingHandoffs config project w).length <
      2 ^ 64) :
    ∃ reply, ((handleEditorEventRecord config params).alone inputs 0 w).1 = .ok reply ∧
      reply.project = some project ∧ ∀ h ∈ pendingHandoffs config project w,
        storedState project h.handoffId
          ((handleEditorEventRecord config params).alone inputs 0 w).2 = some .aborted := by
  obtain ⟨m, hm⟩ := alone_edit config (w := w) hpath hproject hedit
  rw [hm, hresolved]
  generalize hcounted : ({ w with
    editorSourceGenerations := Function.update w.editorSourceGenerations
      (editorSourceGenerationKey (some project) params.workspacePath)
      (saturatingAdd (w.editorSourceGenerations
        (editorSourceGenerationKey (some project) params.workspacePath)) 1) } : AgentWorld) = v
  have hcount : CallEffect config (.editorEvent params) w v := .counted _ hcounted.symm
  have hpending : pendingHandoffs config project v = pendingHandoffs config project w := by
    rw [← hcounted]
    rfl
  have hnumber : v.events = w.events := by
    rw [← hcounted]
  generalize saturatingAdd (w.editorSourceGenerations
    (editorSourceGenerationKey (some project) params.workspacePath)) 1 = generation
  -- the database is opened and read
  have hopens : ∀ k : List HandoffRecord → AgentThread EditorEventRecordResult,
      (abortSourceHandoffsAfterEditorEdit config (some project) >>= k).alone inputs (m + 1) v =
        (abortPendingHandoffs project (pendingHandoffs config project v) [] >>= k).alone inputs
          (m + 3) v := by
    intro k
    have hopen : openRegisteredProjectDb config .internal project =
        openDb fun e => RpcError.internal (.devRelay e) := by
      rw [openRegisteredProjectDb, require_eq_ok.mpr (decide_eq_true hregistered)]
      rfl
    rw [abortSourceHandoffsAfterEditorEdit, hopen, openDb, Thread.bind_assoc,
      Thread.alone_observe_bind_ok (by rw [(hworks (m + 1)).opens]), Thread.bind_assoc, readStep,
      onProject_observe]
    apply Thread.alone_observe_bind_ok
    rw [(hworks (m + 2)).reads]
    rfl
  rw [hopens]
  obtain ⟨result, hresult, hstopped⟩ := abortPending_alone config hedit hworks
    (pendingHandoffs config project v) [] (m + 3) v (hcount.ownRows hrows)
    (hcount.knownProjects hknown) (by rw [hpending, hnumber]; exact hroom) (by
      intro h hmem
      obtain ⟨hstored, hopen, -⟩ := mem_pendingHandoffs hmem
      refine ⟨hopen, h.state, hstored, ?_⟩
      intro hcommitted
      rw [hcommitted] at hopen
      cases hopen)
  rw [hpending] at hresult hstopped ⊢
  have hend := Thread.alone_bind_pure (abortPendingHandoffs project
    (pendingHandoffs config project w) []) (fun abortedHandoffs =>
      ({ project := some project, sourceGeneration := generation, abortedHandoffs } :
        EditorEventRecordResult)) inputs (m + 3) v
  rw [hend, hresult]
  exact ⟨_, rfl, rfl, fun h hmem => hstopped _ (Or.inr ⟨h, hmem, rfl⟩)⟩

end

/-! ## Documents and open folders -/

section

variable (registry : ProjectRegistryIndex) (deviceId : String)
  (canonicalize : String → Option String)

/-- What the handlers see of the configuration. -/
def registryConfig : AgentConfig where
  deviceId := deviceId
  projects := registry.projects.keys
  workspaceByPath path := (registry.workspaceByPath path).map fun found => found.1.projectId

/-- The document is a file at or below the directory, by the canonical paths of both. -/
def LiesIn (document : MinimalDocument) (root : String) : Prop :=
  document.uri.scheme = "file" ∧ ∃ path documentPath rootPath,
    document.uri.fsPath = some path ∧ canonicalize path = some documentPath ∧
      canonicalize root = some rootPath ∧ components rootPath <+: components documentPath

/-- The document lies in this registered workspace and in no other. -/
structure OnlyIn (document : MinimalDocument) (project : ProjectRegistryEntry)
    (workspace : WorkspaceRegistryEntry) : Prop where
  registers : registry.Registers project workspace
  inside : LiesIn canonicalize document workspace.localPath
  only : ∀ project' workspace', registry.Registers project' workspace' →
    LiesIn canonicalize document workspace'.localPath →
      project' = project ∧ workspace' = workspace

/-- The document lies in some workspace of the project. -/
def EditIn (document : MinimalDocument) (projectId : String) : Prop :=
  ∃ project workspace, registry.Registers project workspace ∧ project.projectId = projectId ∧
    LiesIn canonicalize document workspace.localPath

/-- The path is the one of a registered workspace of the project, and of no project with a
smaller id. -/
def NamesProject (path projectId : String) : Prop :=
  (∃ project workspace, registry.Registers project workspace ∧
    samePath workspace.localPath path = true ∧ project.projectId = projectId) ∧
  ∀ project workspace, registry.Registers project workspace →
    samePath workspace.localPath path = true → projectId ≤ project.projectId

/-- The first open folder is a workspace of the project: as the editor spells it or, where
nothing is registered under that path, by its canonical path. -/
def FirstFolderNames (folders : Option (List MinimalWorkspaceFolder)) (projectId : String) : Prop :=
  ∃ path, firstFolderPath folders = some path ∧
    (NamesProject registry path projectId ∨
      (∀ project workspace, registry.Registers project workspace →
        samePath workspace.localPath path = false) ∧
      ∃ canonical, canonicalize path = some canonical ∧
        NamesProject registry canonical projectId)

/-- A change of the document in the editor: the answer of the agent, when there is a request,
and the home behind it. -/
def recordChange (folders : Option (List MinimalWorkspaceFolder)) (document : MinimalDocument)
    (contentChanges : Nat) (inputs : Nat → AgentInput) (home : AgentWorld) :
    Option (Except RpcError EditorEventRecordResult) × AgentWorld :=
  match recordEditorEvent (editorEventRecordParams
      (textDocumentChange document folders contentChanges)) with
  | none => (none, home)
  | some params =>
    let outcome := (handleEditorEventRecord (registryConfig registry deviceId) params).alone
      inputs 0 home
    (some outcome.1, outcome.2)

/-- What a change of the document does to its project and to the others. -/
structure EditAttributed (home : AgentWorld) (folders : Option (List MinimalWorkspaceFolder))
    (document : MinimalDocument) : Prop where
  counted : ∀ project workspace,
    OnlyIn registry canonicalize document project workspace → ∀ contentChanges, 0 < contentChanges →
      ∀ inputs : Nat → AgentInput, (∀ i, (inputs i).canonicalize = canonicalize) →
        home.generation project.projectId <
          (recordChange registry deviceId folders document contentChanges inputs
            home).2.generation project.projectId
  stopped : ∀ project workspace,
    OnlyIn registry canonicalize document project workspace → ∀ contentChanges, 0 < contentChanges →
      ∀ inputs : Nat → AgentInput, (∀ i, (inputs i).canonicalize = canonicalize) →
        (∀ i, DatabaseWorks (inputs i)) →
          home.events.inner.nextSequence.toNat + (pendingHandoffs
            (registryConfig registry deviceId) project.projectId home).length < 2 ^ 64 →
            ∃ reply, (recordChange registry deviceId folders document contentChanges inputs
                home).1 = some (.ok reply) ∧ reply.project = some project.projectId ∧
              ∀ h ∈ pendingHandoffs (registryConfig registry deviceId) project.projectId home,
                storedState project.projectId h.handoffId (recordChange registry deviceId folders
                  document contentChanges inputs home).2 = some .aborted
  others : ∀ projectId other, EditIn registry canonicalize document projectId →
    ¬EditIn registry canonicalize document other → ∀ contentChanges, 0 < contentChanges →
      ∀ inputs : Nat → AgentInput, (∀ i, (inputs i).canonicalize = canonicalize) →
        (recordChange registry deviceId folders document contentChanges inputs
          home).2.generation other ≤ home.generation other

/-- The first open folder is a workspace of the project of the document, of which a
generation is left. -/
structure FirstFolderFits (home : AgentWorld) (folders : Option (List MinimalWorkspaceFolder))
    (document : MinimalDocument) : Prop where
  names : ∀ project workspace, OnlyIn registry canonicalize document project workspace →
    FirstFolderNames registry canonicalize folders project.projectId ∧
      (home.generation project.projectId).toNat + 1 < 2 ^ 64
  others : ∀ projectId other, EditIn registry canonicalize document projectId →
    ¬EditIn registry canonicalize document other →
      FirstFolderNames registry canonicalize folders other →
        ¬(home.generation other).toNat + 1 < 2 ^ 64

end

section

variable {registry : ProjectRegistryIndex} {deviceId : String}
  {canonicalize : String → Option String} {home : AgentWorld}
  {folders : Option (List MinimalWorkspaceFolder)} {document : MinimalDocument}

theorem namesProject_iff (deviceId : String) {path projectId : String} :
    NamesProject registry path projectId ↔
      (registryConfig registry deviceId).workspaceByPath path = some projectId := by
  show _ ↔ (registry.workspaceByPath path).map _ = _
  rw [Option.map_eq_some_iff]
  constructor
  · rintro ⟨⟨project, workspace, hregisters, hpath, rfl⟩, hleast⟩
    rcases hfound : registry.workspaceByPath path with _ | ⟨first, there⟩
    · have hnone := ProjectRegistryIndex.workspaceByPath_eq_none_iff.mp hfound
      exact absurd hpath (Bool.eq_false_iff.mp (hnone project workspace hregisters))
    · refine ⟨_, rfl, ?_⟩
      obtain ⟨hfirst, hthere⟩ := ProjectRegistryIndex.registers_of_workspaceByPath hfound
      have hle := ProjectRegistryIndex.projectId_le_of_workspaceByPath hfound hregisters hpath
      exact le_antisymm hle (hleast first there hfirst hthere)
  · rintro ⟨⟨project, workspace⟩, hfound, rfl⟩
    obtain ⟨hregisters, hpath⟩ := ProjectRegistryIndex.registers_of_workspaceByPath hfound
    refine ⟨⟨project, workspace, hregisters, hpath, rfl⟩, fun other there hother hthere => ?_⟩
    exact ProjectRegistryIndex.projectId_le_of_workspaceByPath hfound hother hthere

/-- What the agent resolves the event to. -/
theorem editedProject_iff (deviceId : String) {projectId : String} :
    EditorEventRecordParams.editedProject (registryConfig registry deviceId) canonicalize
        ⟨none, firstFolderPath folders, .textDocumentChanged, true⟩ = some projectId ↔
      FirstFolderNames registry canonicalize folders projectId := by
  unfold EditorEventRecordParams.editedProject FirstFolderNames
  cases firstFolderPath folders with
  | none =>
    constructor
    · rintro ⟨⟩
    · rintro ⟨path, ⟨⟩, -⟩
  | some path =>
    simp only [namesProject_iff deviceId, ← ProjectRegistryIndex.workspaceByPath_eq_none_iff]
    cases hfound : (registryConfig registry deviceId).workspaceByPath path with
    | some found =>
      have hsome : registry.workspaceByPath path ≠ none := by
        intro hnone
        have hlookup : (registry.workspaceByPath path).map (fun found => found.1.projectId) =
          some found := hfound
        rw [hnone] at hlookup
        cases hlookup
      constructor
      · exact fun h => ⟨path, rfl, Or.inl (hfound.trans h)⟩
      · rintro ⟨path', heq, h⟩
        cases heq
        rcases h with h | ⟨hnone, -⟩
        · exact hfound.symm.trans h
        · exact absurd hnone hsome
    | none =>
      have hnone : registry.workspaceByPath path = none := Option.map_eq_none_iff.mp hfound
      constructor
      · intro h
        obtain ⟨canonical, hcanonical, hnames⟩ := Option.bind_eq_some_iff.mp h
        exact ⟨path, rfl, Or.inr ⟨hnone, canonical, hcanonical, hnames⟩⟩
      · rintro ⟨path', heq, h⟩
        cases heq
        rcases h with h | ⟨-, canonical, hcanonical, hnames⟩
        · cases hfound.symm.trans h
        · exact Option.bind_eq_some_iff.mpr ⟨canonical, hcanonical, hnames⟩

theorem recordChange_eq {contentChanges : Nat} (h : 0 < contentChanges)
    (inputs : Nat → AgentInput) :
    recordChange registry deviceId folders document contentChanges inputs home =
      (some ((handleEditorEventRecord (registryConfig registry deviceId)
          ⟨none, firstFolderPath folders, .textDocumentChanged, true⟩).alone inputs 0 home).1,
        ((handleEditorEventRecord (registryConfig registry deviceId)
          ⟨none, firstFolderPath folders, .textDocumentChanged, true⟩).alone inputs 0 home).2) := by
  rw [recordChange, recordEditorEvent_textDocumentChange h]

open Classical in
/-- The generation behind a change of any document. -/
theorem generation_recordChange {contentChanges : Nat} (h : 0 < contentChanges)
    {inputs : Nat → AgentInput} (hpath : ∀ i, (inputs i).canonicalize = canonicalize)
    (projectId : String) :
    (recordChange registry deviceId folders document contentChanges inputs
        home).2.generation projectId =
      if FirstFolderNames registry canonicalize folders projectId then
        saturatingAdd (home.generation projectId) 1
      else home.generation projectId := by
  rw [recordChange_eq h, generation_after hpath rfl rfl]
  simp only [editedProject_iff deviceId]

theorem lt_saturatingAdd_one {generation : UInt64} :
    generation < saturatingAdd generation 1 ↔ generation.toNat + 1 < 2 ^ 64 := by
  rw [UInt64.lt_iff_toNat_lt, toNat_saturatingAdd, UInt64.toNat_one]
  have hbound := generation.toNat_lt
  omega

theorem saturatingAdd_one_le {generation : UInt64}
    (h : ¬generation.toNat + 1 < 2 ^ 64) : saturatingAdd generation 1 ≤ generation := by
  rw [UInt64.le_iff_toNat_le, toNat_saturatingAdd, UInt64.toNat_one]
  have hbound := generation.toNat_lt
  omega

/-- A change of a document is attributed to its project exactly when the first open folder is
a workspace of that project. -/
theorem editAttributed_iff (registry : ProjectRegistryIndex) (deviceId : String)
    (canonicalize : String → Option String) (home : AgentWorld)
    (folders : Option (List MinimalWorkspaceFolder)) (document : MinimalDocument)
    (hrows : OwnRows home) (hknown : KnownProjects home) :
    EditAttributed registry deviceId canonicalize home folders document ↔
      FirstFolderFits registry canonicalize home folders document := by
  -- one change, on the file system at hand
  let inputs : Nat → AgentInput := fun _ => { demoInput 0 with canonicalize := canonicalize }
  have hinputs : ∀ i, (inputs i).canonicalize = canonicalize := fun _ => rfl
  constructor
  · intro h
    refine ⟨fun project workspace honly => ?_, fun projectId other hin hout hnames hleft => ?_⟩
    · have hcounted := h.counted project workspace honly 1 Nat.one_pos inputs hinputs
      rw [generation_recordChange Nat.one_pos hinputs] at hcounted
      split at hcounted
      · rename_i hnames
        exact ⟨hnames, lt_saturatingAdd_one.mp hcounted⟩
      · exact absurd hcounted (UInt64.lt_irrefl _)
    · have hkept := h.others projectId other hin hout 1 Nat.one_pos inputs hinputs
      rw [generation_recordChange Nat.one_pos hinputs, if_pos hnames] at hkept
      have hlater := lt_saturatingAdd_one.mpr hleft
      exact absurd (UInt64.lt_of_lt_of_le hlater hkept) (UInt64.lt_irrefl _)
  · intro h
    constructor
    · intro project workspace honly contentChanges hchanges inputs hpath
      obtain ⟨hnames, hleft⟩ := h.names project workspace honly
      rw [generation_recordChange hchanges hpath, if_pos hnames]
      exact lt_saturatingAdd_one.mpr hleft
    · intro project workspace honly contentChanges hchanges inputs hpath hworks hroom
      obtain ⟨hnames, -⟩ := h.names project workspace honly
      obtain ⟨reply, hreply, hproject, hstopped⟩ := alone_stops hpath hworks rfl rfl
        ((editedProject_iff deviceId).mpr hnames)
        (ProjectRegistryIndex.projectId_mem_keys honly.registers.known) hrows hknown hroom
      rw [recordChange_eq hchanges]
      exact ⟨reply, congrArg some hreply, hproject, hstopped⟩
    · intro projectId other hin hout contentChanges hchanges inputs hpath
      rw [generation_recordChange hchanges hpath]
      split
      · rename_i hnames
        exact saturatingAdd_one_le (h.others projectId other hin hout hnames)
      · exact UInt64.le_refl _

end

/-! ## Two open folders -/

def demoProject (projectId workspaceId localPath : String) : ProjectRegistryEntry where
  projectId := projectId
  displayName := projectId
  localPath := localPath
  workspaces := .singleton workspaceId
    ⟨workspaceId, projectId, "device-a", localPath, "unknown", .active, none, none⟩
  manifestPath := none

/-- Two projects with a workspace each. -/
def twoProjects : ProjectRegistryIndex where
  projects := ⟨[("project-1", demoProject "project-1" "w_1" "/work/one"),
    ("project-2", demoProject "project-2" "w_2" "/work/two")], by decide⟩
  keyed := by decide

def fileUri (path : String) : MinimalUri := ⟨"file", some path, "file://" ++ path⟩

def firstDocument : MinimalDocument := ⟨fileUri "/work/one/a.rs", some 2⟩

def secondDocument : MinimalDocument := ⟨fileUri "/work/two/b.rs", some 2⟩

def bothFolders : List MinimalWorkspaceFolder :=
  [⟨fileUri "/work/one"⟩, ⟨fileUri "/work/two"⟩]

theorem registers_twoProjects {project : ProjectRegistryEntry}
    {workspace : WorkspaceRegistryEntry} (h : twoProjects.Registers project workspace) :
    project = demoProject "project-1" "w_1" "/work/one" ∧
        workspace = ⟨"w_1", "project-1", "device-a", "/work/one", "unknown", .active, none,
          none⟩ ∨
      project = demoProject "project-2" "w_2" "/work/two" ∧
        workspace = ⟨"w_2", "project-2", "device-a", "/work/two", "unknown", .active, none,
          none⟩ := by
  obtain ⟨hproject, hworkspace⟩ := h
  rcases List.mem_cons.mp hproject with rfl | hproject
  · exact Or.inl ⟨rfl, List.mem_singleton.mp hworkspace⟩
  · cases List.mem_singleton.mp hproject
    exact Or.inr ⟨rfl, List.mem_singleton.mp hworkspace⟩

/-- Without links a document lies where its path says. -/
theorem liesIn_some {path root : String} :
    LiesIn some ⟨fileUri path, some 2⟩ root ↔ components root <+: components path := by
  constructor
  · rintro ⟨-, _, _, _, ⟨⟩, ⟨⟩, ⟨⟩, h⟩
    exact h
  · exact fun h => ⟨rfl, path, path, root, rfl, rfl, rfl, h⟩

theorem demoHome_knownProjects : KnownProjects demoHome :=
  demoHomeWith_knownProjects demoStore (by decide) (by decide)

/-- With both folders open and two handoffs pending, a document of the first one. -/
theorem editAttributed_iff_first :
    EditAttributed twoProjects "device-a" some twoHandoffsHome (some bothFolders)
        firstDocument ∧
      (pendingHandoffs (registryConfig twoProjects "device-a") "project-1"
        twoHandoffsHome).map HandoffRecord.handoffId = ["ho_1", "ho_2"] := by
  have hnames : FirstFolderNames twoProjects some (some bothFolders) "project-1" :=
    (editedProject_iff "device-a").mp (by decide)
  refine ⟨(editAttributed_iff twoProjects "device-a" some twoHandoffsHome (some bothFolders)
    firstDocument twoHandoffsHome_ownRows twoHandoffsHome_knownProjects).mpr ⟨?_, ?_⟩, by decide⟩
  · intro project workspace honly
    rcases registers_twoProjects honly.registers with ⟨rfl, rfl⟩ | ⟨rfl, rfl⟩
    · exact ⟨hnames, by decide⟩
    · exact absurd (liesIn_some.mp honly.inside) (by decide)
  · rintro projectId other ⟨project, workspace, hregisters, rfl, hinside⟩ hout hother
    have hfirst := hother
    rw [← editedProject_iff "device-a"] at hfirst hnames
    cases hnames.symm.trans hfirst
    refine absurd ⟨demoProject "project-1" "w_1" "/work/one", _, ⟨List.mem_cons_self,
      List.mem_singleton.mpr rfl⟩, rfl, liesIn_some.mpr (by decide)⟩ hout

/-- With both folders open, an edit in the second workspace counts for the first project. -/
theorem not_editAttributed_second :
    ¬∀ (registry : ProjectRegistryIndex) (deviceId : String)
      (canonicalize : String → Option String) (home : AgentWorld)
      (folders : Option (List MinimalWorkspaceFolder)) (document : MinimalDocument),
      OwnRows home → KnownProjects home →
        EditAttributed registry deviceId canonicalize home folders document := by
  intro hclaim
  have hattributed := hclaim twoProjects "device-a" some demoHome (some bothFolders)
    secondDocument demoHome_ownRows demoHome_knownProjects
  have honly : OnlyIn twoProjects some secondDocument (demoProject "project-2" "w_2" "/work/two")
      ⟨"w_2", "project-2", "device-a", "/work/two", "unknown", .active, none, none⟩ := by
    refine ⟨⟨List.mem_cons_of_mem _ List.mem_cons_self, List.mem_singleton.mpr rfl⟩,
      liesIn_some.mpr (by decide), fun project workspace hregisters hinside => ?_⟩
    rcases registers_twoProjects hregisters with ⟨rfl, rfl⟩ | hsecond
    · exact absurd (liesIn_some.mp hinside) (by decide)
    · exact hsecond
  let inputs : Nat → AgentInput := fun _ => { demoInput 0 with canonicalize := some }
  have hcounted := hattributed.counted _ _ honly 1 Nat.one_pos inputs fun _ => rfl
  have hnames : ¬FirstFolderNames twoProjects some (some bothFolders) "project-2" := by
    rw [← editedProject_iff "device-a"]
    decide
  rw [generation_recordChange Nat.one_pos fun _ => rfl] at hcounted
  rw [show (demoProject "project-2" "w_2" "/work/two").projectId = "project-2" from rfl,
    if_neg hnames] at hcounted
  exact UInt64.lt_irrefl _ hcounted

end DevRelay.Agent
