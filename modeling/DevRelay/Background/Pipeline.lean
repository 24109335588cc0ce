import DevRelay.Background.Debounce

/-!
# From watch events to checkpoint requests

The watch state and the debouncer together, called in any order.  An observed
path is never lost on its way: until a checkpoint request holds it, it waits in
the watch state, among the changes the caller has drained and not handed on
yet, or in the debouncer.
-/

namespace DevRelay.Background

open Lib

/-- `collected` holds the changes between `drain_coalesced` and
`observe_change`; `hints` and `emitted` record what the calls returned. -/
structure Pipeline where
  watch : FilesystemWatchState
  collected : List CoalescedWorkspaceChange
  debouncer : AdaptiveDebouncer
  hints : List WorkspaceChangeHint
  emitted : List DebouncedCheckpoint

inductive PipelineCall where
  | register (watch : WorkspaceWatch)
  | observe (event : FilesystemRawEvent)
  | collect
  | forward (now : Duration)
  | drainDue (now : Duration)
  | flush (now : Duration) (reason : DebounceFlushReason)
  | completed (workspaceId : String) (sourceGeneration : UInt64) (now : Duration)
  deriving DecidableEq, Repr

namespace Pipeline

def new (policy : BackgroundDebouncePolicy) : Pipeline where
  watch := .new
  collected := []
  debouncer := .new policy
  hints := []
  emitted := []

def step (p : Pipeline) : PipelineCall → Pipeline
  | .register watch =>
    match p.watch.registerWorkspace watch with
    | .ok registered => { p with watch := registered }
    | .error _ => p
  | .observe event =>
    let observed := p.watch.observeRawEvent event
    { p with watch := observed.1, hints := p.hints ++ observed.2 }
  | .collect =>
    let drained := p.watch.drainCoalesced
    { p with watch := drained.1, collected := p.collected ++ drained.2 }
  | .forward now =>
    match p.collected with
    | [] => p
    | change :: rest =>
      { p with collected := rest, debouncer := p.debouncer.observeChange change now }
  | .drainDue now =>
    let drained := p.debouncer.drainDue now
    { p with debouncer := drained.1, emitted := p.emitted ++ drained.2.checkpoints }
  | .flush now reason =>
    let drained := p.debouncer.flushAll now reason
    { p with debouncer := drained.1, emitted := p.emitted ++ drained.2.checkpoints }
  | .completed workspaceId sourceGeneration now =>
    { p with
      debouncer := p.debouncer.recordCheckpointCompleted workspaceId sourceGeneration now }

/-- A registration is refused, or stores the workspace. -/
theorem step_register (p : Pipeline) (watch : WorkspaceWatch) :
    p.step (.register watch) = p ∨
      p.step (.register watch) = { p with watch := p.watch.store watch } := by
  cases hcheck : watch.validate with
  | error e =>
    left
    simp only [Pipeline.step, FilesystemWatchState.registerWorkspace, hcheck]
    rfl
  | ok _ =>
    right
    simp only [Pipeline.step, FilesystemWatchState.registerWorkspace, hcheck]
    rfl

/-! ## Nothing is lost -/

/-- The path is still on its way to a checkpoint. -/
def Pending (p : Pipeline) (workspaceId : String) (path : PathBuf) (g : UInt64) : Prop :=
  p.watch.Awaits workspaceId path g ∨
    (∃ change ∈ p.collected, change.Carries workspaceId path g) ∨
    p.debouncer.Awaits workspaceId path g

/-- A checkpoint request after the first `k` ones holds the path. -/
def CoveredSince (p : Pipeline) (k : Nat) (workspaceId : String) (path : PathBuf)
    (g : UInt64) : Prop :=
  ∃ checkpoint ∈ p.emitted.drop k, checkpoint.Covers workspaceId path g

/-- The path is pending, or was covered since `k` requests had been emitted. -/
def Kept (k : Nat) (workspaceId : String) (path : PathBuf) (g : UInt64) (p : Pipeline) : Prop :=
  k ≤ p.emitted.length ∧
    (p.Pending workspaceId path g ∨ p.CoveredSince k workspaceId path g)

variable {p : Pipeline} {k : Nat} {workspaceId : String} {path : PathBuf} {g : UInt64}

/-- A call that emits nothing keeps a path if what was pending is pending after it. -/
theorem Kept.of_pending {p' : Pipeline} (h : Kept k workspaceId path g p)
    (hemitted : p'.emitted = p.emitted)
    (hpending : p.Pending workspaceId path g → p'.Pending workspaceId path g) :
    Kept k workspaceId path g p' := by
  refine ⟨by rw [hemitted]; exact h.1, ?_⟩
  rcases h.2 with hwaits | hcovered
  · exact Or.inl (hpending hwaits)
  · right
    rw [CoveredSince, hemitted]
    exact hcovered

/-- A drain of the debouncer keeps a path: what it takes it also emits. -/
theorem Kept.of_drained {drained : AdaptiveDebouncer × DebounceDrain}
    (h : Kept k workspaceId path g p) (hdrained : p.debouncer.Awaits workspaceId path g →
      AdaptiveDebouncer.Drained drained workspaceId path g) :
    Kept k workspaceId path g
      { p with debouncer := drained.1, emitted := p.emitted ++ drained.2.checkpoints } := by
  obtain ⟨hlength, hkept⟩ := h
  have hdrop : (p.emitted ++ drained.2.checkpoints).drop k =
      p.emitted.drop k ++ drained.2.checkpoints := List.drop_append_of_le_length hlength
  refine ⟨?_, ?_⟩
  · rw [List.length_append]
    omega
  · rw [CoveredSince, hdrop]
    rcases hkept with (hwatch | hcollected | hdebouncer) | ⟨checkpoint, hmem, hcovers⟩
    · exact Or.inl (Or.inl hwatch)
    · exact Or.inl (Or.inr (Or.inl hcollected))
    · rcases hdrained hdebouncer with hstays | ⟨checkpoint, hmem, hcovers⟩
      · exact Or.inl (Or.inr (Or.inr hstays))
      · exact Or.inr ⟨checkpoint, List.mem_append_right _ hmem, hcovers⟩
    · exact Or.inr ⟨checkpoint, List.mem_append_left _ hmem, hcovers⟩

theorem Kept.step (call : PipelineCall) (h : Kept k workspaceId path g p) :
    Kept k workspaceId path g (p.step call) := by
  cases call with
  | register watch =>
    rcases p.step_register watch with hrefused | hstored
    · rw [hrefused]
      exact h
    · rw [hstored]
      exact h.of_pending rfl (Or.imp_left (FilesystemWatchState.Awaits.store watch))
  | observe event =>
    exact h.of_pending rfl
      (Or.imp_left (FilesystemWatchState.Awaits.observeRawEvent event))
  | collect =>
    refine h.of_pending rfl ?_
    rintro (hwatch | ⟨change, hmem, hcarries⟩ | hdebouncer)
    · rcases hwatch.drainCoalesced with hstays | ⟨change, hmem, hcarries⟩
      · exact Or.inl hstays
      · exact Or.inr (Or.inl ⟨change, List.mem_append_right _ hmem, hcarries⟩)
    · exact Or.inr (Or.inl ⟨change, List.mem_append_left _ hmem, hcarries⟩)
    · exact Or.inr (Or.inr hdebouncer)
  | forward now =>
    cases hcollected : p.collected with
    | nil =>
      have hstep : p.step (.forward now) = p := by simp only [Pipeline.step, hcollected]
      rw [hstep]
      exact h
    | cons first rest =>
      have hstep : p.step (.forward now) =
          { p with
            collected := rest
            debouncer := p.debouncer.observeChange first now } := by
        simp only [Pipeline.step, hcollected]
      rw [hstep]
      refine h.of_pending rfl ?_
      rintro (hwatch | ⟨change, hmem, hcarries⟩ | hdebouncer)
      · exact Or.inl hwatch
      · rw [hcollected] at hmem
        rcases List.mem_cons.mp hmem with hfirst | hrest
        · rw [hfirst] at hcarries
          exact Or.inr (Or.inr (AdaptiveDebouncer.awaits_observeChange now hcarries))
        · exact Or.inr (Or.inl ⟨change, hrest, hcarries⟩)
      · exact Or.inr (Or.inr (hdebouncer.observeChange first now))
  | drainDue now => exact h.of_drained (fun hwaits => hwaits.drainDue now)
  | flush now reason => exact h.of_drained (fun hwaits => hwaits.flushAll now reason)
  | completed workspaceId sourceGeneration now =>
    refine h.of_pending rfl ?_
    intro hpending
    exact hpending.imp_right (Or.imp_right fun hwaits =>
      hwaits.recordCheckpointCompleted workspaceId sourceGeneration now)

/-! ## The hints on record -/

theorem hintsIncrease_step (call : PipelineCall)
    (h : p.watch.HintsIncrease p.hints) :
        (p.step call).watch.HintsIncrease (p.step call).hints := by
  cases call with
  | register watch =>
    rcases p.step_register watch with hrefused | hstored
    · rw [hrefused]
      exact h
    · rw [hstored]
      refine ⟨h.1, ?_⟩
      intro hint hmem
      rw [FilesystemWatchState.generation_store]
      exact h.2 hint hmem
  | observe event => exact h.observeRawEvent event
  | collect =>
    refine ⟨h.1, ?_⟩
    intro hint hmem
    have hgen := p.watch.generation_drainCoalesced hint.workspaceId
    exact (h.2 hint hmem).trans_eq hgen.symm
  | forward now =>
    cases hcollected : p.collected with
    | nil =>
      simp only [Pipeline.step, hcollected]
      exact h
    | cons first rest =>
      simp only [Pipeline.step, hcollected]
      exact h
  | drainDue now => exact h
  | flush now reason => exact h
  | completed workspaceId sourceGeneration now => exact h

end Pipeline

/-- The pipeline after the first `n` calls. -/
def pipelineAt (policy : BackgroundDebouncePolicy) (calls : List PipelineCall) (n : Nat) :
    Pipeline :=
  stateAt Pipeline.step (.new policy) calls n

/-- The path that the call at `i` observed gets a hint for the workspace of
`watch`, and at every later moment it is pending there or was covered by a
request emitted since, in both cases under the generation of its hint. -/
def ObservationKept (policy : BackgroundDebouncePolicy) (calls : List PipelineCall) (i : Nat)
    (event : FilesystemRawEvent) (path : PathBuf) (watch : WorkspaceWatch) : Prop :=
  ∃ relativePath, watch.relativePath path = some relativePath ∧
    ∃ hint ∈ ((pipelineAt policy calls i).watch.observeRawEvent event).2,
      hint.workspaceId = watch.workspaceId ∧ relativePath ∈ hint.paths ∧
        ∀ n, i < n →
          (pipelineAt policy calls n).Pending watch.workspaceId relativePath
            hint.sourceGeneration ∨
          (pipelineAt policy calls n).CoveredSince (pipelineAt policy calls i).emitted.length
            watch.workspaceId relativePath hint.sourceGeneration

/-- `kept`: an observed path inside registered workspaces is kept for the
deepest of them; `increasing`: the generations of the hints of one workspace
increase until the counter is at its end. -/
structure PipelineLaw (policy : BackgroundDebouncePolicy) (calls : List PipelineCall) : Prop where
  kept : ∀ i (hi : i < calls.length) event, calls[i] = .observe event →
    ∀ path ∈ event.paths, ∀ watch ∈ (pipelineAt policy calls i).watch.workspaces.values,
      (watch.relativePath path).isSome →
        ∃ deepest, (pipelineAt policy calls i).watch.Deepest path deepest ∧
          ObservationKept policy calls i event path deepest
  increasing : ∀ n, (pipelineAt policy calls n).hints.Pairwise fun hint later =>
    hint.workspaceId = later.workspaceId →
      FilesystemWatchState.Follows hint.sourceGeneration later.sourceGeneration

theorem observation_kept {policy : BackgroundDebouncePolicy} {calls : List PipelineCall} {i : Nat}
    (hi : i < calls.length) {event : FilesystemRawEvent} (hcall : calls[i] = .observe event)
    {path relativePath : PathBuf} (hpath : path ∈ event.paths) {watch : WorkspaceWatch}
    (hmatch : (pipelineAt policy calls i).watch.matchWorkspace path =
      some (watch.workspaceId, relativePath))
    (hrelative : watch.relativePath path = some relativePath) :
    ObservationKept policy calls i event path watch := by
  obtain ⟨hint, hmem, hid, hin, hawaits⟩ :=
    FilesystemWatchState.observeRawEvent_hint hpath hmatch
  refine ⟨relativePath, hrelative, hint, hmem, hid, hin, ?_⟩
  intro n hn
  have hstart : Pipeline.Kept (pipelineAt policy calls i).emitted.length watch.workspaceId
      relativePath hint.sourceGeneration (pipelineAt policy calls (i + 1)) := by
    have hnext : pipelineAt policy calls (i + 1) =
        (pipelineAt policy calls i).step (.observe event) := by
      rw [pipelineAt, stateAt_succ hi, hcall]
      rfl
    rw [hnext]
    exact ⟨Nat.le_refl _, Or.inl (Or.inl hawaits)⟩
  have hkept := stateAt_stable (fun _ call h => Pipeline.Kept.step call h) hn hstart
  exact hkept.2

theorem hints_increase (policy : BackgroundDebouncePolicy) (calls : List PipelineCall) (n : Nat) :
    (pipelineAt policy calls n).watch.HintsIncrease (pipelineAt policy calls n).hints := by
  apply stateAt_invariant (I := fun p : Pipeline => p.watch.HintsIncrease p.hints)
  · exact ⟨List.Pairwise.nil, fun _ h => absurd h List.not_mem_nil⟩
  · intro p call h
    exact Pipeline.hintsIncrease_step call h

theorem pipeline_loses_no_change (policy : BackgroundDebouncePolicy)
    (calls : List PipelineCall) : PipelineLaw policy calls where
  kept := by
    intro i hi event hcall path hpath watch hwatch hinside
    have hmatch := FilesystemWatchState.matchWorkspace_isSome hwatch hinside
    obtain ⟨⟨workspaceId, relativePath⟩, hfound⟩ := Option.isSome_iff_exists.mp hmatch
    obtain ⟨deepest, hdeepest, hid, hrelative⟩ :=
      FilesystemWatchState.matchWorkspace_eq_some hfound
    rw [← hid] at hfound
    exact ⟨deepest, hdeepest, observation_kept hi hcall hpath hfound hrelative⟩
  increasing n := (hints_increase policy calls n).1

/-! ## Nested workspaces, and the end of the counter -/

/-- Every registered workspace above an observed path keeps it. -/
def EveryWorkspaceKeeps (policy : BackgroundDebouncePolicy) (calls : List PipelineCall) : Prop :=
  ∀ i (hi : i < calls.length) event, calls[i] = .observe event →
    ∀ path ∈ event.paths, ∀ watch ∈ (pipelineAt policy calls i).watch.workspaces.values,
      (watch.relativePath path).isSome → ObservationKept policy calls i event path watch

/-- Generations of one workspace increase without end. -/
def GenerationsIncrease (policy : BackgroundDebouncePolicy) (calls : List PipelineCall) : Prop :=
  ∀ n, (pipelineAt policy calls n).hints.Pairwise fun hint later =>
    hint.workspaceId = later.workspaceId → hint.sourceGeneration < later.sourceGeneration

/-- `/r` -/
def outerWatch : WorkspaceWatch := ⟨"w_root", [.rootDir, .normal [114]]⟩

/-- `/r/c` -/
def nestedWatch : WorkspaceWatch := ⟨"w_child", [.rootDir, .normal [114], .normal [99]]⟩

/-- A change of `/r/c/f`. -/
def nestedEvent : FilesystemRawEvent :=
  ⟨.modify, [[.rootDir, .normal [114], .normal [99], .normal [102]]]⟩

def nestedCalls : List PipelineCall :=
  [.register outerWatch, .register nestedWatch, .observe nestedEvent]

theorem nested_hints : ((pipelineAt .default nestedCalls 2).watch.observeRawEvent nestedEvent).2 =
    [{ workspaceId := "w_child", sourceGeneration := 1, kind := .modify,
       paths := {[.normal [102]]} }] := by
  decide

theorem outer_registered :
    outerWatch ∈ (pipelineAt .default nestedCalls 2).watch.workspaces.values := by
  decide

theorem outer_not_kept : ¬EveryWorkspaceKeeps .default nestedCalls := by
  intro h
  obtain ⟨-, -, hint, hmem, hid, -⟩ := h 2 (by decide) nestedEvent rfl _
    (List.mem_singleton_self _) outerWatch outer_registered (by decide)
  rw [nested_hints] at hmem
  rw [List.mem_singleton.mp hmem] at hid
  exact absurd hid (by decide)

/-- `n` changes of the same file. -/
def repeatedCalls (n : Nat) : List PipelineCall :=
  .register nestedWatch :: List.replicate n (.observe nestedEvent)

theorem repeated_hints {s : FilesystemWatchState}
    (hs : s.workspaces = .singleton "w_child" nestedWatch) :
    (s.observeRawEvent nestedEvent).2.map WorkspaceChangeHint.workspaceId = ["w_child"] := by
  have hgroup : s.groupByWorkspace nestedEvent.paths =
      (FilesystemWatchState.new.store nestedWatch).groupByWorkspace nestedEvent.paths :=
    FilesystemWatchState.groupByWorkspace_congr hs _
  rw [FilesystemWatchState.workspaceIds_observeRawEvent, hgroup]
  decide

theorem repeated_workspaceIds (n : Nat) (p : Pipeline)
    (hp : p.watch.workspaces = .singleton "w_child" nestedWatch) :
    ((List.replicate n (.observe nestedEvent)).foldl Pipeline.step p).hints.map
        WorkspaceChangeHint.workspaceId =
      p.hints.map WorkspaceChangeHint.workspaceId ++ List.replicate n "w_child" := by
  induction n generalizing p with
  | zero => exact (List.append_nil _).symm
  | succ n ih =>
    have hworkspaces : (p.step (.observe nestedEvent)).watch.workspaces =
        .singleton "w_child" nestedWatch :=
      (p.watch.workspaces_observeRawEvent nestedEvent).trans hp
    have hhints : (p.step (.observe nestedEvent)).hints.map WorkspaceChangeHint.workspaceId =
        p.hints.map WorkspaceChangeHint.workspaceId ++ ["w_child"] := by
      simp only [Pipeline.step]
      rw [List.map_append, repeated_hints hp]
    rw [List.replicate_succ, List.foldl_cons, ih _ hworkspaces, hhints, List.append_assoc,
      List.replicate_succ]
    rfl

/-- One change too many for the counter. -/
theorem generations_end : ¬GenerationsIncrease .default (repeatedCalls (2 ^ 64 + 1)) := by
  intro h
  have hlast := h (repeatedCalls (2 ^ 64 + 1)).length
  rw [pipelineAt, stateAt_length, repeatedCalls, List.foldl_cons] at hlast
  generalize hcount : 2 ^ 64 + 1 = n at hlast
  generalize hp : (Pipeline.new .default).step (.register nestedWatch) = p at hlast
  have hworkspaces : p.watch.workspaces = .singleton "w_child" nestedWatch := by
    rw [← hp]
    rfl
  have hids := repeated_workspaceIds n p hworkspaces
  have hnone : p.hints = [] := by
    rw [← hp]
    rfl
  rw [hnone, List.map_nil, List.nil_append] at hids
  generalize hhints :
    ((List.replicate n (PipelineCall.observe nestedEvent)).foldl Pipeline.step p).hints = hints
    at hlast hids
  have hsame : ∀ hint ∈ hints, hint.workspaceId = "w_child" := by
    intro hint hmem
    have hid := List.mem_map_of_mem (f := WorkspaceChangeHint.workspaceId) hmem
    rw [hids] at hid
    exact List.eq_of_mem_replicate hid
  have hincreasing : (hints.map WorkspaceChangeHint.sourceGeneration).Pairwise (· < ·) := by
    rw [List.pairwise_map]
    apply hlast.imp_of_mem
    intro hint later hhint hlater hfollows
    exact hfollows ((hsame hint hhint).trans (hsame later hlater).symm)
  have hlength : hints.length = n := by
    rw [← List.length_map (f := WorkspaceChangeHint.workspaceId), hids, List.length_replicate]
  have hbound := length_le_of_increasing hincreasing
  rw [List.length_map, hlength] at hbound
  omega

theorem unamended_pipeline_law_fails :
    (¬∀ policy calls, EveryWorkspaceKeeps policy calls) ∧
      ¬∀ policy calls, GenerationsIncrease policy calls :=
  ⟨fun h => outer_not_kept (h _ _), fun h => generations_end (h _ _)⟩

end DevRelay.Background
