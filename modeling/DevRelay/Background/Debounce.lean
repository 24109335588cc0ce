import DevRelay.Background.Watcher

/-!
# The debouncer

Collected changes wait here until a workspace has been quiet for long enough,
or has been dirty for too long, or everything is flushed; then one checkpoint
request takes all pending paths of the workspace.  Completed checkpoints wait
in the same way to be published.
-/

namespace DevRelay.Background

open Lib

/-- Nanoseconds on the caller's clock. -/
abbrev Duration := Nat

def seconds (n : Nat) : Duration := n * 1000000000

structure BackgroundDebouncePolicy where
  firstEventQuiet : Duration
  minCheckpointInterval : Duration
  maxDirtyInterval : Duration
  publishQuiet : Duration
  maxPublishInterval : Duration
  deriving DecidableEq, Repr

def BackgroundDebouncePolicy.default : BackgroundDebouncePolicy where
  firstEventQuiet := seconds 2
  minCheckpointInterval := seconds 30
  maxDirtyInterval := seconds (5 * 60)
  publishQuiet := seconds 10
  maxPublishInterval := seconds (2 * 60)

inductive DebounceFlushReason where
  | quietWindow
  | maxDirtyInterval
  | publishQuietWindow
  | maxPublishInterval
  | explicitCheckpoint
  | handoff
  | sleepOrLock
  deriving DecidableEq, Repr

structure DebouncedCheckpoint where
  workspaceId : String
  sourceGeneration : UInt64
  reason : DebounceFlushReason
  paths : Finset PathBuf
  deriving DecidableEq

/-- The checkpoint request holds the path, under generation `g` or a later one. -/
def DebouncedCheckpoint.Covers (checkpoint : DebouncedCheckpoint) (workspaceId : String)
    (path : PathBuf) (g : UInt64) : Prop :=
  checkpoint.workspaceId = workspaceId ∧ path ∈ checkpoint.paths ∧
    g ≤ checkpoint.sourceGeneration

structure DebouncedPublish where
  workspaceId : String
  sourceGeneration : UInt64
  reason : DebounceFlushReason
  deriving DecidableEq, Repr

structure DebounceDrain where
  checkpoints : List DebouncedCheckpoint
  publishes : List DebouncedPublish
  deriving DecidableEq

structure WorkspaceDebounceState where
  pendingPaths : Finset PathBuf
  sourceGeneration : UInt64
  firstDirtyAt : Option Duration
  lastDirtyEventAt : Option Duration
  lastCheckpointAt : Option Duration
  publishGeneration : Option UInt64
  firstUnpublishedAt : Option Duration
  lastUnpublishedAt : Option Duration
  lastPublishAt : Option Duration
  deriving DecidableEq

/-- `WorkspaceDebounceState::default` -/
def WorkspaceDebounceState.new : WorkspaceDebounceState where
  pendingPaths := ∅
  sourceGeneration := 0
  firstDirtyAt := none
  lastDirtyEventAt := none
  lastCheckpointAt := none
  publishGeneration := none
  firstUnpublishedAt := none
  lastUnpublishedAt := none
  lastPublishAt := none

/-- A clock that went back counts as no time elapsed. -/
def elapsed (now earlier : Duration) : Duration := now - earlier

structure AdaptiveDebouncer where
  policy : BackgroundDebouncePolicy
  workspaces : SortedMap String WorkspaceDebounceState

namespace AdaptiveDebouncer

def new (policy : BackgroundDebouncePolicy) : AdaptiveDebouncer := ⟨policy, .empty⟩

def observeChange (d : AdaptiveDebouncer) (change : CoalescedWorkspaceChange) (now : Duration) :
    AdaptiveDebouncer :=
  if change.paths = ∅ then d
  else
    { d with
      workspaces := d.workspaces.modify change.workspaceId .new fun state =>
        { state with
          firstDirtyAt := state.firstDirtyAt.or (some now)
          lastDirtyEventAt := some now
          sourceGeneration := max state.sourceGeneration change.sourceGeneration
          pendingPaths := state.pendingPaths ∪ change.paths } }

def recordCheckpointCompleted (d : AdaptiveDebouncer) (workspaceId : String)
    (sourceGeneration : UInt64) (now : Duration) : AdaptiveDebouncer :=
  { d with
    workspaces := d.workspaces.modify workspaceId .new fun state =>
      { state with
        firstUnpublishedAt := state.firstUnpublishedAt.or (some now)
        lastUnpublishedAt := some now
        publishGeneration := some (max (state.publishGeneration.getD 0) sourceGeneration) } }

def takeCheckpoint (d : AdaptiveDebouncer) (workspaceId : String) (now : Duration)
    (reason : DebounceFlushReason) : AdaptiveDebouncer × Option DebouncedCheckpoint :=
  match d.workspaces.find? workspaceId with
  | none => (d, none)
  | some state =>
    if state.pendingPaths = ∅ then (d, none)
    else
      ({ d with
          workspaces := d.workspaces.insert workspaceId
            { state with
              pendingPaths := ∅
              firstDirtyAt := none
              lastDirtyEventAt := none
              lastCheckpointAt := some now } },
        some { workspaceId := workspaceId, sourceGeneration := state.sourceGeneration,
               reason := reason, paths := state.pendingPaths })

def takePublish (d : AdaptiveDebouncer) (workspaceId : String) (now : Duration)
    (reason : DebounceFlushReason) : AdaptiveDebouncer × Option DebouncedPublish :=
  match d.workspaces.find? workspaceId with
  | none => (d, none)
  | some state =>
    match state.publishGeneration with
    | none => (d, none)
    | some sourceGeneration =>
      ({ d with
          workspaces := d.workspaces.insert workspaceId
            { state with
              publishGeneration := none
              firstUnpublishedAt := none
              lastUnpublishedAt := none
              lastPublishAt := some now } },
        some { workspaceId := workspaceId, sourceGeneration := sourceGeneration,
               reason := reason })

/-- Why a checkpoint of the workspace is due, if it is. -/
def dueCheckpointReason (policy : BackgroundDebouncePolicy) (state : WorkspaceDebounceState)
    (now : Duration) : Option DebounceFlushReason :=
  if state.pendingPaths = ∅ then none
  else do
    let firstDirtyAt ← state.firstDirtyAt
    let lastDirtyEventAt := state.lastDirtyEventAt.getD firstDirtyAt
    let sinceFirstDirty := elapsed now firstDirtyAt
    let sinceLastEvent := elapsed now lastDirtyEventAt
    let minIntervalSatisfied := (state.lastCheckpointAt.map fun last =>
      decide (policy.minCheckpointInterval ≤ elapsed now last)).getD true
    if policy.maxDirtyInterval ≤ sinceFirstDirty then
      some .maxDirtyInterval
    else if policy.firstEventQuiet ≤ sinceLastEvent && minIntervalSatisfied then
      some .quietWindow
    else
      none

def takeDueCheckpoint (d : AdaptiveDebouncer) (workspaceId : String) (now : Duration) :
    AdaptiveDebouncer × Option DebouncedCheckpoint :=
  match (d.workspaces.find? workspaceId).bind (dueCheckpointReason d.policy · now) with
  | none => (d, none)
  | some reason => d.takeCheckpoint workspaceId now reason

/-- Why a publication of the workspace is due, if it is. -/
def duePublishReason (policy : BackgroundDebouncePolicy) (state : WorkspaceDebounceState)
    (now : Duration) : Option DebounceFlushReason := do
  let _ ← state.publishGeneration
  let firstUnpublishedAt ← state.firstUnpublishedAt
  let lastUnpublishedAt := state.lastUnpublishedAt.getD firstUnpublishedAt
  let sinceFirstUnpublished := elapsed now firstUnpublishedAt
  let sinceLastUnpublished := elapsed now lastUnpublishedAt
  if policy.maxPublishInterval ≤ sinceFirstUnpublished then
    some .maxPublishInterval
  else if policy.publishQuiet ≤ sinceLastUnpublished then
    some .publishQuietWindow
  else
    none

def takeDuePublish (d : AdaptiveDebouncer) (workspaceId : String) (now : Duration) :
    AdaptiveDebouncer × Option DebouncedPublish :=
  match (d.workspaces.find? workspaceId).bind (duePublishReason d.policy · now) with
  | none => (d, none)
  | some reason => d.takePublish workspaceId now reason

/-- One workspace of a drain: its checkpoint, then its publication. -/
def takeWorkspace
    (checkpoint : AdaptiveDebouncer → String → AdaptiveDebouncer × Option DebouncedCheckpoint)
    (publish : AdaptiveDebouncer → String → AdaptiveDebouncer × Option DebouncedPublish)
    (acc : AdaptiveDebouncer × DebounceDrain) (workspaceId : String) :
    AdaptiveDebouncer × DebounceDrain :=
  let afterCheckpoint := checkpoint acc.1 workspaceId
  let afterPublish := publish afterCheckpoint.1 workspaceId
  (afterPublish.1, {
      checkpoints := acc.2.checkpoints ++ afterCheckpoint.2.toList
      publishes := acc.2.publishes ++ afterPublish.2.toList })

def drainDue (d : AdaptiveDebouncer) (now : Duration) : AdaptiveDebouncer × DebounceDrain :=
  d.workspaces.keys.foldl
    (takeWorkspace (takeDueCheckpoint · · now) (takeDuePublish · · now)) (d, ⟨[], []⟩)

def flushAll (d : AdaptiveDebouncer) (now : Duration) (reason : DebounceFlushReason) :
    AdaptiveDebouncer × DebounceDrain :=
  d.workspaces.keys.foldl
    (takeWorkspace (takeCheckpoint · · now reason) (takePublish · · now reason)) (d, ⟨[], []⟩)

def flushForSleepOrLock (d : AdaptiveDebouncer) (now : Duration) :
    AdaptiveDebouncer × DebounceDrain :=
  d.flushAll now .sleepOrLock

/-! ## Waiting paths -/

/-- The path waits for a checkpoint, under generation `g` or a later one. -/
def Awaits (d : AdaptiveDebouncer) (workspaceId : String) (path : PathBuf) (g : UInt64) : Prop :=
  ∃ state, d.workspaces.find? workspaceId = some state ∧ path ∈ state.pendingPaths ∧
    g ≤ state.sourceGeneration

variable {d : AdaptiveDebouncer} {workspaceId : String} {path : PathBuf} {g : UInt64}

/-- A change of one workspace that drops no path and lowers no generation keeps
what waits. -/
theorem Awaits.insert {other : String} {state : WorkspaceDebounceState}
    (hstate : ∀ old, d.workspaces.find? other = some old →
      old.pendingPaths ⊆ state.pendingPaths ∧ old.sourceGeneration ≤ state.sourceGeneration)
    (h : d.Awaits workspaceId path g) :
    Awaits { d with workspaces := d.workspaces.insert other state } workspaceId path g := by
  obtain ⟨old, hfind, hpath, hgen⟩ := h
  by_cases hid : workspaceId = other
  · obtain ⟨hpaths, hle⟩ := hstate old (by rw [← hid, hfind])
    refine ⟨state, ?_, hpaths hpath, UInt64.le_trans hgen hle⟩
    rw [hid, SortedMap.find?_insert_self]
  · refine ⟨old, ?_, hpath, hgen⟩
    rw [SortedMap.find?_insert_of_ne hid, hfind]

theorem Awaits.observeChange (change : CoalescedWorkspaceChange) (now : Duration)
    (h : d.Awaits workspaceId path g) : (d.observeChange change now).Awaits workspaceId path g := by
  unfold AdaptiveDebouncer.observeChange
  split_ifs
  · exact h
  · refine h.insert ?_
    intro old hfind
    rw [hfind]
    exact ⟨Finset.subset_union_left, word_le_max_left _ _⟩

/-- A change that carries a path hands it to the debouncer. -/
theorem awaits_observeChange {change : CoalescedWorkspaceChange} (now : Duration)
    (h : change.Carries workspaceId path g) :
    (d.observeChange change now).Awaits workspaceId path g := by
  obtain ⟨hid, hpath, hgen⟩ := h
  unfold AdaptiveDebouncer.observeChange
  rw [if_neg (Finset.ne_empty_of_mem hpath), hid]
  refine ⟨_, SortedMap.find?_modify_self .., Finset.mem_union_right _ hpath, ?_⟩
  exact UInt64.le_trans hgen (word_le_max_right _ _)

theorem Awaits.recordCheckpointCompleted (other : String) (sourceGeneration : UInt64)
    (now : Duration) (h : d.Awaits workspaceId path g) :
    (d.recordCheckpointCompleted other sourceGeneration now).Awaits workspaceId path g := by
  refine h.insert ?_
  intro old hfind
  rw [hfind]
  exact ⟨Finset.Subset.refl _, UInt64.le_refl _⟩

theorem Awaits.takePublish (other : String) (now : Duration) (reason : DebounceFlushReason)
    (h : d.Awaits workspaceId path g) :
    (d.takePublish other now reason).1.Awaits workspaceId path g := by
  unfold AdaptiveDebouncer.takePublish
  cases hfind : d.workspaces.find? other with
  | none => exact h
  | some state =>
    cases hgen : state.publishGeneration with
    | none =>
      simp only [hgen]
      exact h
    | some sourceGeneration =>
      simp only [hgen]
      refine h.insert ?_
      intro old hold
      rw [hfind] at hold
      rw [← Option.some.inj hold]
      exact ⟨Finset.Subset.refl _, UInt64.le_refl _⟩

theorem Awaits.takeDuePublish (other : String) (now : Duration) (h : d.Awaits workspaceId path g) :
    (d.takeDuePublish other now).1.Awaits workspaceId path g := by
  unfold AdaptiveDebouncer.takeDuePublish
  split
  · exact h
  · exact h.takePublish other now _

/-! ## Taking checkpoints -/

/-- After a checkpoint was taken or not: the path waits, or it was taken along. -/
def Handled (taken : AdaptiveDebouncer × Option DebouncedCheckpoint) (workspaceId : String)
    (path : PathBuf) (g : UInt64) : Prop :=
  taken.1.Awaits workspaceId path g ∨
    ∃ checkpoint ∈ taken.2, checkpoint.Covers workspaceId path g

theorem Awaits.takeCheckpoint (other : String) (now : Duration) (reason : DebounceFlushReason)
    (h : d.Awaits workspaceId path g) :
    Handled (d.takeCheckpoint other now reason) workspaceId path g := by
  unfold AdaptiveDebouncer.takeCheckpoint
  cases hfind : d.workspaces.find? other with
  | none => exact Or.inl h
  | some state =>
    by_cases hempty : state.pendingPaths = ∅
    · simp only [if_pos hempty]
      exact Or.inl h
    · simp only [if_neg hempty]
      obtain ⟨old, hold, hpath, hgen⟩ := h
      by_cases hid : workspaceId = other
      · -- all pending paths of the workspace go into the request
        rw [hid, hfind] at hold
        rw [← Option.some.inj hold] at hpath hgen
        exact Or.inr ⟨_, rfl, hid.symm, hpath, hgen⟩
      · refine Or.inl ⟨old, ?_, hpath, hgen⟩
        rw [SortedMap.find?_insert_of_ne hid, hold]

theorem Awaits.takeDueCheckpoint (other : String) (now : Duration)
    (h : d.Awaits workspaceId path g) :
    Handled (d.takeDueCheckpoint other now) workspaceId path g := by
  unfold AdaptiveDebouncer.takeDueCheckpoint
  split
  · exact Or.inl h
  · exact h.takeCheckpoint other now _

/-- After part of a drain: the path waits, or one of its checkpoints holds it. -/
def Drained (acc : AdaptiveDebouncer × DebounceDrain) (workspaceId : String) (path : PathBuf)
    (g : UInt64) : Prop :=
  acc.1.Awaits workspaceId path g ∨
    ∃ checkpoint ∈ acc.2.checkpoints, checkpoint.Covers workspaceId path g

theorem Awaits.takeWorkspaces {ids : List String}
    {checkpoint : AdaptiveDebouncer → String → AdaptiveDebouncer × Option DebouncedCheckpoint}
    {publish : AdaptiveDebouncer → String → AdaptiveDebouncer × Option DebouncedPublish}
    (hcheckpoint : ∀ d other, Awaits d workspaceId path g →
      Handled (checkpoint d other) workspaceId path g)
    (hpublish : ∀ d other, Awaits d workspaceId path g →
      (publish d other).1.Awaits workspaceId path g)
    (h : d.Awaits workspaceId path g) :
    Drained (ids.foldl (takeWorkspace checkpoint publish) (d, ⟨[], []⟩)) workspaceId path g := by
  apply List.foldlRecOn (motive := fun acc : AdaptiveDebouncer × DebounceDrain =>
    Drained acc workspaceId path g)
  · exact Or.inl h
  · intro acc hacc other _
    rcases hacc with hawaits | ⟨earlier, hmem, hcovers⟩
    · rcases hcheckpoint acc.1 other hawaits with hstays | ⟨taken, hmem, hcovers⟩
      · exact Or.inl (hpublish _ other hstays)
      · refine Or.inr ⟨taken, List.mem_append_right _ ?_, hcovers⟩
        exact Option.mem_toList.mpr hmem
    · exact Or.inr ⟨earlier, List.mem_append_left _ hmem, hcovers⟩

theorem Awaits.drainDue (now : Duration) (h : d.Awaits workspaceId path g) :
    Drained (d.drainDue now) workspaceId path g :=
  h.takeWorkspaces (fun _ other hd => hd.takeDueCheckpoint other now)
    (fun _ other hd => hd.takeDuePublish other now)

theorem Awaits.flushAll (now : Duration) (reason : DebounceFlushReason)
    (h : d.Awaits workspaceId path g) : Drained (d.flushAll now reason) workspaceId path g :=
  h.takeWorkspaces (fun _ other hd => hd.takeCheckpoint other now reason)
    (fun _ other hd => hd.takePublish other now reason)

end AdaptiveDebouncer

end DevRelay.Background
