import DevRelay.Core.Error
import DevRelay.Lib.Machine
import DevRelay.Lib.Run
import DevRelay.Lib.SortedMap
import Mathlib.Data.Finset.Basic
import Mathlib.Data.String.Basic

/-!
# The watch state

Turns raw file-system events into change hints.  Every path of an event goes to
the deepest registered workspace that holds it; a workspace with changed paths
gets the next generation, and its paths wait until they are collected.
-/

namespace DevRelay.Background

open DevRelay.Core DevRelay.Lib

/-- A component of a Unix path; a name is any sequence of bytes. -/
inductive PathComponent where
  | rootDir
  | curDir
  | parentDir
  | normal (name : List UInt8)
  deriving DecidableEq, Repr

/-- Paths are compared and stripped component by component. -/
abbrev PathBuf := List PathComponent

def rootRelativePath : PathBuf := [.curDir]

/-- `path.strip_prefix(root)` -/
def stripPrefix : PathBuf → PathBuf → Option PathBuf
  | path, [] => some path
  | [], _ :: _ => none
  | c :: path, r :: root => if c = r then stripPrefix path root else none

inductive FilesystemEventKind where
  | create
  | modify
  | remove
  | rename
  | other
  deriving DecidableEq, Repr

structure FilesystemRawEvent where
  kind : FilesystemEventKind
  paths : List PathBuf
  deriving DecidableEq, Repr

structure WorkspaceWatch where
  workspaceId : String
  root : PathBuf
  deriving DecidableEq, Repr

def WorkspaceWatch.validate (watch : WorkspaceWatch) : Except DevRelayError Unit :=
  if watch.workspaceId.toList.all isSpace then
    .error (.watcher "workspace watch id must not be empty")
  else if watch.root = [] then
    .error (.watcher "workspace watch root must not be empty")
  else
    .ok ()

/-- The path as seen from the root of the watch, if it lies there. -/
def WorkspaceWatch.relativePath (watch : WorkspaceWatch) (path : PathBuf) : Option PathBuf :=
  (stripPrefix path watch.root).map fun rest => if rest = [] then rootRelativePath else rest

/-- The paths are those of an ordered set. -/
structure WorkspaceChangeHint where
  workspaceId : String
  sourceGeneration : UInt64
  kind : FilesystemEventKind
  paths : Finset PathBuf
  deriving DecidableEq

structure CoalescedWorkspaceChange where
  workspaceId : String
  sourceGeneration : UInt64
  paths : Finset PathBuf
  deriving DecidableEq

/-- The change takes the path along, under generation `g` or a later one. -/
def CoalescedWorkspaceChange.Carries (change : CoalescedWorkspaceChange)
    (workspaceId : String) (path : PathBuf) (g : UInt64) : Prop :=
  change.workspaceId = workspaceId ∧ path ∈ change.paths ∧ g ≤ change.sourceGeneration

/-- `keyed`: a watch is stored under its own id. -/
structure FilesystemWatchState where
  workspaces : SortedMap String WorkspaceWatch
  sourceGenerations : SortedMap String UInt64
  pendingPaths : SortedMap String (Finset PathBuf)
  keyed : ∀ entry ∈ workspaces.entries, entry.2.workspaceId = entry.1

namespace FilesystemWatchState

/-- `FilesystemWatchState::default` -/
def new : FilesystemWatchState where
  workspaces := .empty
  sourceGenerations := .empty
  pendingPaths := .empty
  keyed := fun _ h => absurd h List.not_mem_nil

/-- The store of a workspace that passed its check. -/
def store (s : FilesystemWatchState) (watch : WorkspaceWatch) : FilesystemWatchState where
  workspaces := s.workspaces.insert watch.workspaceId watch
  sourceGenerations := s.sourceGenerations.modify watch.workspaceId 0 id
  pendingPaths := s.pendingPaths.modify watch.workspaceId ∅ id
  keyed := SortedMap.forall_entries_insert s.keyed rfl

def registerWorkspace (s : FilesystemWatchState) (watch : WorkspaceWatch) :
    Except DevRelayError FilesystemWatchState := do
  watch.validate
  return s.store watch

def sourceGeneration (s : FilesystemWatchState) (workspaceId : String) : Option UInt64 :=
  s.sourceGenerations.find? workspaceId

/-- The workspace of a path and the path relative to it. -/
def matchWorkspace (s : FilesystemWatchState) (path : PathBuf) : Option (String × PathBuf) :=
  let candidates := s.workspaces.values.filterMap fun watch =>
    (watch.relativePath path).map fun relativePath =>
      (watch.workspaceId, watch.root.length, relativePath)
  -- `max_by_key` keeps the last of several maximal candidates
  (candidates.reverse.argmax fun candidate => candidate.2.1).map fun candidate =>
    (candidate.1, candidate.2.2)

/-- The changed paths of an event under their workspaces. -/
def groupByWorkspace (s : FilesystemWatchState) (paths : List PathBuf) :
    SortedMap String (Finset PathBuf) :=
  paths.foldl (fun byWorkspace path =>
    match s.matchWorkspace path with
    | some (workspaceId, relativePath) =>
      byWorkspace.modify workspaceId ∅ (insert relativePath)
    | none => byWorkspace) .empty

/-- The next generation of one workspace, its pending paths and its hint. -/
def hintWorkspace (kind : FilesystemEventKind)
    (acc : FilesystemWatchState × List WorkspaceChangeHint)
    (entry : String × Finset PathBuf) : FilesystemWatchState × List WorkspaceChangeHint :=
  let generation := saturatingAdd ((acc.1.sourceGenerations.find? entry.1).getD 0) 1
  ({ acc.1 with
      sourceGenerations := acc.1.sourceGenerations.insert entry.1 generation
      pendingPaths := acc.1.pendingPaths.modify entry.1 ∅ (· ∪ entry.2) },
    acc.2 ++ [{ workspaceId := entry.1, sourceGeneration := generation, kind := kind,
                paths := entry.2 }])

def observeRawEvent (s : FilesystemWatchState) (event : FilesystemRawEvent) :
    FilesystemWatchState × List WorkspaceChangeHint :=
  (s.groupByWorkspace event.paths).entries.foldl (hintWorkspace event.kind) (s, [])

/-- Takes the pending paths of one workspace. -/
def drainWorkspace (acc : FilesystemWatchState × List CoalescedWorkspaceChange)
    (workspaceId : String) : FilesystemWatchState × List CoalescedWorkspaceChange :=
  match acc.1.pendingPaths.find? workspaceId with
  | none => acc
  | some paths =>
    if paths = ∅ then acc
    else
      ({ acc.1 with pendingPaths := acc.1.pendingPaths.insert workspaceId ∅ },
        acc.2 ++ [{ workspaceId := workspaceId,
                    sourceGeneration := (acc.1.sourceGeneration workspaceId).getD 0,
                    paths := paths }])

def drainCoalesced (s : FilesystemWatchState) :
    FilesystemWatchState × List CoalescedWorkspaceChange :=
  s.pendingPaths.keys.foldl drainWorkspace (s, [])

/-! ## Which workspace a path belongs to -/

/-- `watch` is the deepest registered watch above `path`, and of equally deep
ones the last by id. -/
def Deepest (s : FilesystemWatchState) (path : PathBuf) (watch : WorkspaceWatch) : Prop :=
  watch ∈ s.workspaces.values ∧ (watch.relativePath path).isSome ∧
    ∀ other ∈ s.workspaces.values, (other.relativePath path).isSome →
      other.root.length < watch.root.length ∨
        (other.root.length = watch.root.length ∧ other.workspaceId ≤ watch.workspaceId)

theorem values_sorted (s : FilesystemWatchState) :
    s.workspaces.values.Pairwise fun a b => a.workspaceId < b.workspaceId := by
  rw [SortedMap.values, List.pairwise_map]
  apply s.workspaces.sorted.imp_of_mem
  intro a b ha hb hlt
  rw [s.keyed a ha, s.keyed b hb]
  exact hlt

theorem matchWorkspace_isSome {s : FilesystemWatchState} {path : PathBuf}
    {watch : WorkspaceWatch} (hwatch : watch ∈ s.workspaces.values)
    (hinside : (watch.relativePath path).isSome) : (s.matchWorkspace path).isSome := by
  obtain ⟨relativePath, hrelative⟩ := Option.isSome_iff_exists.mp hinside
  rw [matchWorkspace, Option.isSome_map, Option.isSome_iff_ne_none, ne_eq,
    List.argmax_eq_none, List.reverse_eq_nil_iff, List.filterMap_eq_nil_iff]
  intro hnone
  have hcandidate := hnone watch hwatch
  rw [hrelative] at hcandidate
  cases hcandidate

theorem matchWorkspace_eq_some {s : FilesystemWatchState} {path relativePath : PathBuf}
    {workspaceId : String} (h : s.matchWorkspace path = some (workspaceId, relativePath)) :
    ∃ watch, s.Deepest path watch ∧ watch.workspaceId = workspaceId ∧
      watch.relativePath path = some relativePath := by
  unfold matchWorkspace at h
  extract_lets candidates at h
  obtain ⟨best, hbest, hpair⟩ := Option.map_eq_some_iff.mp h
  have hmem := List.argmax_mem (Option.mem_def.mpr hbest)
  have hids : candidates.reverse.Pairwise fun a b => b.1 < a.1 := by
    rw [List.pairwise_reverse, List.pairwise_filterMap]
    apply s.values_sorted.imp
    intro a b hlt ca hca cb hcb
    obtain ⟨_, -, rfl⟩ := Option.map_eq_some_iff.mp hca
    obtain ⟨_, -, rfl⟩ := Option.map_eq_some_iff.mp hcb
    exact hlt
  have hcandidate : ∀ watch ∈ s.workspaces.values, ∀ rel, watch.relativePath path = some rel →
      (watch.workspaceId, watch.root.length, rel) ∈ candidates.reverse := by
    intro watch hwatch rel hrel
    rw [List.mem_reverse, List.mem_filterMap]
    exact ⟨watch, hwatch, by rw [hrel, Option.map_some]⟩
  rw [List.mem_reverse, List.mem_filterMap] at hmem
  obtain ⟨watch, hwatch, hmap⟩ := hmem
  obtain ⟨rel, hrel, heq⟩ := Option.map_eq_some_iff.mp hmap
  have hrest : rel = relativePath := by rw [← heq] at hpair; exact (Prod.mk.inj hpair).2
  have hid : watch.workspaceId = workspaceId := by
    rw [← heq] at hpair
    exact (Prod.mk.inj hpair).1
  refine ⟨watch, ⟨hwatch, by rw [hrel]; rfl, ?_⟩, hid, by rw [hrel, hrest]⟩
  intro other hother hinside
  obtain ⟨otherRel, hotherRel⟩ := Option.isSome_iff_exists.mp hinside
  have hin := hcandidate other hother otherRel hotherRel
  rcases argmax_first hids (Option.mem_def.mpr hbest) hin with hlt | ⟨hsame, hlast⟩
  · rw [← heq] at hlt
    exact Or.inl hlt
  · rw [← heq] at hsame hlast
    refine Or.inr ⟨hsame, ?_⟩
    rcases hlast with hself | hafter
    · exact le_of_eq (Prod.mk.inj hself).1.symm
    · exact le_of_lt hafter

/-! ## Pending paths and generations -/

def pending (s : FilesystemWatchState) (workspaceId : String) : Finset PathBuf :=
  (s.pendingPaths.find? workspaceId).getD ∅

def generation (s : FilesystemWatchState) (workspaceId : String) : UInt64 :=
  (s.sourceGeneration workspaceId).getD 0

/-- The path waits to be collected, under generation `g` or a later one. -/
def Awaits (s : FilesystemWatchState) (workspaceId : String) (path : PathBuf) (g : UInt64) : Prop :=
  path ∈ s.pending workspaceId ∧ g ≤ s.generation workspaceId

variable {s : FilesystemWatchState} {kind : FilesystemEventKind}
  {acc : FilesystemWatchState × List WorkspaceChangeHint} {entry : String × Finset PathBuf}
  {workspaceId : String} {path : PathBuf} {g : UInt64}

theorem pending_hintWorkspace :
    (hintWorkspace kind acc entry).1.pending workspaceId =
      if workspaceId = entry.1 then acc.1.pending workspaceId ∪ entry.2
      else acc.1.pending workspaceId := by
  unfold pending hintWorkspace SortedMap.modify
  rw [SortedMap.find?_insert]
  split_ifs with h
  · rw [h]
    rfl
  · rfl

theorem generation_hintWorkspace :
    (hintWorkspace kind acc entry).1.generation workspaceId =
      if workspaceId = entry.1 then saturatingAdd (acc.1.generation workspaceId) 1
      else acc.1.generation workspaceId := by
  unfold generation sourceGeneration hintWorkspace
  rw [SortedMap.find?_insert]
  split_ifs with h
  · rw [h]
    rfl
  · rfl

theorem generation_le_hintWorkspace :
    acc.1.generation workspaceId ≤ (hintWorkspace kind acc entry).1.generation workspaceId := by
  rw [generation_hintWorkspace]
  split_ifs
  · exact le_saturatingAdd _ _
  · exact UInt64.le_refl _

theorem Awaits.hintWorkspace (h : acc.1.Awaits workspaceId path g) :
    (hintWorkspace kind acc entry).1.Awaits workspaceId path g := by
  refine ⟨?_, UInt64.le_trans h.2 generation_le_hintWorkspace⟩
  rw [pending_hintWorkspace]
  split_ifs
  · exact Finset.mem_union_left _ h.1
  · exact h.1

theorem Awaits.observeRawEvent (event : FilesystemRawEvent)
    (h : s.Awaits workspaceId path g) : (s.observeRawEvent event).1.Awaits workspaceId path g := by
  unfold FilesystemWatchState.observeRawEvent
  apply List.foldlRecOn (motive := fun acc : FilesystemWatchState × List WorkspaceChangeHint =>
    acc.1.Awaits workspaceId path g)
  · exact h
  · intro acc hacc entry _
    exact hacc.hintWorkspace

theorem pending_store (s : FilesystemWatchState) (watch : WorkspaceWatch) (workspaceId : String) :
    (s.store watch).pending workspaceId = s.pending workspaceId := by
  unfold pending store SortedMap.modify
  rw [SortedMap.find?_insert]
  split_ifs with h
  · rw [h]
    rfl
  · rfl

theorem generation_store (s : FilesystemWatchState) (watch : WorkspaceWatch)
    (workspaceId : String) :
    (s.store watch).generation workspaceId = s.generation workspaceId := by
  unfold generation sourceGeneration store SortedMap.modify
  rw [SortedMap.find?_insert]
  split_ifs with h
  · rw [h]
    rfl
  · rfl

theorem Awaits.store (watch : WorkspaceWatch) (h : s.Awaits workspaceId path g) :
    (s.store watch).Awaits workspaceId path g := by
  rw [Awaits, pending_store, generation_store]
  exact h

/-! ## Grouping -/

/-- A path of the event stands in the group of its workspace. -/
theorem mem_groupByWorkspace {paths : List PathBuf} {relativePath : PathBuf}
    (hpath : path ∈ paths) (hmatch : s.matchWorkspace path = some (workspaceId, relativePath)) :
    ∃ group, (workspaceId, group) ∈ (s.groupByWorkspace paths).entries ∧ relativePath ∈ group := by
  suffices h : ∃ group, (s.groupByWorkspace paths).find? workspaceId = some group ∧
      relativePath ∈ group by
    obtain ⟨group, hfind, hmem⟩ := h
    exact ⟨group, SortedMap.mem_entries_of_find? hfind, hmem⟩
  unfold groupByWorkspace
  apply foldl_of_mem (P := fun byWorkspace : SortedMap String (Finset PathBuf) =>
    ∃ group, byWorkspace.find? workspaceId = some group ∧ relativePath ∈ group) hpath
  · intro byWorkspace
    rw [hmatch]
    exact ⟨_, SortedMap.find?_modify_self .., Finset.mem_insert_self ..⟩
  · intro byWorkspace other h
    obtain ⟨group, hfind, hmem⟩ := h
    split
    · rename_i otherId otherPath _
      by_cases hid : workspaceId = otherId
      · rw [← hid, SortedMap.find?_modify_self, hfind]
        exact ⟨_, rfl, Finset.mem_insert_of_mem hmem⟩
      · rw [SortedMap.find?_modify_of_ne hid]
        exact ⟨group, hfind, hmem⟩
    · exact ⟨group, hfind, hmem⟩

/-- An observed path of a workspace is in a hint and waits under its generation. -/
theorem observeRawEvent_hint {event : FilesystemRawEvent} {relativePath : PathBuf}
    (hpath : path ∈ event.paths)
    (hmatch : s.matchWorkspace path = some (workspaceId, relativePath)) :
    ∃ hint ∈ (s.observeRawEvent event).2, hint.workspaceId = workspaceId ∧
      relativePath ∈ hint.paths ∧
      (s.observeRawEvent event).1.Awaits workspaceId relativePath hint.sourceGeneration := by
  obtain ⟨group, hentry, hrelative⟩ := mem_groupByWorkspace hpath hmatch
  unfold FilesystemWatchState.observeRawEvent
  apply foldl_of_mem (P := fun acc : FilesystemWatchState × List WorkspaceChangeHint =>
    ∃ hint ∈ acc.2, hint.workspaceId = workspaceId ∧ relativePath ∈ hint.paths ∧
      acc.1.Awaits workspaceId relativePath hint.sourceGeneration) hentry
  · intro acc
    refine ⟨_, List.mem_append_right _ (List.mem_singleton_self _), rfl, hrelative, ?_, ?_⟩
    · rw [pending_hintWorkspace, if_pos rfl]
      exact Finset.mem_union_right _ hrelative
    · rw [generation_hintWorkspace, if_pos rfl]
      exact UInt64.le_refl _
  · intro acc entry h
    obtain ⟨hint, hmem, hid, hin, hawaits⟩ := h
    exact ⟨hint, List.mem_append_left _ hmem, hid, hin, hawaits.hintWorkspace⟩

theorem workspaces_observeRawEvent (s : FilesystemWatchState) (event : FilesystemRawEvent) :
    (s.observeRawEvent event).1.workspaces = s.workspaces := by
  unfold FilesystemWatchState.observeRawEvent
  apply List.foldlRecOn (motive := fun acc : FilesystemWatchState × List WorkspaceChangeHint =>
    acc.1.workspaces = s.workspaces)
  · rfl
  · intro acc hacc entry _
    exact hacc

/-- The grouping only reads which workspaces are registered. -/
theorem groupByWorkspace_congr {t : FilesystemWatchState} (h : s.workspaces = t.workspaces)
    (paths : List PathBuf) : s.groupByWorkspace paths = t.groupByWorkspace paths := by
  have hmatch : s.matchWorkspace = t.matchWorkspace := by
    funext path
    rw [matchWorkspace, matchWorkspace, h]
  rw [groupByWorkspace, groupByWorkspace, hmatch]

/-- An event gives one hint to each workspace with changed paths. -/
theorem workspaceIds_observeRawEvent (s : FilesystemWatchState) (event : FilesystemRawEvent) :
    (s.observeRawEvent event).2.map WorkspaceChangeHint.workspaceId =
      (s.groupByWorkspace event.paths).keys := by
  have hfold : ∀ (entries : List (String × Finset PathBuf))
      (acc : FilesystemWatchState × List WorkspaceChangeHint),
      (entries.foldl (FilesystemWatchState.hintWorkspace event.kind) acc).2.map
          WorkspaceChangeHint.workspaceId =
        acc.2.map WorkspaceChangeHint.workspaceId ++ entries.map Prod.fst := by
    intro entries
    induction entries with
    | nil =>
      intro acc
      rw [List.foldl_nil, List.map_nil, List.append_nil]
    | cons entry rest ih =>
      intro acc
      rw [List.foldl_cons, ih]
      simp [FilesystemWatchState.hintWorkspace]
  exact hfold _ _

/-! ## Collecting -/

/-- The path waits, or one of the changes taken so far carries it. -/
def Collected (acc : FilesystemWatchState × List CoalescedWorkspaceChange)
    (workspaceId : String) (path : PathBuf) (g : UInt64) : Prop :=
  acc.1.Awaits workspaceId path g ∨ ∃ change ∈ acc.2, change.Carries workspaceId path g

theorem Collected.drainWorkspace {acc : FilesystemWatchState × List CoalescedWorkspaceChange}
    (other : String) (h : Collected acc workspaceId path g) :
    Collected (drainWorkspace acc other) workspaceId path g := by
  unfold FilesystemWatchState.drainWorkspace
  cases hfind : acc.1.pendingPaths.find? other with
  | none => exact h
  | some paths =>
    by_cases hempty : paths = ∅
    · simp only [if_pos hempty]
      exact h
    · simp only [if_neg hempty]
      rcases h with hawaits | ⟨change, hmem, hcarries⟩
      · by_cases hid : workspaceId = other
        · refine Or.inr ⟨_, List.mem_append_right _ (List.mem_singleton_self _), hid.symm, ?_⟩
          obtain ⟨hpath, hgen⟩ := hawaits
          rw [pending, hid, hfind] at hpath
          rw [generation, hid] at hgen
          exact ⟨hpath, hgen⟩
        · refine Or.inl ⟨?_, hawaits.2⟩
          rw [pending, SortedMap.find?_insert_of_ne hid]
          exact hawaits.1
      · exact Or.inr ⟨change, List.mem_append_left _ hmem, hcarries⟩

theorem Awaits.drainCoalesced (h : s.Awaits workspaceId path g) :
    Collected s.drainCoalesced workspaceId path g := by
  unfold FilesystemWatchState.drainCoalesced
  apply List.foldlRecOn (motive := fun acc => Collected acc workspaceId path g)
  · exact Or.inl h
  · intro acc hacc other _
    exact hacc.drainWorkspace other

theorem generation_drainCoalesced (s : FilesystemWatchState) (workspaceId : String) :
    s.drainCoalesced.1.generation workspaceId = s.generation workspaceId := by
  unfold FilesystemWatchState.drainCoalesced
  apply List.foldlRecOn (motive := fun acc : FilesystemWatchState × List CoalescedWorkspaceChange =>
    acc.1.generation workspaceId = s.generation workspaceId)
  · rfl
  · intro acc hacc other _
    rw [← hacc]
    unfold FilesystemWatchState.drainWorkspace
    split
    · rfl
    · split
      · rfl
      · rfl

/-! ## Generations of successive hints -/

/-- The value at which the generation counter stops. -/
def lastGeneration : UInt64 := 0xffffffffffffffff

/-- A later generation: a larger one, or the last one again. -/
def Follows (g g' : UInt64) : Prop := g < g' ∨ (g = lastGeneration ∧ g' = lastGeneration)

theorem follows_saturatingAdd {a b : UInt64} (h : a ≤ b) : Follows a (saturatingAdd b 1) := by
  have hle := UInt64.le_iff_toNat_le.mp h
  have hlt := b.toNat_lt
  have hone : (1 : UInt64).toNat = 1 := rfl
  have hlast : lastGeneration.toNat = 2 ^ 64 - 1 := rfl
  have hsum : (saturatingAdd b 1).toNat = min (b.toNat + 1) (2 ^ 64 - 1) := by
    rw [toNat_saturatingAdd, hone]
  by_cases ha : a = lastGeneration
  · refine Or.inr ⟨ha, ?_⟩
    rw [ha, hlast] at hle
    rw [← UInt64.toNat_inj, hsum, hlast]
    omega
  · rw [← UInt64.toNat_inj, hlast] at ha
    have hbound := a.toNat_lt
    left
    rw [UInt64.lt_iff_toNat_lt, hsum]
    omega

/-- The hints given out so far: of two hints of one workspace the second has
the later generation, and the state remembers the last one. -/
def HintsIncrease (s : FilesystemWatchState) (hints : List WorkspaceChangeHint) : Prop :=
  (hints.Pairwise fun hint later => hint.workspaceId = later.workspaceId →
      Follows hint.sourceGeneration later.sourceGeneration) ∧
    ∀ hint ∈ hints, hint.sourceGeneration ≤ s.generation hint.workspaceId

theorem HintsIncrease.hintWorkspace {earlier : List WorkspaceChangeHint}
    (h : HintsIncrease acc.1 (earlier ++ acc.2)) :
    HintsIncrease (hintWorkspace kind acc entry).1
      (earlier ++ (hintWorkspace kind acc entry).2) := by
  have hlog : earlier ++ (FilesystemWatchState.hintWorkspace kind acc entry).2 =
      (earlier ++ acc.2) ++ [{
        workspaceId := entry.1
        sourceGeneration := saturatingAdd (acc.1.generation entry.1) 1
        kind := kind
        paths := entry.2 }] := by
    rw [List.append_assoc]
    rfl
  rw [hlog]
  constructor
  · rw [List.pairwise_append]
    refine ⟨h.1, List.pairwise_singleton _ _, ?_⟩
    intro hint hmem later hlater hid
    rw [List.mem_singleton.mp hlater] at hid ⊢
    have hle := h.2 hint hmem
    rw [hid] at hle
    exact follows_saturatingAdd hle
  · intro hint hmem
    rcases List.mem_append.mp hmem with hold | hnew
    · exact UInt64.le_trans (h.2 hint hold) generation_le_hintWorkspace
    · rw [List.mem_singleton.mp hnew, generation_hintWorkspace, if_pos rfl]
      exact UInt64.le_refl _

theorem HintsIncrease.observeRawEvent {earlier : List WorkspaceChangeHint}
    (event : FilesystemRawEvent) (h : HintsIncrease s earlier) :
    HintsIncrease (s.observeRawEvent event).1 (earlier ++ (s.observeRawEvent event).2) := by
  unfold FilesystemWatchState.observeRawEvent
  apply List.foldlRecOn (motive := fun acc : FilesystemWatchState × List WorkspaceChangeHint =>
    HintsIncrease acc.1 (earlier ++ acc.2))
  · rw [List.append_nil]
    exact h
  · intro acc hacc entry _
    exact hacc.hintWorkspace

end FilesystemWatchState

end DevRelay.Background
