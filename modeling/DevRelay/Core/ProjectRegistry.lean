import DevRelay.Lib.SortedMap
import DevRelay.Lib.UnixPath
import Mathlib.Data.String.Basic

/-!
# The project registry

The registry of `config.rs`: the projects of a device by their ids, each with its
workspaces.  `LocalConfig::validate` refuses a registry in which a key is not the
id of its project.
-/

namespace DevRelay.Core

open DevRelay.Lib

inductive WorkspaceState where
  | active
  | inactive
  | stale
  deriving DecidableEq, Repr

structure WorkspaceRegistryEntry where
  workspaceId : String
  projectId : String
  deviceId : String
  localPath : String
  platformProfile : String
  state : WorkspaceState
  lastSeenHead : Option String := none
  lastCheckpointId : Option String := none
  deriving DecidableEq, Repr

structure ProjectRegistryEntry where
  projectId : String
  displayName : String
  localPath : String
  workspaces : SortedMap String WorkspaceRegistryEntry
  manifestPath : Option String
  remoteUrlFingerprint : Option String := none
  rootCommitFingerprint : Option String := none
  deriving DecidableEq

structure ProjectRegistryIndex where
  projects : SortedMap String ProjectRegistryEntry
  keyed : ∀ entry ∈ projects.entries, entry.1 = entry.2.projectId

/-- Equality of paths, as `Path` has it. -/
def samePath (path other : String) : Bool := components path = components other

namespace ProjectRegistryIndex

def workspaceByPath (self : ProjectRegistryIndex) (localPath : String) :
    Option (ProjectRegistryEntry × WorkspaceRegistryEntry) :=
  self.projects.values.findSome? fun project =>
    (project.workspaces.values.find? fun workspace =>
      samePath workspace.localPath localPath).map fun workspace => (project, workspace)

/-- The registry lists the workspace under the project. -/
structure Registers (registry : ProjectRegistryIndex) (project : ProjectRegistryEntry)
    (workspace : WorkspaceRegistryEntry) : Prop where
  known : project ∈ registry.projects.values
  listed : workspace ∈ project.workspaces.values

variable {registry : ProjectRegistryIndex} {localPath : String}
  {project : ProjectRegistryEntry} {workspace : WorkspaceRegistryEntry}

theorem registers_of_workspaceByPath
    (h : registry.workspaceByPath localPath = some (project, workspace)) :
    registry.Registers project workspace ∧ samePath workspace.localPath localPath = true := by
  obtain ⟨found, hfound, heq⟩ := List.exists_of_findSome?_eq_some h
  obtain ⟨there, hthere, hpair⟩ := Option.map_eq_some_iff.mp heq
  cases hpair
  have hpath := List.find?_some
    (p := fun workspace : WorkspaceRegistryEntry => samePath workspace.localPath localPath) hthere
  exact ⟨⟨hfound, List.mem_of_find?_eq_some hthere⟩, hpath⟩

/-- A path under which nothing is registered is found by none. -/
theorem workspaceByPath_eq_none_iff :
    registry.workspaceByPath localPath = none ↔ ∀ project workspace,
      registry.Registers project workspace → samePath workspace.localPath localPath = false := by
  rw [workspaceByPath, List.findSome?_eq_none_iff]
  constructor
  · intro h project workspace hregisters
    have hnone := Option.map_eq_none_iff.mp (h project hregisters.known)
    exact Bool.eq_false_iff.mpr (List.find?_eq_none.mp hnone workspace hregisters.listed)
  · intro h project hproject
    rw [Option.map_eq_none_iff, List.find?_eq_none]
    intro workspace hworkspace
    exact Bool.eq_false_iff.mp (h project workspace ⟨hproject, hworkspace⟩)

/-- The first project with the path is found. -/
theorem projectId_le_of_workspaceByPath
    (h : registry.workspaceByPath localPath = some (project, workspace))
    {other : ProjectRegistryEntry} {there : WorkspaceRegistryEntry}
    (hregisters : registry.Registers other there)
    (hpath : samePath there.localPath localPath = true) :
    project.projectId ≤ other.projectId := by
  obtain ⟨before, found, after, hvalues, hfound, hnone⟩ := List.findSome?_eq_some_iff.mp h
  obtain ⟨_, -, hpair⟩ := Option.map_eq_some_iff.mp hfound
  cases hpair
  have hids : (registry.projects.values.map ProjectRegistryEntry.projectId).Pairwise
      fun a b => a < b := by
    have hkeys : registry.projects.values.map ProjectRegistryEntry.projectId =
        registry.projects.keys := by
      rw [SortedMap.values, SortedMap.keys, List.map_map]
      exact List.map_congr_left fun entry hentry => (registry.keyed entry hentry).symm
    rw [hkeys, SortedMap.keys, List.pairwise_map]
    exact registry.projects.sorted
  have hmem := hregisters.known
  rw [hvalues] at hmem hids
  rcases List.mem_append.mp hmem with hbefore | hafter
  · have hskipped := Option.map_eq_none_iff.mp (hnone other hbefore)
    exact absurd hpath (List.find?_eq_none.mp hskipped there hregisters.listed)
  · rcases List.mem_cons.mp hafter with rfl | hafter
    · exact le_refl _
    · rw [List.map_append, List.map_cons, List.pairwise_append] at hids
      have hlater := (List.pairwise_cons.mp hids.2.1).1 other.projectId
        (List.mem_map_of_mem hafter)
      exact le_of_lt hlater

theorem projectId_mem_keys (h : project ∈ registry.projects.values) :
    project.projectId ∈ registry.projects.keys := by
  obtain ⟨entry, hentry, rfl⟩ := List.mem_map.mp h
  rw [← registry.keyed entry hentry]
  exact List.mem_map_of_mem hentry

end ProjectRegistryIndex

end DevRelay.Core
