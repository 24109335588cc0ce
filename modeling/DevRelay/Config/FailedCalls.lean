import DevRelay.Config.Calls

/-!
# Failed calls

A call that fails leaves the configuration and its file as they were exactly if it is refused
before it changes the configuration, or changes nothing.
-/

namespace DevRelay.Config

open DevRelay.Lib DevRelay.Core

inductive ConfigCall where
  | settingsUpdate (params : SettingsUpdateParams)
  | projectsAdd (params : ProjectsAddParams)
  | projectsRemove (idOrName : String)
  | recoverOpen (params : RecoverOpenParams)

variable (env : ConfigEnv)

def ConfigCall.run : ConfigCall → ConfigState → Except RpcError Unit × ConfigState
  | settingsUpdate params, state =>
    let (result, state) := handleSettingsUpdate env params state
    (result.map fun _ => (), state)
  | projectsAdd params, state =>
    let (result, state) := handleProjectsAdd env params state
    (result.map fun _ => (), state)
  | projectsRemove idOrName, state =>
    let (result, state) := handleProjectsRemove env idOrName state
    (result.map fun _ => (), state)
  | recoverOpen params, state =>
    let (result, state) := handleRecoverOpen env { params with register := true } state
    (result.map fun _ => (), state)

/-! ## What was asked for -/

/-- The project is there as it was, with these workspaces, and with what was not known of it. -/
structure Extends (old new entry : ProjectRegistryEntry) : Prop where
  projectId : new.projectId = old.projectId
  displayName : new.displayName = old.displayName
  localPath : new.localPath = old.localPath
  manifestPath : new.manifestPath = old.manifestPath.or entry.manifestPath
  remoteUrlFingerprint :
    new.remoteUrlFingerprint = old.remoteUrlFingerprint.or entry.remoteUrlFingerprint
  rootCommitFingerprint :
    new.rootCommitFingerprint = old.rootCommitFingerprint.or entry.rootCommitFingerprint
  workspaces : ∀ id,
    new.workspaces.find? id = (entry.workspaces.find? id).or (old.workspaces.find? id)

/-- Only this project differs. -/
structure OnlyProject (projectId : String) (before after : LocalConfig) : Prop where
  settings : after = { before with projects := after.projects }
  others : ∀ id, id ≠ projectId → after.projects.find? id = before.projects.find? id

structure Added (entry : ProjectRegistryEntry) (before after : LocalConfig) : Prop where
  only : OnlyProject entry.projectId before after
  new : before.projects.find? entry.projectId = none →
    after.projects.find? entry.projectId = some entry
  known : ∀ old, before.projects.find? entry.projectId = some old →
    ∃ new, after.projects.find? entry.projectId = some new ∧ Extends old new entry

structure Removed (project : ProjectRegistryEntry) (before after : LocalConfig) : Prop where
  only : OnlyProject project.projectId before after
  there : before.projects.find? project.projectId = some project
  gone : after.projects.find? project.projectId = none

structure Registered (projectId : String) (workspace : WorkspaceRegistryEntry)
    (before after : LocalConfig) : Prop where
  only : OnlyProject projectId before after
  listed : ∃ project, before.projects.find? projectId = some project ∧
    after.projects.find? projectId = some { project with
      workspaces := project.workspaces.insert workspace.workspaceId workspace }

/-- The configuration after a call is the one before with the change that was asked for. -/
def Requested (before after : LocalConfig) : ConfigCall → Prop
  | .settingsUpdate params => after = { before with
      resourceProfile := params.resourceProfile.getD before.resourceProfile
      mdnsEnabled := params.mdnsEnabled.getD before.mdnsEnabled
      editorCommand := params.editorCommand.getD before.editorCommand }
  | .projectsAdd params =>
    ∃ entry, buildProjectRegistryEntry env params before.deviceId = .ok entry ∧
      Added entry before after
  | .projectsRemove idOrName =>
    ∃ project, findProject before idOrName = some project ∧ Removed project before after
  | .recoverOpen params =>
    ∃ recovered root, env.recover { params with register := true } before = .ok recovered ∧
      env.showToplevel recovered.path = some root ∧
      Registered recovered.projectId
        (workspaceEntry env recovered.projectId before.deviceId root) before after

/-- A failed call has changed nothing, and one that succeeded has made the change that was asked
for, in memory and in the file. -/
structure AllOrNothing (call : ConfigCall) (before : ConfigState)
    (outcome : Except RpcError Unit × ConfigState) : Prop where
  failed : ∀ e, outcome.1 = .error e → outcome.2 = before
  done : outcome.1 = .ok () → Requested env before.config outcome.2.config call ∧
    outcome.2.config.IsIn env.files outcome.2.file

/-! ## When calls hold to it -/

/-- The call is refused before it changes the configuration, or nothing goes wrong behind the
change, or there is no change. -/
def FailsEarly (before : ConfigState) : ConfigCall → Prop
  | .settingsUpdate params =>
    if params.blankCommand then params.applyFlags before.config = before.config
    else (params.apply before.config).CanBeSaved env.files ∨
      params.apply before.config = before.config ∧
        before.config.LeavesFile env.files before.file
  | .projectsAdd params => ∀ entry, admitProject env params before.config = .ok entry →
      (mergeProjectRegistryEntry before.config entry).CanBeSaved env.files ∧
        announceProject env entry = .ok ()
  | .projectsRemove idOrName => ∀ project, findProject before.config idOrName = some project →
      before.config.projects.find? project.projectId ≠ none →
        (removeProject before.config project.projectId).CanBeSaved env.files
  | .recoverOpen params => ∀ recovered workspace config,
      env.recover { params with register := true } before.config = .ok recovered →
      registerRecoveryWorkspace env before.config recovered = .ok (workspace, config) →
        config.CanBeSaved env.files ∧ env.publishWorkspaceStateChanged workspace = .ok ()

section

variable {env} {call : ConfigCall} {before : ConfigState} {config : LocalConfig}

/-! ## The save behind a change -/

theorem saveChanged_of_canBeSaved (file : Option (List UInt8)) (h : config.CanBeSaved env.files) :
    ∃ written, saveChanged env config file = (.ok (), ⟨config, written⟩) ∧
      config.IsIn env.files written := by
  obtain ⟨hok, hin⟩ := LocalConfig.save_of_canBeSaved file h
  refine ⟨_, ?_, hin⟩
  rw [saveChanged, hok]
  rfl

theorem saveChanged_of_not_canBeSaved (file : Option (List UInt8))
    (h : ¬config.CanBeSaved env.files) :
    ∃ e left, saveChanged env config file = (.error e, ⟨config, left⟩) ∧
      (left = file ↔ config.LeavesFile env.files file) := by
  obtain ⟨⟨e, herror⟩, hleft⟩ := LocalConfig.save_of_not_canBeSaved file h
  refine ⟨.internal (.devRelay e), _, ?_, hleft⟩
  rw [saveChanged, herror]
  rfl

/-- Where nothing was begun there is nothing to undo. -/
theorem allOrNothing_refused (e : RpcError) : AllOrNothing env call before (.error e, before) :=
  ⟨fun _ _ => rfl, fun hok => nomatch hok⟩

/-- Save a change, and finish the call. -/
def saveAnd (env : ConfigEnv) (config : LocalConfig) (file : Option (List UInt8))
    (finish : Except RpcError Unit) : Except RpcError Unit × ConfigState :=
  let (saved, state) := saveChanged env config file
  match saved with
  | .error e => (.error e, state)
  | .ok _ => (finish, state)

/-- Behind a change nothing may go wrong. -/
theorem saveAnd_iff {finish : Except RpcError Unit} (hne : config ≠ before.config)
    (hrequested : config.CanBeSaved env.files → Requested env before.config config call) :
    AllOrNothing env call before (saveAnd env config before.file finish) ↔
      config.CanBeSaved env.files ∧ finish = .ok () := by
  rw [saveAnd]
  by_cases hsaved : config.CanBeSaved env.files
  · obtain ⟨written, hwritten, hin⟩ := saveChanged_of_canBeSaved before.file hsaved
    rw [hwritten]
    constructor
    · intro h
      cases hfinish : finish with
      | ok _ => exact ⟨hsaved, rfl⟩
      | error e => exact absurd (congrArg ConfigState.config (h.failed e hfinish)) hne
    · rintro ⟨-, rfl⟩
      exact ⟨fun e herror => (nomatch herror), fun _ => ⟨hrequested hsaved, hin⟩⟩
  · obtain ⟨e, left, hleft, -⟩ := saveChanged_of_not_canBeSaved before.file hsaved
    rw [hleft]
    constructor
    · intro h
      exact absurd (congrArg ConfigState.config (h.failed e rfl)) hne
    · exact fun h => absurd h.1 hsaved

/-! ## Settings -/

theorem run_settingsUpdate {params : SettingsUpdateParams} (h : params.blankCommand = false) :
    (ConfigCall.settingsUpdate params).run env before =
      saveAnd env (params.apply before.config) before.file (.ok ()) := by
  rw [ConfigCall.run, handleSettingsUpdate, if_neg (by rw [h]; decide), saveAnd]
  dsimp only
  cases (saveChanged env (params.apply before.config) before.file).1 <;> rfl

theorem settingsUpdate_iff (params : SettingsUpdateParams) :
    AllOrNothing env (.settingsUpdate params) before
        ((ConfigCall.settingsUpdate params).run env before) ↔
      FailsEarly env before (.settingsUpdate params) := by
  rw [FailsEarly]
  cases hblank : params.blankCommand with
  | true =>
    rw [if_pos rfl, ConfigCall.run, handleSettingsUpdate, if_pos hblank]
    constructor
    · intro h
      exact congrArg ConfigState.config (h.failed _ rfl)
    · intro h
      dsimp only
      rw [h]
      exact allOrNothing_refused _
  | false =>
    rw [if_neg Bool.false_ne_true, run_settingsUpdate hblank]
    by_cases hsame : params.apply before.config = before.config
    · by_cases hsaved : (params.apply before.config).CanBeSaved env.files
      · obtain ⟨written, hwritten, hin⟩ := saveChanged_of_canBeSaved before.file hsaved
        rw [saveAnd, hwritten]
        exact iff_of_true ⟨fun e herror => (nomatch herror), fun _ => ⟨rfl, hin⟩⟩
          (Or.inl hsaved)
      · obtain ⟨e, left, hleft, hkept⟩ :=
          saveChanged_of_not_canBeSaved before.file hsaved
        rw [saveAnd, hleft]
        rw [hsame] at hkept hsaved ⊢
        constructor
        · intro h
          exact Or.inr ⟨rfl, hkept.mp (congrArg ConfigState.file (h.failed e rfl))⟩
        · rintro (hcan | ⟨-, hleaves⟩)
          · exact absurd hcan hsaved
          · rw [hkept.mpr hleaves]
            exact allOrNothing_refused e
    · have hrequested : (params.apply before.config).CanBeSaved env.files →
          Requested env before.config (params.apply before.config) (.settingsUpdate params) :=
        fun _ => rfl
      rw [saveAnd_iff hsame hrequested]
      constructor
      · exact fun h => Or.inl h.1
      · rintro (hcan | ⟨heq, -⟩)
        · exact ⟨hcan, rfl⟩
        · exact absurd heq hsame

/-! ## Projects -/

theorem samePath_refl (path : String) : samePath path path = true := decide_eq_true rfl

/-- Where a path is not registered, no workspace of a project has it. -/
theorem not_listed {path : String} (h : ensureWorkspaceNotRegistered config path = .ok ())
    {projectId id : String} {project : ProjectRegistryEntry} {workspace : WorkspaceRegistryEntry}
    (hproject : config.projects.find? projectId = some project)
    (hworkspace : project.workspaces.find? id = some workspace) :
    workspace.localPath ≠ path := by
  rintro rfl
  have hnone : workspaceByPath config workspace.localPath = none := by
    rw [ensureWorkspaceNotRegistered] at h
    cases hfound : workspaceByPath config workspace.localPath with
    | none => rfl
    | some found =>
      rw [hfound] at h
      cases h
  rw [workspaceByPath, List.findSome?_eq_none_iff] at hnone
  have hvalue : project ∈ config.projects.values :=
    List.mem_map_of_mem (SortedMap.mem_entries_of_find? hproject)
  have hskipped := Option.map_eq_none_iff.mp (hnone project hvalue)
  have hmem : workspace ∈ project.workspaces.values :=
    List.mem_map_of_mem (SortedMap.mem_entries_of_find? hworkspace)
  exact List.find?_eq_none.mp hskipped workspace hmem (samePath_refl _)

/-- A configuration that lists a workspace under a new path is another one. -/
theorem ne_of_listed {path : String} {other : LocalConfig}
    (h : ensureWorkspaceNotRegistered config path = .ok ())
    {projectId id : String} {project : ProjectRegistryEntry} {workspace : WorkspaceRegistryEntry}
    (hproject : other.projects.find? projectId = some project)
    (hworkspace : project.workspaces.find? id = some workspace)
    (hpath : workspace.localPath = path) : other ≠ config := by
  rintro rfl
  exact not_listed h hproject hworkspace hpath

/-- The entry of a repository has one workspace, where the repository is. -/
theorem workspace_of_build {params : ProjectsAddParams} {deviceId : String}
    {entry : ProjectRegistryEntry} (h : buildProjectRegistryEntry env params deviceId = .ok entry) :
    ∃ workspace, workspace.localPath = entry.localPath ∧
      entry.workspaces = .singleton workspace.workspaceId workspace := by
  unfold buildProjectRegistryEntry at h
  obtain ⟨root, -, h⟩ := bind_eq_ok_iff.mp h
  dsimp only at h
  obtain ⟨manifest, -, h⟩ := bind_eq_ok_iff.mp h
  cases h
  exact ⟨_, rfl, rfl⟩

theorem find?_singleton (id : String) (workspace : WorkspaceRegistryEntry) :
    (SortedMap.singleton id workspace).find? id = some workspace := by
  simp [SortedMap.singleton, SortedMap.find?]

theorem merge_listed (config : LocalConfig) {entry : ProjectRegistryEntry}
    {id : String} {workspace : WorkspaceRegistryEntry}
    (h : entry.workspaces.find? id = some workspace) :
    ∃ project, (mergeProjectRegistryEntry config entry).projects.find? entry.projectId =
      some project ∧ project.workspaces.find? id = some workspace := by
  unfold mergeProjectRegistryEntry
  cases config.projects.find? entry.projectId with
  | none => exact ⟨entry, SortedMap.find?_insert_self _ _ _, h⟩
  | some existing =>
    refine ⟨_, SortedMap.find?_insert_self _ _ _, ?_⟩
    rw [SortedMap.find?_covering, h]
    rfl

theorem added_merge (config : LocalConfig) (entry : ProjectRegistryEntry) :
    Added entry config (mergeProjectRegistryEntry config entry) := by
  unfold mergeProjectRegistryEntry
  cases hold : config.projects.find? entry.projectId with
  | none =>
    refine ⟨⟨rfl, ?_⟩, ?_, ?_⟩
    · intro id hid
      exact SortedMap.find?_insert_of_ne hid
    · intro _
      exact SortedMap.find?_insert_self _ _ _
    · intro old hsome
      rw [hold] at hsome
      cases hsome
  | some existing =>
    refine ⟨⟨rfl, ?_⟩, ?_, ?_⟩
    · intro id hid
      exact SortedMap.find?_insert_of_ne hid
    · intro hnone
      rw [hold] at hnone
      cases hnone
    · intro old hsome
      rw [hold] at hsome
      cases hsome
      refine ⟨_, SortedMap.find?_insert_self _ _ _, rfl, rfl, rfl, rfl, rfl, rfl, ?_⟩
      intro id
      exact SortedMap.find?_covering _ _ _

theorem build_of_admit {params : ProjectsAddParams} {entry : ProjectRegistryEntry}
    (h : admitProject env params config = .ok entry) :
    buildProjectRegistryEntry env params config.deviceId = .ok entry ∧
      ensureWorkspaceNotRegistered config entry.localPath = .ok () := by
  unfold admitProject at h
  obtain ⟨built, hbuild, h⟩ := bind_eq_ok_iff.mp h
  obtain ⟨⟨⟩, hunregistered, h⟩ := bind_eq_ok_iff.mp h
  have hbuilt : built = entry := by
    dsimp only at h
    split_ifs at h with hanchor
    · obtain ⟨⟨⟩, -, hreturn⟩ := bind_eq_ok_iff.mp h
      cases hreturn
      rfl
    · cases h
      rfl
  subst hbuilt
  exact ⟨hbuild, hunregistered⟩

/-- What is left of a call behind its save. -/
def finishing (result : Except DevRelayError Unit) : Except RpcError Unit :=
  result.mapError fun e => .internal (.devRelay e)

theorem finishing_eq_ok {result : Except DevRelayError Unit} :
    finishing result = .ok () ↔ result = .ok () := by
  cases result with
  | error e => exact iff_of_false (fun h => nomatch h) fun h => nomatch h
  | ok _ => exact iff_of_true rfl rfl

theorem run_projectsAdd {params : ProjectsAddParams} {entry : ProjectRegistryEntry}
    (h : admitProject env params before.config = .ok entry) :
    (ConfigCall.projectsAdd params).run env before =
      saveAnd env (mergeProjectRegistryEntry before.config entry) before.file
        (finishing (announceProject env entry)) := by
  rw [ConfigCall.run, handleProjectsAdd, h, saveAnd]
  dsimp only
  cases (saveChanged env (mergeProjectRegistryEntry before.config entry) before.file).1 with
  | error e => rfl
  | ok _ => cases announceProject env entry <;> rfl

theorem projectsAdd_iff (params : ProjectsAddParams) :
    AllOrNothing env (.projectsAdd params) before
        ((ConfigCall.projectsAdd params).run env before) ↔
      FailsEarly env before (.projectsAdd params) := by
  rw [FailsEarly]
  cases hadmit : admitProject env params before.config with
  | error e =>
    rw [ConfigCall.run, handleProjectsAdd, hadmit]
    exact iff_of_true (allOrNothing_refused _) fun entry hok => nomatch hok
  | ok entry =>
    obtain ⟨hbuild, hunregistered⟩ := build_of_admit hadmit
    obtain ⟨workspace, hpath, hworkspaces⟩ := workspace_of_build hbuild
    have hfind : entry.workspaces.find? workspace.workspaceId = some workspace := by
      rw [hworkspaces]
      exact find?_singleton _ _
    obtain ⟨project, hproject, hlisted⟩ := merge_listed before.config hfind
    have hne := ne_of_listed hunregistered hproject hlisted hpath
    have hrequested : (mergeProjectRegistryEntry before.config entry).CanBeSaved env.files →
        Requested env before.config (mergeProjectRegistryEntry before.config entry)
          (.projectsAdd params) :=
      fun _ => ⟨entry, hbuild, added_merge before.config entry⟩
    rw [run_projectsAdd hadmit, saveAnd_iff hne hrequested, finishing_eq_ok]
    constructor
    · intro h other hother
      cases hother
      exact h
    · exact fun h => h entry rfl

theorem keyed_of_validate (h : config.validate env.files = .ok ()) {key : String}
    {project : ProjectRegistryEntry} (hproject : config.projects.find? key = some project) :
    key = project.projectId := by
  rw [LocalConfig.validate, bind_eq_ok, checkEach_eq_ok] at h
  have hentry := h.2 _ (SortedMap.mem_entries_of_find? hproject)
  simp only [validateProject, bind_eq_ok, require_eq_ok, decide_eq_true_eq] at hentry
  exact hentry.2.2.2.1

theorem run_projectsRemove {idOrName : String} {found project : ProjectRegistryEntry}
    (hfound : findProject before.config idOrName = some found)
    (hproject : before.config.projects.find? found.projectId = some project) :
    (ConfigCall.projectsRemove idOrName).run env before =
      saveAnd env (removeProject before.config found.projectId) before.file (.ok ()) := by
  rw [ConfigCall.run, handleProjectsRemove, hfound]
  dsimp only
  rw [hproject, saveAnd]
  dsimp only
  cases (saveChanged env (removeProject before.config found.projectId) before.file).1 <;> rfl

theorem find?_of_findProject {idOrName : String} {found : ProjectRegistryEntry}
    (h : findProject config idOrName = some found) :
    ∃ key, config.projects.find? key = some found := by
  rw [findProject] at h
  cases hkey : config.projects.find? idOrName with
  | some project =>
    rw [hkey] at h
    cases h
    exact ⟨idOrName, hkey⟩
  | none =>
    rw [hkey, Option.none_or] at h
    obtain ⟨entry, hentry, rfl⟩ := List.mem_map.mp (List.mem_of_find?_eq_some h)
    exact ⟨entry.1, SortedMap.mem_entries.mp hentry⟩

/-- The project that goes is the one that was named, or the registry is refused. -/
theorem removed_of_valid {idOrName : String} {found : ProjectRegistryEntry}
    (hfound : findProject config idOrName = some found)
    (hvalid : (removeProject config found.projectId).validate env.files = .ok ()) :
    Removed found config (removeProject config found.projectId) := by
  obtain ⟨key, hkey⟩ := find?_of_findProject hfound
  have hsame : key = found.projectId := by
    by_contra hne
    apply hne
    apply keyed_of_validate hvalid
    change (config.projects.remove found.projectId).find? key = some found
    rw [SortedMap.find?_remove, if_neg hne, hkey]
  subst hsame
  refine ⟨⟨rfl, ?_⟩, hkey, ?_⟩
  · intro id hid
    exact (SortedMap.find?_remove _ _ _).trans (if_neg hid)
  · exact (SortedMap.find?_remove _ _ _).trans (if_pos rfl)

theorem projectsRemove_iff (idOrName : String) :
    AllOrNothing env (.projectsRemove idOrName) before
        ((ConfigCall.projectsRemove idOrName).run env before) ↔
      FailsEarly env before (.projectsRemove idOrName) := by
  rw [FailsEarly]
  cases hfound : findProject before.config idOrName with
  | none =>
    rw [ConfigCall.run, handleProjectsRemove, hfound]
    exact iff_of_true (allOrNothing_refused _) fun project hok => nomatch hok
  | some found =>
    cases hproject : before.config.projects.find? found.projectId with
    | none =>
      rw [ConfigCall.run, handleProjectsRemove, hfound]
      dsimp only
      rw [hproject]
      refine iff_of_true (allOrNothing_refused _) ?_
      intro project hsame hsome
      cases hsame
      exact absurd hproject hsome
    | some project =>
      have hne : removeProject before.config found.projectId ≠ before.config := by
        intro heq
        have hgone : (before.config.projects.remove found.projectId).find?
            found.projectId = some project :=
          (congrArg (fun config : LocalConfig => config.projects.find? found.projectId)
            heq).trans hproject
        rw [SortedMap.find?_remove, if_pos rfl] at hgone
        cases hgone
      have hrequested : (removeProject before.config found.projectId).CanBeSaved env.files →
          Requested env before.config (removeProject before.config found.projectId)
            (.projectsRemove idOrName) :=
        fun hcan => ⟨found, hfound, removed_of_valid hfound hcan.valid⟩
      rw [run_projectsRemove hfound hproject, saveAnd_iff hne hrequested]
      constructor
      · intro h other hother _
        cases hother
        exact h.1
      · intro h
        exact ⟨h found rfl (by rw [hproject]; exact Option.some_ne_none _), rfl⟩

/-! ## Recovery -/

theorem registerRecoveryWorkspace_eq_ok {recovered : RecoveredWorkspace}
    {workspace : WorkspaceRegistryEntry} {after : LocalConfig}
    (h : registerRecoveryWorkspace env config recovered = .ok (workspace, after)) :
    ∃ root project, env.showToplevel recovered.path = some root ∧
      ensureWorkspaceNotRegistered config root = .ok () ∧
      config.projects.find? recovered.projectId = some project ∧
      workspace = workspaceEntry env recovered.projectId config.deviceId root ∧
      after = insertWorkspace config recovered.projectId project workspace := by
  unfold registerRecoveryWorkspace at h
  obtain ⟨root, hroot, h⟩ := bind_eq_ok_iff.mp h
  obtain ⟨⟨⟩, hunregistered, h⟩ := bind_eq_ok_iff.mp h
  dsimp only at h
  cases hproject : config.projects.find? recovered.projectId with
  | none =>
    rw [hproject] at h
    cases h
  | some project =>
    rw [hproject] at h
    cases h
    have htoplevel : env.showToplevel recovered.path = some root := by
      rw [resolveGitRoot] at hroot
      cases hshown : env.showToplevel recovered.path with
      | none =>
        rw [hshown] at hroot
        cases hroot
      | some shown =>
        rw [hshown] at hroot
        cases hroot
        rfl
    exact ⟨root, project, htoplevel, hunregistered, rfl, rfl, rfl⟩

theorem find?_insertWorkspace (config : LocalConfig) (projectId : String)
    (project : ProjectRegistryEntry) (workspace : WorkspaceRegistryEntry) :
    (insertWorkspace config projectId project workspace).projects.find? projectId =
      some { project with
        workspaces := project.workspaces.insert workspace.workspaceId workspace } :=
  SortedMap.find?_insert_self _ _ _

/-- A registration adds the workspace to its project. -/
theorem registered_of_register {recovered : RecoveredWorkspace}
    {workspace : WorkspaceRegistryEntry} {after : LocalConfig}
    (h : registerRecoveryWorkspace env config recovered = .ok (workspace, after)) :
    ∃ root, env.showToplevel recovered.path = some root ∧ Registered recovered.projectId
      (workspaceEntry env recovered.projectId config.deviceId root) config after := by
  obtain ⟨root, project, hroot, -, hproject, rfl, rfl⟩ := registerRecoveryWorkspace_eq_ok h
  refine ⟨root, hroot, ⟨rfl, ?_⟩, project, hproject, find?_insertWorkspace _ _ _ _⟩
  intro id hid
  exact SortedMap.find?_insert_of_ne hid

theorem ne_of_registered {recovered : RecoveredWorkspace} {workspace : WorkspaceRegistryEntry}
    {after : LocalConfig}
    (h : registerRecoveryWorkspace env config recovered = .ok (workspace, after)) :
    after ≠ config := by
  obtain ⟨root, project, -, hunregistered, -, hworkspace, rfl⟩ :=
    registerRecoveryWorkspace_eq_ok h
  have hpath : workspace.localPath = root := by
    rw [hworkspace]
    rfl
  exact ne_of_listed hunregistered (find?_insertWorkspace _ _ _ _)
    (SortedMap.find?_insert_self _ _ _) hpath

theorem run_recoverOpen {params : RecoverOpenParams} {recovered : RecoveredWorkspace}
    {workspace : WorkspaceRegistryEntry}
    (hrecovered : env.recover { params with register := true } before.config = .ok recovered)
    (hregister : registerRecoveryWorkspace env before.config recovered = .ok (workspace, config)) :
    (ConfigCall.recoverOpen params).run env before = saveAnd env config before.file
      (finishing (env.publishWorkspaceStateChanged workspace)) := by
  rw [ConfigCall.run, handleRecoverOpen, hrecovered]
  dsimp only
  rw [if_pos rfl, registerRecovered, hregister, saveAnd]
  dsimp only
  cases (saveChanged env config before.file).1 with
  | error e => rfl
  | ok _ => cases env.publishWorkspaceStateChanged workspace <;> rfl

theorem recoverOpen_iff (params : RecoverOpenParams) :
    AllOrNothing env (.recoverOpen params) before
        ((ConfigCall.recoverOpen params).run env before) ↔
      FailsEarly env before (.recoverOpen params) := by
  rw [FailsEarly]
  cases hrecovered : env.recover { params with register := true } before.config with
  | error e =>
    rw [ConfigCall.run, handleRecoverOpen, hrecovered]
    exact iff_of_true (allOrNothing_refused _) fun _ _ _ hok => nomatch hok
  | ok recovered =>
    cases hregister : registerRecoveryWorkspace env before.config recovered with
    | error e =>
      rw [ConfigCall.run, handleRecoverOpen, hrecovered]
      dsimp only
      rw [if_pos rfl, registerRecovered, hregister]
      refine iff_of_true (allOrNothing_refused _) ?_
      intro other workspace config hsame hok
      cases hsame
      rw [hregister] at hok
      cases hok
    | ok registered =>
      obtain ⟨workspace, config⟩ := registered
      have hrequested : config.CanBeSaved env.files →
          Requested env before.config config (.recoverOpen params) := by
        intro _
        obtain ⟨root, hroot, hregistered⟩ := registered_of_register hregister
        exact ⟨recovered, root, hrecovered, hroot, hregistered⟩
      have hne := ne_of_registered hregister
      rw [run_recoverOpen hrecovered hregister, saveAnd_iff hne hrequested, finishing_eq_ok]
      constructor
      · intro h other workspace config hsame hok
        cases hsame
        rw [hregister] at hok
        cases hok
        exact h
      · exact fun h => h recovered _ _ rfl hregister

end

/-- A call holds to all or nothing exactly if it fails early or not at all. -/
theorem allOrNothing_iff (env : ConfigEnv) (call : ConfigCall) (before : ConfigState) :
    AllOrNothing env call before (call.run env before) ↔ FailsEarly env before call := by
  cases call with
  | settingsUpdate params => exact settingsUpdate_iff params
  | projectsAdd params => exact projectsAdd_iff params
  | projectsRemove idOrName => exact projectsRemove_iff idOrName
  | recoverOpen params => exact recoverOpen_iff params

/-! ## A blank command

A change of the profile comes with a blank editor command, and is refused.
-/

/-- A device on which every write succeeds. -/
def demoFiles : ConfigFiles where
  parseJson _ := .ok true
  toTomlString config := .ok config.deviceName
  createParent := .ok ()
  write := .written

def demoConfigEnv : ConfigEnv where
  files := demoFiles
  showToplevel path := some path
  pathExists _ := false
  loadManifest _ := .error (.config "no manifest")
  fileName _ := some "demo"
  headOid _ := none
  originUrl _ := none
  rootCommit _ := none
  hashText _ := "0123456789abcdef"
  currentPlatformKey := "linux-x86_64"
  openAnchorSnapshotRepo _ := .ok ()
  ensureDefaultSession _ := .ok ()
  publishWorkspaceStateChanged _ := .ok ()
  recover params _ := .ok ⟨"p_demo", params.path⟩

def defaultConfig : LocalConfig where
  version := localConfigVersion
  fabricName := "Personal Fabric"
  deviceId := "local-device"
  deviceName := "this-device"
  platformKey := "linux-x86_64"
  architecture := "x86_64"
  capabilitiesJson := "\x7b\x7d"
  pairedAtUnixSeconds := none
  lastSeenUnixSeconds := 0
  editorCommand := "system"
  resourceProfile := .balanced
  resourcePolicyLimits := none
  anchorMode := .localOnly
  mdnsEnabled := true
  manualDiscoveryAddress := none
  projects := .empty

def ecoWithBlankCommand : SettingsUpdateParams := ⟨some .eco, none, some " "⟩

theorem refused_update_stays_in_memory :
    ¬∀ (env : ConfigEnv) (call : ConfigCall) (before : ConfigState),
      AllOrNothing env call before (call.run env before) := by
  intro hall
  have hfailed := (hall demoConfigEnv (.settingsUpdate ecoWithBlankCommand)
    ⟨defaultConfig, none⟩).failed (.invalidParams "editor_command must not be empty") (by rfl)
  have hprofile := congrArg (fun state => state.config.resourceProfile) hfailed
  revert hprofile
  decide

end DevRelay.Config
