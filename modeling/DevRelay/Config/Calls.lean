import DevRelay.Core.Error
import DevRelay.Core.ProjectRegistry
import DevRelay.Lib.Checks
import DevRelay.Lib.TextBytes

/-!
# The local configuration

`LocalConfig` of `config.rs`, with `validate` and `save`.  The configuration is written over the
old file in place.  The JSON reader, the TOML writer and what the file system makes of a write are
parameters.
-/

namespace DevRelay.Config

open DevRelay.Lib DevRelay.Core

inductive ResourceProfile where
  | adaptive
  | instant
  | eco
  | custom
  | balanced
  | performance
  deriving DecidableEq, Repr

structure ResourcePolicyLimits where
  cpuSlotLimit : UInt64
  hashingConcurrencyLimit : UInt64
  networkBandwidthKibPerSecond : Option UInt64
  deriving DecidableEq, Repr

inductive AnchorMode where
  | localOnly
  | userSelected
  deriving DecidableEq, Repr

structure LocalConfig where
  version : UInt32
  fabricName : String
  deviceId : String
  deviceName : String
  platformKey : String
  architecture : String
  capabilitiesJson : String
  pairedAtUnixSeconds : Option UInt64
  lastSeenUnixSeconds : UInt64
  /-- `editor.command` -/
  editorCommand : String
  resourceProfile : ResourceProfile
  resourcePolicyLimits : Option ResourcePolicyLimits
  anchorMode : AnchorMode
  mdnsEnabled : Bool
  manualDiscoveryAddress : Option String
  /-- `project_registry.projects` -/
  projects : SortedMap String ProjectRegistryEntry

def localConfigVersion : UInt32 := 1

def workspaceIdPrefix : String := "w_"

/-! ## Validation -/

def validateNonEmpty (field value : String) : Except DevRelayError Unit :=
  require (value ≠ "") (.config (field ++ " must not be empty"))

def ResourcePolicyLimits.validate (self : ResourcePolicyLimits) : Except DevRelayError Unit := do
  require (self.cpuSlotLimit ≠ 0)
    (.config "resource policy cpu_slot_limit must be greater than zero")
  require (self.hashingConcurrencyLimit ≠ 0)
    (.config "resource policy hashing_concurrency_limit must be greater than zero")
  require (self.networkBandwidthKibPerSecond ≠ some 0)
    (.config "resource policy network_bandwidth_kib_per_second must be greater than zero")

/-- What `fs::write` comes to: a file that cannot be opened stays, and one that was opened is
empty before its first byte is written. -/
inductive FileWrite where
  | written
  | refused (detail : String)
  | cut (length : Nat) (detail : String)
  deriving DecidableEq, Repr

/-- What the configuration is read and written with. -/
structure ConfigFiles where
  /-- `serde_json::from_str`: is the value an object? -/
  parseJson : String → Except String Bool
  toTomlString : LocalConfig → Except DevRelayError String
  createParent : Except DevRelayError Unit
  write : FileWrite

variable (files : ConfigFiles)

def validateCapabilitiesJson (value : String) : Except DevRelayError Unit :=
  match files.parseJson value with
  | .error detail => .error (.config ("capabilities_json must be valid JSON: " ++ detail))
  | .ok isObject =>
    require isObject (.config "capabilities_json must encode a JSON object")

def validateWorkspace (project : ProjectRegistryEntry)
    (entry : String × WorkspaceRegistryEntry) : Except DevRelayError Unit := do
  let (key, workspace) := entry
  validateNonEmpty "project_registry.projects.workspaces key" key
  validateNonEmpty "project_registry.projects.workspaces.workspace_id" workspace.workspaceId
  require (workspaceIdPrefix.toList.isPrefixOf workspace.workspaceId.toList)
    (.config ("workspace_id " ++ workspace.workspaceId ++ " must start with " ++
      workspaceIdPrefix))
  require (key = workspace.workspaceId)
    (.config ("workspace registry key " ++ key ++ " must match workspace_id " ++
      workspace.workspaceId))
  require (workspace.projectId = project.projectId)
    (.config ("workspace " ++ workspace.workspaceId ++ " project_id " ++ workspace.projectId ++
      " must match project_id " ++ project.projectId))
  validateNonEmpty "project_registry.projects.workspaces.device_id" workspace.deviceId
  validateNonEmpty "project_registry.projects.workspaces.platform_profile"
    workspace.platformProfile
  validateNonEmpty "project_registry.projects.workspaces.local_path" workspace.localPath

def validateProject (entry : String × ProjectRegistryEntry) : Except DevRelayError Unit := do
  let (key, project) := entry
  validateNonEmpty "project_registry.projects key" key
  validateNonEmpty "project_registry.projects.project_id" project.projectId
  validateNonEmpty "project_registry.projects.display_name" project.displayName
  require (key = project.projectId)
    (.config ("project registry key " ++ key ++ " must match project_id " ++ project.projectId))
  validateNonEmpty "project_registry.projects.local_path" project.localPath
  checkEach (validateWorkspace project) project.workspaces.entries

namespace LocalConfig

/-- The checks in front of the registry. -/
def validateDevice (self : LocalConfig) : Except DevRelayError Unit := do
  require (self.version = localConfigVersion)
    (.config ("unsupported config version " ++ toString self.version ++ ", expected " ++
      toString localConfigVersion))
  validateNonEmpty "fabric_name" self.fabricName
  validateNonEmpty "device_id" self.deviceId
  validateNonEmpty "device_name" self.deviceName
  validateNonEmpty "platform_key" self.platformKey
  validateNonEmpty "architecture" self.architecture
  validateCapabilitiesJson files self.capabilitiesJson
  validateNonEmpty "editor.command" self.editorCommand
  match self.resourcePolicyLimits with
  | some limits => limits.validate
  | none => pure ()
  match self.manualDiscoveryAddress with
  | some address =>
    require (!address.toList.all isSpace)
      (.config "manual_discovery_address must not be empty")
  | none => pure ()

def validate (self : LocalConfig) : Except DevRelayError Unit := do
  self.validateDevice files
  checkEach validateProject self.projects.entries

/-! ## The file -/

/-- `save`, and what is then in the file. -/
def save (self : LocalConfig) (file : Option (List UInt8)) :
    Except DevRelayError Unit × Option (List UInt8) :=
  match self.validate files with
  | .error e => (.error e, file)
  | .ok _ =>
    match files.createParent with
    | .error e => (.error e, file)
    | .ok _ =>
      match files.toTomlString self with
      | .error e => (.error e, file)
      | .ok text =>
        match files.write with
        | .refused detail => (.error (.io detail), file)
        | .cut length detail => (.error (.io detail), some ((utf8 text).take length))
        | .written => (.ok (), some (utf8 text))

/-- The configuration passes its checks and gets to the file. -/
structure CanBeSaved (config : LocalConfig) : Prop where
  valid : config.validate files = .ok ()
  parent : files.createParent = .ok ()
  rendered : ∃ text, files.toTomlString config = .ok text
  written : files.write = .written

/-- The file is the configuration. -/
def IsIn (self : LocalConfig) (file : Option (List UInt8)) : Prop :=
  ∃ text, files.toTomlString self = .ok text ∧ file = some (utf8 text)

/-- If a write of the configuration begins and does not end, it leaves what was in the file. -/
def LeavesFile (self : LocalConfig) (file : Option (List UInt8)) : Prop :=
  self.validate files = .ok () → files.createParent = .ok () →
    ∀ text, files.toTomlString self = .ok text → ∀ length detail,
      files.write = .cut length detail → file = some ((utf8 text).take length)

variable {files} {config : LocalConfig} (file : Option (List UInt8))

theorem save_of_canBeSaved (h : config.CanBeSaved files) :
    (config.save files file).1 = .ok () ∧ config.IsIn files (config.save files file).2 := by
  obtain ⟨hvalid, hparent, ⟨text, htext⟩, hwritten⟩ := h
  rw [save, hvalid, hparent]
  dsimp only
  rw [htext]
  dsimp only
  rw [hwritten]
  exact ⟨rfl, text, htext, rfl⟩

theorem save_of_not_canBeSaved (h : ¬config.CanBeSaved files) :
    (∃ e, (config.save files file).1 = .error e) ∧
      ((config.save files file).2 = file ↔ config.LeavesFile files file) := by
  rw [save, LeavesFile]
  cases hvalid : config.validate files with
  | error e =>
    exact ⟨⟨e, rfl⟩, iff_of_true rfl fun hok => nomatch hok⟩
  | ok _ =>
    cases hparent : files.createParent with
    | error e =>
      exact ⟨⟨e, rfl⟩, iff_of_true rfl fun _ hok => nomatch hok⟩
    | ok _ =>
      cases htext : files.toTomlString config with
      | error e =>
        exact ⟨⟨e, rfl⟩, iff_of_true rfl fun _ _ _ hok => nomatch hok⟩
      | ok text =>
        cases hwrite : files.write with
        | refused detail =>
          exact ⟨⟨_, rfl⟩, iff_of_true rfl fun _ _ _ _ _ _ hcut => nomatch hcut⟩
        | written => exact absurd ⟨hvalid, hparent, ⟨text, htext⟩, hwrite⟩ h
        | cut length detail =>
          refine ⟨⟨_, rfl⟩, ?_⟩
          constructor
          · intro hsame _ _ other hother _ _ hcut
            cases hother
            cases hcut
            exact hsame.symm
          · intro hleaves
            exact (hleaves rfl rfl text rfl length detail rfl).symm

end LocalConfig

end DevRelay.Config

/-!
## Calls that change the configuration

`settings.update`, `projects.add`, `projects.remove` and `recover.open` of the agent.  Each of them
changes the shared configuration first and saves it then.
-/

namespace DevRelay.Config

open DevRelay.Lib DevRelay.Core

inductive CallError where
  | bail (text : String)
  | devRelay (error : DevRelayError)
  /-- an apply that failed, and whose audit failed too -/
  | unrecorded (error audit : DevRelayError)
  deriving DecidableEq, Repr

inductive RpcError where
  | invalidParams (detail : String)
  | invalidRequest (detail : CallError)
  | internal (detail : CallError)
  /-- `remote_rpc_error_from_devrelay` -/
  | fromDevRelay (error : DevRelayError)
  deriving DecidableEq, Repr

/-- The configuration of the agent, and what is in its file. -/
structure ConfigState where
  config : LocalConfig
  file : Option (List UInt8)

structure LoadedManifest where
  projectId : String
  name : String

structure RecoverOpenParams where
  snapshotId : String
  path : String
  project : Option String
  register : Bool
  name : Option String

/-- What a recovery has made before it is registered. -/
structure RecoveredWorkspace where
  projectId : String
  path : String

/-- What the calls find outside the configuration. -/
structure ConfigEnv where
  files : ConfigFiles
  /-- `git rev-parse --show-toplevel` -/
  showToplevel : String → Option String
  pathExists : String → Bool
  loadManifest : String → Except DevRelayError LoadedManifest
  /-- the name of a directory, if it has one -/
  fileName : String → Option String
  headOid : String → Option String
  /-- the address of `origin`, trimmed -/
  originUrl : String → Option String
  rootCommit : String → Option String
  /-- the first sixteen digits of the BLAKE3 digest -/
  hashText : String → String
  currentPlatformKey : String
  openAnchorSnapshotRepo : String → Except DevRelayError Unit
  ensureDefaultSession : ProjectRegistryEntry → Except DevRelayError Unit
  publishWorkspaceStateChanged : WorkspaceRegistryEntry → Except DevRelayError Unit
  /-- the steps of a recovery before it is registered, which leave the configuration alone -/
  recover : RecoverOpenParams → LocalConfig → Except RpcError RecoveredWorkspace

variable (env : ConfigEnv)

/-- `config.save` at the end of a change: the change stays in memory whatever comes of it. -/
def saveChanged (config : LocalConfig) (file : Option (List UInt8)) :
    Except RpcError Unit × ConfigState :=
  let saved := config.save env.files file
  (saved.1.mapError fun e => .internal (.devRelay e), ⟨config, saved.2⟩)

/-! ## Settings -/

structure SettingsUpdateParams where
  resourceProfile : Option ResourceProfile
  mdnsEnabled : Option Bool
  editorCommand : Option String

structure SettingsGetResult where
  fabricName : String
  deviceId : String
  deviceName : String
  platformKey : String
  architecture : String
  resourceProfile : ResourceProfile
  anchorMode : AnchorMode
  mdnsEnabled : Bool
  editorCommand : String
  projectCount : Nat
  deriving DecidableEq, Repr

def settingsFromConfig (config : LocalConfig) : SettingsGetResult where
  fabricName := config.fabricName
  deviceId := config.deviceId
  deviceName := config.deviceName
  platformKey := config.platformKey
  architecture := config.architecture
  resourceProfile := config.resourceProfile
  anchorMode := config.anchorMode
  mdnsEnabled := config.mdnsEnabled
  editorCommand := config.editorCommand
  projectCount := config.projects.entries.length

/-- The profile and the discovery flag, which are set before the command is looked at. -/
def SettingsUpdateParams.applyFlags (params : SettingsUpdateParams) (config : LocalConfig) :
    LocalConfig :=
  { config with
    resourceProfile := params.resourceProfile.getD config.resourceProfile
    mdnsEnabled := params.mdnsEnabled.getD config.mdnsEnabled }

def SettingsUpdateParams.apply (params : SettingsUpdateParams) (config : LocalConfig) :
    LocalConfig :=
  let config := params.applyFlags config
  { config with editorCommand := params.editorCommand.getD config.editorCommand }

/-- `command.trim().is_empty()` for a command that was given. -/
def SettingsUpdateParams.blankCommand (params : SettingsUpdateParams) : Bool :=
  params.editorCommand.any fun command => command.toList.all isSpace

def handleSettingsUpdate (params : SettingsUpdateParams) (state : ConfigState) :
    Except RpcError SettingsGetResult × ConfigState :=
  if params.blankCommand then
    (.error (.invalidParams "editor_command must not be empty"),
      { state with config := params.applyFlags state.config })
  else
    let config := params.apply state.config
    let (saved, state) := saveChanged env config state.file
    (saved.map fun _ => settingsFromConfig config, state)

/-! ## Projects -/

def resolveGitRoot (path : String) : Except CallError String :=
  match env.showToplevel path with
  | some root => .ok root
  | none => .error (.bail ("path is not a Git repository: " ++ path))

def workspaceIdFor (projectId deviceId localPath : String) : String :=
  workspaceIdPrefix ++ env.hashText (projectId ++ "\x00" ++ deviceId ++ "\x00" ++ localPath)

/-- The entry that `build_project_registry_entry` and `register_recovery_workspace` make of a
repository. -/
def workspaceEntry (projectId deviceId root : String) : WorkspaceRegistryEntry where
  workspaceId := workspaceIdFor env projectId deviceId root
  projectId := projectId
  deviceId := deviceId
  localPath := root
  platformProfile := env.currentPlatformKey
  state := .active
  lastSeenHead := env.headOid root
  lastCheckpointId := none

structure ProjectsAddParams where
  path : String
  manifest : Option String

def buildProjectRegistryEntry (params : ProjectsAddParams) (deviceId : String) :
    Except CallError ProjectRegistryEntry := do
  let root ← resolveGitRoot env params.path
  let manifestPath := params.manifest.or
    (if env.pathExists (join root "devrelay.toml") then some (join root "devrelay.toml") else none)
  let manifest ← (match manifestPath with
    | none => pure none
    | some path =>
      ((env.loadManifest path).map some).mapError fun _ =>
        .bail "failed to load project manifest")
  let projectId := (manifest.map (·.projectId)).getD ("p_" ++ env.hashText root)
  let workspace := workspaceEntry env projectId deviceId root
  return {
    projectId
    displayName := ((manifest.map (·.name)).or (env.fileName root)).getD projectId
    localPath := root
    workspaces := .singleton workspace.workspaceId workspace
    manifestPath
    remoteUrlFingerprint := (env.originUrl root).map fun url => "remote_" ++ env.hashText url
    rootCommitFingerprint := (env.rootCommit root).map fun oid => "root_" ++ env.hashText oid }

/-- `workspace_by_path`, as `ProjectRegistryIndex` has it. -/
def workspaceByPath (config : LocalConfig) (localPath : String) :
    Option (ProjectRegistryEntry × WorkspaceRegistryEntry) :=
  config.projects.values.findSome? fun project =>
    (project.workspaces.values.find? fun workspace =>
      samePath workspace.localPath localPath).map fun workspace => (project, workspace)

def ensureWorkspaceNotRegistered (config : LocalConfig) (localPath : String) :
    Except CallError Unit :=
  match workspaceByPath config localPath with
  | some (project, workspace) =>
    .error (.bail (localPath ++ " is already registered as workspace " ++
      workspace.workspaceId ++ " for " ++ project.projectId))
  | none =>
    match config.projects.values.find? fun project =>
        project.workspaces.entries.isEmpty && samePath project.localPath localPath with
    | some project =>
      .error (.bail (localPath ++ " is already registered as " ++ project.projectId))
    | none => .ok ()

def mergeProjectRegistryEntry (config : LocalConfig) (entry : ProjectRegistryEntry) : LocalConfig :=
  match config.projects.find? entry.projectId with
  | some existing =>
    { config with projects := config.projects.insert entry.projectId { existing with
        workspaces := entry.workspaces.covering existing.workspaces
        manifestPath := existing.manifestPath.or entry.manifestPath
        remoteUrlFingerprint := existing.remoteUrlFingerprint.or entry.remoteUrlFingerprint
        rootCommitFingerprint :=
          existing.rootCommitFingerprint.or entry.rootCommitFingerprint } }
  | none => { config with projects := config.projects.insert entry.projectId entry }

/-- The default session, and an event for each workspace. -/
def announceProject (entry : ProjectRegistryEntry) : Except DevRelayError Unit := do
  env.ensureDefaultSession entry
  checkEach env.publishWorkspaceStateChanged entry.workspaces.values

/-- Whether a project can be taken in. -/
def admitProject (params : ProjectsAddParams) (config : LocalConfig) :
    Except CallError ProjectRegistryEntry := do
  let entry ← buildProjectRegistryEntry env params config.deviceId
  ensureWorkspaceNotRegistered config entry.localPath
  if config.anchorMode = .userSelected then
    (env.openAnchorSnapshotRepo entry.projectId).mapError .devRelay
  return entry

def handleProjectsAdd (params : ProjectsAddParams) (state : ConfigState) :
    Except RpcError ProjectRegistryEntry × ConfigState :=
  match admitProject env params state.config with
  | .error e => (.error (.internal e), state)
  | .ok entry =>
    let (saved, state) :=
      saveChanged env (mergeProjectRegistryEntry state.config entry) state.file
    match saved with
    | .error e => (.error e, state)
    | .ok _ =>
      (((announceProject env entry).mapError fun e => .internal (.devRelay e)).map
        fun _ => entry, state)

def findProject (config : LocalConfig) (idOrName : String) : Option ProjectRegistryEntry :=
  (config.projects.find? idOrName).or
    (config.projects.values.find? fun project => project.displayName = idOrName)

def removeProject (config : LocalConfig) (projectId : String) : LocalConfig :=
  { config with projects := config.projects.remove projectId }

def handleProjectsRemove (idOrName : String) (state : ConfigState) :
    Except RpcError ProjectRegistryEntry × ConfigState :=
  match findProject state.config idOrName with
  | none => (.error (.internal (.bail ("unknown project " ++ idOrName))), state)
  | some found =>
    match state.config.projects.find? found.projectId with
    | none => (.error (.internal (.bail ("project disappeared " ++ found.projectId))), state)
    | some project =>
      let (saved, state) :=
        saveChanged env (removeProject state.config found.projectId) state.file
      (saved.map fun _ => project, state)

/-! ## Recovery -/

def insertWorkspace (config : LocalConfig) (projectId : String) (project : ProjectRegistryEntry)
    (workspace : WorkspaceRegistryEntry) : LocalConfig :=
  { config with projects := config.projects.insert projectId { project with
      workspaces := project.workspaces.insert workspace.workspaceId workspace } }

/-- The workspace, and the configuration with it. -/
def registerRecoveryWorkspace (config : LocalConfig) (recovered : RecoveredWorkspace) :
    Except CallError (WorkspaceRegistryEntry × LocalConfig) := do
  let root ← resolveGitRoot env recovered.path
  ensureWorkspaceNotRegistered config root
  let workspace := workspaceEntry env recovered.projectId config.deviceId root
  match config.projects.find? recovered.projectId with
  | none => throw (.bail ("unknown project " ++ recovered.projectId))
  | some project => return (workspace, insertWorkspace config recovered.projectId project workspace)

def registerRecovered (recovered : RecoveredWorkspace) (state : ConfigState) :
    Except RpcError WorkspaceRegistryEntry × ConfigState :=
  match registerRecoveryWorkspace env state.config recovered with
  | .error e => (.error (.internal e), state)
  | .ok (workspace, config) =>
    let (saved, state) := saveChanged env config state.file
    match saved with
    | .error e => (.error e, state)
    | .ok _ =>
      (((env.publishWorkspaceStateChanged workspace).mapError fun e =>
        .internal (.devRelay e)).map fun _ => workspace, state)

def handleRecoverOpen (params : RecoverOpenParams) (state : ConfigState) :
    Except RpcError (Option WorkspaceRegistryEntry) × ConfigState :=
  match env.recover params state.config with
  | .error e => (.error e, state)
  | .ok recovered =>
    if params.register then
      let (registered, state) := registerRecovered env recovered state
      (registered.map some, state)
    else (.ok none, state)

end DevRelay.Config
