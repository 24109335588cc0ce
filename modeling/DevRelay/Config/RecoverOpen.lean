import DevRelay.Config.Calls
import DevRelay.Snapshot.Restore

/-!
# Opening a recovery

`recover.open` of the agent, and its remote twin `recovery.open`: a clean repository at the target
is taken as it is, and anything else must be empty and is cloned into; then the snapshot is applied,
an audit event is written, and the workspace is registered if that was asked for.
-/

namespace DevRelay.Config

open DevRelay.Lib DevRelay.Core DevRelay.Git DevRelay.Snapshot

/-- What is at the path of the target. -/
inductive RecoveryTarget where
  | absent
  | empty
  /-- something else without a `.git` -/
  | occupied
  | repository (repo : Repository)

def RecoveryTarget.repository? : RecoveryTarget → Option Repository
  | repository repo => some repo
  | _ => none

structure RecoveryWorld where
  target : RecoveryTarget
  config : ConfigState

/-- What a recovery finds outside. -/
structure RecoveryEnv where
  config : ConfigEnv
  apply : ApplyEnv
  /-- the repository of the snapshot store of a project -/
  snapshots : String → Repository
  openStore : String → Except DevRelayError Unit
  getSnapshot : String → String → Except DevRelayError SnapshotMetadata
  /-- `status` of a repository at the target -/
  status : Except CallError Unit
  /-- `read_dir` of something else -/
  readDir : Except CallError Unit
  createDir : Except CallError Unit
  /-- `git clone` of a source, and what it leaves at the target when it fails -/
  clone : String → Except CallError Repository
  failedClone : RecoveryTarget
  recordApplied : Except DevRelayError Unit
  recordFailure : Except DevRelayError Unit

/-- How a handler reports what went wrong. -/
structure RecoveryCaller where
  refused : CallError → RpcError
  failed : DevRelayError → RpcError

/-- `handle_recover_open` -/
def localCaller : RecoveryCaller where
  refused := .internal
  failed e := .internal (.devRelay e)

/-- `handle_remote_recovery_open` -/
def remoteCaller : RecoveryCaller where
  refused := .invalidRequest
  failed := .fromDevRelay

structure RecoverOpenResult where
  recovered : SnapshotMetadata
  path : String
  name : Option String
  registered : Option WorkspaceRegistryEntry
  verification : VerificationDetails

variable (env : RecoveryEnv)

/-! ## The source -/

/-- The first project whose store has the snapshot. -/
def searchProjects (snapshotId : String) :
    List ProjectRegistryEntry → Except CallError (ProjectRegistryEntry × SnapshotMetadata)
  | [] => .error (.bail ("unknown snapshot " ++ snapshotId))
  | project :: rest =>
    match env.openStore project.projectId with
    | .error e => .error (.devRelay e)
    | .ok _ =>
      match env.getSnapshot project.projectId snapshotId with
      | .ok snapshot => .ok (project, snapshot)
      | .error _ => searchProjects snapshotId rest

def findRecoverySnapshot (config : LocalConfig) (project : Option String) (snapshotId : String) :
    Except CallError (ProjectRegistryEntry × SnapshotMetadata) :=
  match project with
  | none => searchProjects env snapshotId config.projects.values
  | some name =>
    match findProject config name with
    | none => .error (.bail ("unknown project " ++ name))
    | some entry => do
      (env.openStore entry.projectId).mapError .devRelay
      let snapshot ← (env.getSnapshot entry.projectId snapshotId).mapError .devRelay
      return (entry, snapshot)

def recoverySourcePath (project : ProjectRegistryEntry) : Except CallError String :=
  match project.workspaces.values.find? fun workspace =>
      env.config.pathExists workspace.localPath && workspace.state = .active with
  | some workspace => .ok workspace.localPath
  | none =>
    if env.config.pathExists project.localPath then .ok project.localPath
    else .error (.bail ("no existing source workspace for project " ++ project.projectId))

/-! ## The target -/

/-- The end of `prepare_recovery_workspace`, for a target that is absent or empty. -/
def cloneRecoveryWorkspace (sourcePath : String) (target : RecoveryTarget) :
    Except CallError Repository × RecoveryTarget :=
  match env.createDir with
  | .error e => (.error e, target)
  | .ok _ =>
    match env.clone sourcePath with
    | .error e => (.error e, env.failedClone)
    | .ok repo => (.ok repo, .repository repo)

/-- The repository to apply to, and what is then at the target. -/
def prepareRecoveryWorkspace (path sourcePath : String) (target : RecoveryTarget) :
    Except CallError Repository × RecoveryTarget :=
  match target with
  | .repository repo =>
    match env.status with
    | .error e => (.error e, target)
    | .ok _ =>
      let status := gitStatus env.apply.objects repo
      if !status.isClean then
        (.error (.bail ("target workspace is dirty: " ++ status.shortSummary)), target)
      else (.ok repo, target)
  | .absent => cloneRecoveryWorkspace env sourcePath target
  | .empty =>
    match env.readDir with
    | .error e => (.error e, target)
    | .ok _ => cloneRecoveryWorkspace env sourcePath target
  | .occupied =>
    match env.readDir with
    | .error e => (.error e, target)
    | .ok _ =>
      (.error (.bail (path ++ " exists and is not an empty recovery directory")), target)

/-! ## The recovery -/

/-- What follows a successful apply. -/
def finishRecovery (params : RecoverOpenParams) (project : ProjectRegistryEntry)
    (config : ConfigState) : Except RpcError (Option WorkspaceRegistryEntry) × ConfigState :=
  match env.recordApplied with
  | .error e => (.error (.internal (.devRelay e)), config)
  | .ok _ =>
    if params.register then
      let (registered, config) :=
        registerRecovered env.config ⟨project.projectId, params.path⟩ config
      (registered.map some, config)
    else (.ok none, config)

/-- The steps from the apply on. -/
def applyRecovery (caller : RecoveryCaller) (params : RecoverOpenParams)
    (project : ProjectRegistryEntry) (snapshot : SnapshotMetadata) (repo : Repository)
    (config : ConfigState) : Except RpcError RecoverOpenResult × RecoveryWorld :=
  let (verified, after) := (applySnapshotInner env.apply (env.snapshots project.projectId)
    snapshot).exec env.apply.fault 0 repo
  match verified with
  | .error e =>
    match env.recordFailure with
    | .error audit => (.error (.internal (.unrecorded e audit)), ⟨.repository after, config⟩)
    | .ok _ => (.error (caller.failed e), ⟨.repository after, config⟩)
  | .ok verification =>
    let (registered, config) := finishRecovery env params project config
    (registered.map fun registered =>
      ⟨snapshot, params.path, params.name, registered, verification⟩,
      ⟨.repository after, config⟩)

def openRecovery (caller : RecoveryCaller) (params : RecoverOpenParams) (world : RecoveryWorld) :
    Except RpcError RecoverOpenResult × RecoveryWorld :=
  match findRecoverySnapshot env world.config.config params.project params.snapshotId with
  | .error e => (.error (caller.refused e), world)
  | .ok (project, snapshot) =>
    match recoverySourcePath env project with
    | .error e => (.error (.internal e), world)
    | .ok sourcePath =>
      match prepareRecoveryWorkspace env params.path sourcePath world.target with
      | (.error e, target) => (.error (caller.refused e), { world with target })
      | (.ok repo, _) => applyRecovery env caller params project snapshot repo world.config

def handleRecoverOpenLocal (params : RecoverOpenParams) (world : RecoveryWorld) :
    Except RpcError RecoverOpenResult × RecoveryWorld :=
  openRecovery env localCaller params world

/-- A remote request names its project. -/
def handleRemoteRecoveryOpen (params : RecoverOpenParams) (project : String)
    (world : RecoveryWorld) : Except RpcError RecoverOpenResult × RecoveryWorld :=
  openRecovery env remoteCaller { params with project := some project } world

end DevRelay.Config
