import DevRelay.Environment.Selection
import DevRelay.Secrets.Materialize
import DevRelay.Snapshot.Apply
import DevRelay.Tasks.Artifacts
import DevRelay.Upload.SidecarFiles

/-!
# Runner workspaces

`prepare_task_runner_workspace` of `task_runner_workspace.rs`: a new directory becomes a Git
repository, the snapshot of the execution is applied to it, and its sidecars and the secrets of
the project are written.  What Git does to the files of the directory is a parameter.
-/

namespace DevRelay.Runner

open DevRelay.Lib DevRelay.Core DevRelay.Git DevRelay.Snapshot DevRelay.Secrets DevRelay.Upload
  DevRelay.Environment

/-! ## The host -/

/-- The files of the device, the repository that Git has made in the runner workspace, and what
was written there. -/
structure RunnerHost where
  tree : FileTree
  repository : Option Repository
  sidecarFiles : List (Location × Option Node)
  secretFiles : List (String × Location)

/-- `init` makes a repository in a directory, if it can; `workTree` is what a command leaves of
the files when it leaves this repository. -/
structure RunnerGit where
  init : Location → FileTree → Bool × FileTree
  initial : Repository
  workTree : Location → Repository → FileTree → FileTree

/-- No command removes the directory it runs in. -/
structure RunnerGit.KeepsDirectory (git : RunnerGit) : Prop where
  init : ∀ root tree, tree.node root = some .directory →
    (git.init root tree).2.node root = some .directory
  workTree : ∀ root repository tree, tree.node root = some .directory →
    (git.workTree root repository tree).node root = some .directory

/-- What a preparation has from outside.  The reads of a file are those that verify a
sidecar. -/
structure RunnerEnv where
  git : RunnerGit
  apply : ApplyEnv
  /-- `ensure_snapshot_lfs_objects_available_or_sidecars` -/
  lfsObjectsOrSidecars : SnapshotMetadata → Except DevRelayError Unit
  /-- the snapshot repository -/
  source : Repository
  casStore : Option CasStore
  reads : List UInt8 → List (List UInt8)
  projectDataDir : String → String
  currentDir : Location

abbrev Preparing := Prog RunnerHost DevRelayError

def onFiles {α : Type} (program : Prog FileTree DevRelayError α) : Preparing α :=
  program.within RunnerHost.tree fun tree host => { host with tree }

def inRepository {α : Type} (git : RunnerGit) (root : Location) (program : Applying α) :
    Preparing α :=
  program.within (fun host => host.repository.getD git.initial) fun repository host => { host with
    repository := some repository
    tree := git.workTree root repository host.tree }

def onSidecars {α : Type} (program : MaterializingSidecars α) : Preparing α :=
  program.within (fun host => ⟨host.tree, host.sidecarFiles⟩) fun target host => { host with
    tree := target.tree
    sidecarFiles := target.written }

def onSecrets {α : Type} (program : Materializing α) : Preparing α :=
  program.within (fun host => ⟨host.tree, host.secretFiles⟩) fun workspace host => { host with
    tree := workspace.tree
    secretFiles := workspace.written }

/-! ## Options and results -/

structure TaskRunnerWorkspaceOptions where
  taskRunId : String
  environmentContext : EnvironmentSelectionContext
  deleteOnCleanup : Bool

inductive TaskRunnerSecretPolicy where
  | notPermitted
  | permitted (localConfig : SecretProviderLocalConfig) (provider : SecretProvider)

structure TaskRunnerEnvironmentState where
  profileName : String
  kind : EnvironmentKind
  commandScope : String
  hydrated : Bool
  explanation : List String

inductive TaskRunnerSidecarState where
  | notRequired
  | materialized (count : Nat)

inductive TaskRunnerSecretState where
  | skippedNotPermitted (required : List String)
  | materialized (report : SecretMaterializationReport)

structure TaskRunnerWorkspace where
  taskRunId : String
  projectId : String
  taskName : String
  path : String
  snapshotId : String
  canonicalSession : Bool
  environment : TaskRunnerEnvironmentState
  sidecars : TaskRunnerSidecarState
  secrets : TaskRunnerSecretState
  verification : VerificationDetails
  deleteOnCleanup : Bool

/-! ## The checks -/

def hydrateTaskEnvironment (manifest : Manifest) (execution : TaskExecutionSnapshot)
    (context : EnvironmentSelectionContext) : Except DevRelayError TaskRunnerEnvironmentState :=
  let profileName := execution.definition.profileName
  match manifest.environment.bind fun environment => environment.profiles.find? profileName with
  | none => .error (.config ("task profile " ++ debugString profileName ++
      " is missing from manifest environment"))
  | some profile =>
    if !profileTargetsPlatform profile.targets context.platformKey then
      .error (.config ("task profile " ++ debugString profileName ++ " does not target " ++
        context.platformKey))
    else if !context.availableKinds.contains profile.kind then
      .error (.config ("task profile " ++ debugString profileName ++ " requires " ++
        debugKind profile.kind ++ " environment support"))
    else if profile.kind = .script && !context.trustedCommandScopes.contains
        (environmentProfileCommandScope profileName) then
      .error (.config ("task profile " ++ debugString profileName ++
        " script command is not trusted"))
    else .ok {
      profileName
      kind := profile.kind
      commandScope := environmentProfileCommandScope profileName
      hydrated := true
      explanation := ["prepared " ++ debugKind profile.kind ++ " profile " ++ profileName ++
        " for " ++ context.platformKey] }

def taskRunnerWorkspacePath (env : RunnerEnv) (projectId taskRunId : String) : String :=
  join (join (env.projectDataDir projectId) "runner-workspaces") taskRunId

/-! ## The directory and its repository -/

/-- Where `fs::create_dir` makes a directory: the parent is there and the name is free. -/
def newDirectory? (currentDir : Location) (path : String) (tree : FileTree) : Option Location :=
  if endsAsDirectory path then none
  else
    match (steps path).getLast? with
    | some (.normal name) =>
      (tree.locate currentDir (steps path).dropLast).bind fun parent =>
        if tree.node (parent ++ [tree.fold name]) = none then some (parent ++ [tree.fold name])
        else none
    | _ => none

def makeNewDirectory (currentDir : Location) (path : String) (tree : FileTree) : FileTree :=
  match newDirectory? currentDir path tree with
  | none => tree
  | some location => tree.put location .directory

def createParents (currentDir : Location) (path : String) : Prog FileTree DevRelayError Unit :=
  FileTree.createDirAll (.io ("cannot create the parent of " ++ path)) currentDir
    (steps path).dropLast

/-- The first half of `create_isolated_git_workspace`. -/
def createWorkspaceDirectory (currentDir : Location) (path : String) : Preparing Location := do
  onFiles (createParents currentDir path)
  let made ← Prog.update (fun host => { host with
    tree := makeNewDirectory currentDir path host.tree })
    fun host => newDirectory? currentDir path host.tree
  Prog.orFail made (.io ("cannot create " ++ path))

def runnerMarkerFile : String := ".devrelay-runner-workspace"

/-- The second half of `create_isolated_git_workspace`. -/
def initializeRepository (git : RunnerGit) (root : Location) : Preparing Unit := do
  let made ← Prog.update (fun host => { host with
    tree := (git.init root host.tree).2
    repository := if (git.init root host.tree).1 then some git.initial else host.repository })
    fun host => (git.init root host.tree).1
  Prog.ensure (made = true) (.gitCommand "init -b runner" "git init failed")
  let marker ← Prog.query fun host =>
    host.tree.writable? root [.normal ".git", .normal runnerMarkerFile]
  let marker ← Prog.orFail marker (.io "cannot write the marker of a runner workspace")
  Prog.write fun host => { host with
    tree := host.tree.writeAt marker "devrelay task runner workspace\n".toUTF8.toList }

/-! ## The contents -/

def materializeRunnerSidecars (env : RunnerEnv) (root : Location)
    (execution : TaskExecutionSnapshot) :
    Preparing (TaskRunnerSidecarState × VerificationDetails) :=
  let snapshot := execution.metadata
  if snapshot.sidecars.isEmpty then do
    let verification ← inRepository env.git root (applySnapshotInner env.apply env.source snapshot)
    pure (.notRequired, verification)
  else do
    let casStore ← Prog.orFail env.casStore (.config ("task snapshot " ++ snapshot.snapshotId ++
      " requires sidecar materialization but no CAS store was provided"))
    let available ← Prog.query fun host =>
      ensureSidecarsAvailable env.apply.digest casStore root snapshot.sidecars host.tree
    Prog.ofExcept available
    let verification ← inRepository env.git root (applySnapshotInner
      { env.apply with lfsObjects := env.lfsObjectsOrSidecars } env.source snapshot)
    onSidecars (materializeSidecars env.apply.digest casStore env.reads root snapshot.sidecars)
    pure (.materialized snapshot.sidecars.length, verification)

def requiredSecretNames (manifest : Manifest) : List String :=
  (manifest.secrets.entries.filter fun entry => entry.2.required).map Prod.fst

def materializeRunnerSecrets (path : String) (root : Location) (manifest : Manifest) :
    TaskRunnerSecretPolicy → Preparing TaskRunnerSecretState
  | .notPermitted => pure (.skippedNotPermitted (requiredSecretNames manifest))
  | .permitted localConfig provider => do
    let report ←
      onSecrets (materializeProjectSecrets path root localConfig provider manifest)
    pure (.materialized report)

/-- Everything behind `create_dir`. -/
def fillWorkspace (env : RunnerEnv) (path : String) (root : Location) (manifest : Manifest)
    (execution : TaskExecutionSnapshot) (secretPolicy : TaskRunnerSecretPolicy) :
    Preparing ((TaskRunnerSidecarState × VerificationDetails) × TaskRunnerSecretState) := do
  initializeRepository env.git root
  let sidecars ← materializeRunnerSidecars env root execution
  let secrets ← materializeRunnerSecrets path root manifest secretPolicy
  pure (sidecars, secrets)

/-- The checks before a file is touched. -/
def checkTaskExecution (manifest : Manifest) (execution : TaskExecutionSnapshot)
    (options : TaskRunnerWorkspaceOptions) : Except DevRelayError TaskRunnerEnvironmentState := do
  require (execution.definition.projectId = manifest.projectId)
    (.config ("task execution project_id " ++ execution.definition.projectId ++
      " does not match manifest project_id " ++ manifest.projectId))
  Artifacts.validateTaskRunId options.taskRunId
  hydrateTaskEnvironment manifest execution options.environmentContext

def prepareTaskRunnerWorkspace (env : RunnerEnv) (manifest : Manifest)
    (execution : TaskExecutionSnapshot) (options : TaskRunnerWorkspaceOptions)
    (secretPolicy : TaskRunnerSecretPolicy) : Preparing TaskRunnerWorkspace := do
  let environment ← Prog.ofExcept (checkTaskExecution manifest execution options)
  let path := taskRunnerWorkspacePath env manifest.projectId options.taskRunId
  let root ← createWorkspaceDirectory env.currentDir path
  let (sidecars, secrets) ← fillWorkspace env path root manifest execution secretPolicy
  pure {
    taskRunId := options.taskRunId
    projectId := manifest.projectId
    taskName := execution.definition.taskName
    path
    snapshotId := execution.metadata.snapshotId
    canonicalSession := false
    environment
    sidecars := sidecars.1
    secrets
    verification := sidecars.2
    deleteOnCleanup := options.deleteOnCleanup }

end DevRelay.Runner
