import DevRelay.Lib.Statements
import DevRelay.Lib.UnixPath
import DevRelay.Manifest.TrustHash

/-!
# Environment adapters

The adapters of `environment.rs` and the commands they hand to a runner.  What a runner
answers can depend on all commands it was given before.
-/

namespace DevRelay.Environment

open DevRelay.Core DevRelay.Lib

structure EnvironmentCommand where
  program : String
  args : List String
  timeoutSeconds : Option UInt64 := none
  deriving DecidableEq, Repr

structure EnvironmentCommandOutput where
  statusCode : Option Int
  stdout : String
  stderr : String
  timedOut : Bool
  deriving DecidableEq, Repr

def EnvironmentCommandOutput.succeeded (self : EnvironmentCommandOutput) : Bool :=
  self.statusCode = some 0

/-- The error of a runner; that there is no such program is told from all others. -/
inductive RunFailure where
  | notFound (detail : String)
  | failed (error : DevRelayError)
  deriving DecidableEq, Repr

def RunFailure.toError : RunFailure → DevRelayError
  | .notFound detail => .io detail
  | .failed error => error

/-- The answer to a command, after the commands that were run before it. -/
abbrev EnvironmentCommandRunner :=
  List EnvironmentCommand → EnvironmentCommand → Except RunFailure EnvironmentCommandOutput

/-- What a repository has below its root. -/
structure RepositoryTree where
  isFile : String → Bool
  read : String → Except String ByteArray

/-- The commands run so far are the state. -/
abbrev Running := Prog (List EnvironmentCommand) DevRelayError

/-- What every adapter gets: the path of the repository, its files, the runner and the
functions of the crates underneath. -/
structure AdapterContext where
  root : String
  tree : RepositoryTree
  runner : EnvironmentCommandRunner
  digest : Blake3
  redactText : String → String

variable (context : AdapterContext)

def attemptCommand (command : EnvironmentCommand) :
    Running (Except RunFailure EnvironmentCommandOutput) :=
  Prog.update (fun ran => ran ++ [command]) fun ran => context.runner ran command

/-- `runner.run(root, command)?` -/
def runCommand (command : EnvironmentCommand) : Running EnvironmentCommandOutput := do
  match ← attemptCommand context command with
  | .ok output => return output
  | .error failure => Prog.fail failure.toError

def versionProbe (program : String) : EnvironmentCommand :=
  { program, args := ["--version"] }

/-- The shape shared by the probes for programs. -/
def probe (program : String) : Running Bool := do
  match ← attemptCommand context (versionProbe program) with
  | .ok output => return output.succeeded
  | .error (.notFound _) => return false
  | .error (.failed error) => Prog.fail error

/-! ## Nix -/

inductive NixHealthState where
  | unavailable
  | noFlake
  | shellReady
  | failed
  deriving DecidableEq, Repr

structure NixDevelopHealthcheck where
  state : NixHealthState
  command : List String
  shellReady : Bool
  exitCode : Option Int
  stdout : String
  stderr : String
  failureLogs : String
  deriving DecidableEq, Repr

def detectNixAvailability : Running Bool := probe context "nix"

/-- The arguments of a health check, or `true`. -/
def healthcheckArguments (healthcheck : List String) : List String :=
  if healthcheck.isEmpty then ["true"] else healthcheck

def nixDevelopCommand (healthcheck : List String) : List String :=
  ["develop", "--command"] ++ healthcheckArguments healthcheck

/-- The trimmed parts that are not empty, on lines of their own. -/
def joinLogs (stdout stderr : String) : String :=
  "\n".intercalate (([stdout, stderr].map fun part => String.ofList (trim part.toList)).filter
    fun part => !part.isEmpty)

def runNixDevelopHealthcheck (healthcheck : List String) (nixAvailable : Bool) :
    Running NixDevelopHealthcheck :=
  let command := nixDevelopCommand healthcheck
  if !nixAvailable then
    return ⟨.unavailable, command, false, none, "", "nix command is not available",
      "nix command is not available"⟩
  else if !context.tree.isFile "flake.nix" then
    return ⟨.noFlake, command, false, none, "", "flake.nix was not found",
      "flake.nix was not found"⟩
  else do
    let output ← runCommand context { program := "nix", args := command }
    let shellReady := output.succeeded
    return ⟨if shellReady then .shellReady else .failed, command, shellReady, output.statusCode,
      output.stdout, output.stderr,
      if shellReady then "" else joinLogs output.stdout output.stderr⟩

/-! ## Dev containers -/

inductive ContainerEngine where
  | docker
  | podman
  deriving DecidableEq, Repr

def ContainerEngine.command : ContainerEngine → String
  | .docker => "docker"
  | .podman => "podman"

inductive DevContainerPrepareState where
  | noConfig
  | engineUnavailable
  | approvalRequired
  | prepared
  | failed
  deriving DecidableEq, Repr

inductive DevContainerHealthState where
  | notReady
  | shellReady
  | failed
  deriving DecidableEq, Repr

structure DevContainerImagePrepare where
  state : DevContainerPrepareState
  command : List String
  exitCode : Option Int
  stdout : String
  stderr : String
  logs : String
  deriving DecidableEq, Repr

structure DevContainerHealthcheck where
  state : DevContainerHealthState
  command : List String
  shellReady : Bool
  exitCode : Option Int
  stdout : String
  stderr : String
  failureLogs : String
  deriving DecidableEq, Repr

structure DevContainerAdapterReport where
  configPath : Option String
  engine : Option ContainerEngine
  fingerprint : Option String
  imagePrepare : DevContainerImagePrepare
  healthcheck : DevContainerHealthcheck
  deriving DecidableEq, Repr

def devcontainerConfig : String := ".devcontainer/devcontainer.json"

def detectDevcontainerConfig (tree : RepositoryTree) : Option String :=
  if tree.isFile devcontainerConfig then some devcontainerConfig else none

/-- The loop over the engines. -/
def detectContainerEngine : Running (Option ContainerEngine) := do
  let docker ← probe context ContainerEngine.docker.command
  if docker then return some .docker
  else
    let podman ← probe context ContainerEngine.podman.command
    if podman then return some .podman else return none

def devcontainerFingerprintFiles (tree : RepositoryTree) : List String :=
  [devcontainerConfig, ".devcontainer/Dockerfile", ".devcontainer/docker-compose.yml",
    ".devcontainer/compose.yml"].filter tree.isFile

/-- The body of the loop over the fingerprint files. -/
def updateDevcontainerFile (tree : RepositoryTree) (hasher : Hasher) (relative : String) :
    Except DevRelayError Hasher :=
  match tree.read relative with
  | .error err => .error (.io err)
  | .ok bytes =>
    let hasher := updateHashField (updateHashField hasher relative) (toString bytes.size)
    .ok ((hasher.update bytes).update ⟨#[0]⟩)

def computeDevcontainerFingerprint (tree : RepositoryTree) (digest : Blake3) :
    Except DevRelayError (Option String) := do
  let files := devcontainerFingerprintFiles tree
  if files.isEmpty then return none
  else
    let hasher ← files.foldlM (updateDevcontainerFile tree)
      (updateHashField Hasher.new "devrelay.devcontainer.v1")
    return some (digest.hex hasher.fed)

def devcontainerUpCommand (root : String) : List String := ["up", "--workspace-folder", root]

def devcontainerExecCommand (root : String) (healthcheck : List String) : List String :=
  ["exec", "--workspace-folder", root] ++ healthcheckArguments healthcheck

def devcontainerPrepareTerminal (state : DevContainerPrepareState) (command : List String)
    (exitCode : Option Int) (stdout stderr : String) : DevContainerImagePrepare :=
  ⟨state, command, exitCode, stdout, stderr, stderr⟩

def prepareDevcontainerImage (configPresent : Bool) (engine : Option ContainerEngine)
    (allowImagePullOrBuild : Bool) : Running DevContainerImagePrepare :=
  let command := devcontainerUpCommand context.root
  if !configPresent then
    return devcontainerPrepareTerminal .noConfig command none "" "devcontainer.json was not found"
  else if engine.isNone then
    return devcontainerPrepareTerminal .engineUnavailable command none ""
      "no supported container engine was found"
  else if !allowImagePullOrBuild then
    return devcontainerPrepareTerminal .approvalRequired command none ""
      "image pull/build requires user approval"
  else do
    let output ← runCommand context { program := "devcontainer", args := command }
    let prepared := output.succeeded
    return ⟨if prepared then .prepared else .failed, command, output.statusCode, output.stdout,
      output.stderr, if prepared then "" else joinLogs output.stdout output.stderr⟩

def runDevcontainerHealthcheck (healthcheck : List String)
    (prepareState : DevContainerPrepareState) : Running DevContainerHealthcheck :=
  let command := devcontainerExecCommand context.root healthcheck
  if prepareState ≠ .prepared then
    return ⟨.notReady, command, false, none, "", "devcontainer image is not prepared",
      "devcontainer image is not prepared"⟩
  else do
    let output ← runCommand context { program := "devcontainer", args := command }
    let shellReady := output.succeeded
    return ⟨if shellReady then .shellReady else .failed, command, shellReady, output.statusCode,
      output.stdout, output.stderr,
      if shellReady then "" else joinLogs output.stdout output.stderr⟩

def inspectDevcontainerEnvironment (healthcheck : List String) (allowImagePullOrBuild : Bool) :
    Running DevContainerAdapterReport := do
  let configPath := detectDevcontainerConfig context.tree
  let engine ← detectContainerEngine context
  let fingerprint ← Prog.ofExcept (computeDevcontainerFingerprint context.tree context.digest)
  let imagePrepare ← prepareDevcontainerImage context configPath.isSome engine
    allowImagePullOrBuild
  let healthcheck ← runDevcontainerHealthcheck context healthcheck imagePrepare.state
  return ⟨configPath, engine, fingerprint, imagePrepare, healthcheck⟩

/-! ## Native and script profiles -/

inductive NativeBootstrapShell where
  | posix
  | powerShell
  | direct
  deriving DecidableEq, Repr

inductive NativeBootstrapState where
  | approvalRequired
  | succeeded
  | failed
  | timedOut
  deriving DecidableEq, Repr

inductive NativeHealthState where
  | notReady
  | shellReady
  | failed
  | timedOut
  deriving DecidableEq, Repr

structure NativeBootstrapRun where
  state : NativeBootstrapState
  shell : NativeBootstrapShell
  command : List String
  timeoutSeconds : Option UInt64
  exitCode : Option Int
  stdout : String
  stderr : String
  logs : String
  deriving DecidableEq, Repr

structure NativeHealthcheck where
  state : NativeHealthState
  command : List String
  shellReady : Bool
  exitCode : Option Int
  stdout : String
  stderr : String
  failureLogs : String
  deriving DecidableEq, Repr

structure NativeBootstrapAdapterReport where
  bootstrap : NativeBootstrapRun
  healthcheck : NativeHealthcheck
  deriving DecidableEq, Repr

/-- `Path::file_name` -/
def fileName? (path : String) : Option String :=
  match (components path).getLast? with
  | some (.normal name) => some name
  | _ => none

def classifyNativeCommand : List String → NativeBootstrapShell
  | [] => .direct
  | program :: _ =>
    let name := ((fileName? program).getD program).toLower
    if name = "sh" || name = "bash" || name = "zsh" then .posix
    else if name = "pwsh" || name = "powershell" || name = "powershell.exe" ||
        name = "pwsh.exe" then .powerShell
    else .direct

def runEnvironmentValues (values : List String) (timeoutSeconds : Option UInt64) :
    Running EnvironmentCommandOutput :=
  match values with
  | [] => Prog.fail (.manifest "environment command must contain at least one argument")
  | program :: args => runCommand context { program, args, timeoutSeconds }

def runNativeBootstrap (profile : EnvironmentProfile) (trustApproved : Bool) :
    Running NativeBootstrapRun :=
  let shell := classifyNativeCommand profile.command
  if !trustApproved then
    return ⟨.approvalRequired, shell, profile.command, profile.timeoutSeconds, none, "",
      "native bootstrap requires trust approval", "native bootstrap requires trust approval"⟩
  else do
    let output ← runEnvironmentValues context profile.command profile.timeoutSeconds
    let stdout := context.redactText output.stdout
    let stderr := context.redactText output.stderr
    let succeeded := output.succeeded
    return ⟨if output.timedOut then .timedOut else if succeeded then .succeeded else .failed,
      shell, profile.command, profile.timeoutSeconds, output.statusCode, stdout, stderr,
      if succeeded then "" else joinLogs stdout stderr⟩

def nativeHealthcheckCommand (profile : EnvironmentProfile) (shell : NativeBootstrapShell) :
    List String :=
  match profile.healthcheck with
  | some healthcheck => healthcheck
  | none =>
    match shell with
    | .posix => ["sh", "-lc", "true"]
    | .powerShell => [profile.command.head?.getD "pwsh", "-NoProfile", "-NonInteractive",
        "-Command", "$true"]
    | .direct => ["true"]

def runNativeHealthcheck (profile : EnvironmentProfile) (bootstrapState : NativeBootstrapState) :
    Running NativeHealthcheck :=
  let command := nativeHealthcheckCommand profile (classifyNativeCommand profile.command)
  if bootstrapState ≠ .succeeded then
    return ⟨.notReady, command, false, none, "", "native bootstrap is not ready",
      "native bootstrap is not ready"⟩
  else do
    let output ← runEnvironmentValues context command profile.timeoutSeconds
    let stdout := context.redactText output.stdout
    let stderr := context.redactText output.stderr
    let shellReady := output.succeeded
    return ⟨if output.timedOut then .timedOut else if shellReady then .shellReady else .failed,
      command, shellReady, output.statusCode, stdout, stderr,
      if shellReady then "" else joinLogs stdout stderr⟩

def inspectNativeEnvironment (profile : EnvironmentProfile) (trustApproved : Bool) :
    Running NativeBootstrapAdapterReport := do
  let bootstrap ← runNativeBootstrap context profile trustApproved
  let healthcheck ← runNativeHealthcheck context profile bootstrap.state
  return ⟨bootstrap, healthcheck⟩

end DevRelay.Environment
