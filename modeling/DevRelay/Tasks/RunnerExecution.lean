import DevRelay.Lib.ByteStream
import DevRelay.Tasks.RunnerWorkspace

/-!
# Execution in a runner workspace

`execute_task_in_runner_workspace` of `task_runner_execution.rs`: the working directory is
resolved, the command is started in it, and what it writes is captured.  What a command does
after it has been started is a parameter: what the reads of its output return, in which order
the two readers hand over their pieces, and how it ends.
-/

namespace DevRelay.Runner

open DevRelay.Lib DevRelay.Core DevRelay.Secrets

structure TaskExecutionOptions where
  workingDirectory : Option String
  environment : SortedMap String String

inductive TaskExecutionBackend where
  | host
  | sandboxPlaceholder
  | containerPlaceholder
  | vmPlaceholder
  deriving DecidableEq, Repr

/-- The `\x7b:?\x7d` rendering of a backend. -/
def TaskExecutionBackend.debug : TaskExecutionBackend → String
  | host => "Host"
  | sandboxPlaceholder => "SandboxPlaceholder"
  | containerPlaceholder => "ContainerPlaceholder"
  | vmPlaceholder => "VmPlaceholder"

def taskExecutionBackend (definition : TaskDefinition) : TaskExecutionBackend :=
  match definition.sandbox with
  | none => .host
  | some .host => .host
  | some .sandbox => .sandboxPlaceholder
  | some .container => .containerPlaceholder
  | some .vm => .vmPlaceholder

inductive TaskRunState where
  | queued
  | running
  | succeeded
  | failed
  | canceled
  deriving DecidableEq, Repr

inductive TaskExecutionLogStream where
  | stdout
  | stderr
  deriving DecidableEq, Repr

structure TaskExecutionLogEvent where
  stream : TaskExecutionLogStream
  chunk : String
  deriving DecidableEq, Repr

structure TaskCommandOutput where
  exitCode : Option Int
  stdout : String
  stderr : String
  timedOut : Bool
  canceled : Bool
  deriving DecidableEq, Repr

structure TaskExecutionResult where
  taskRunId : String
  taskName : String
  backend : TaskExecutionBackend
  state : TaskRunState
  command : List String
  workingDirectory : String
  exitCode : Option Int
  timedOut : Bool
  canceled : Bool
  durationMillis : UInt64
  stdout : String
  stderr : String
  logs : List TaskExecutionLogEvent
  deriving DecidableEq, Repr

structure StartedCommand where
  cwd : String
  program : String
  args : List String
  environment : List (String × String)
  deriving DecidableEq, Repr

/-- What a started command does as the runner sees it. -/
structure ProcessRun where
  stdoutReads : List (Except IoFailure (List UInt8))
  stderrReads : List (Except IoFailure (List UInt8))
  /-- whose message comes next -/
  order : List TaskExecutionLogStream
  /-- the exit code, and whether the command was killed when its time was over -/
  ending : Except DevRelayError (Option Int × Bool)

/-- What an execution finds outside. -/
structure ExecutionEnv where
  tree : FileTree
  currentDir : Location
  spawn : StartedCommand → Except DevRelayError ProcessRun
  /-- `on_log` of the sink, after these events -/
  onLog : List TaskExecutionLogEvent → TaskExecutionLogEvent → Except DevRelayError Unit
  elapsedMillis : UInt64

/-! ## The working directory -/

def isDir (env : ExecutionEnv) (path : String) : Bool :=
  (env.tree.locate env.currentDir (steps path)).bind env.tree.node = some .directory

def configuredDirectory (manifest : Manifest) (definition : TaskDefinition)
    (options : TaskExecutionOptions) : Option String :=
  options.workingDirectory.or
    ((manifest.environment.bind fun environment =>
      environment.profiles.find? definition.profileName).bind fun profile =>
        profile.workingDirectory)

def resolveTaskWorkingDirectory (env : ExecutionEnv) (manifest : Manifest)
    (workspace : TaskRunnerWorkspace) (definition : TaskDefinition)
    (options : TaskExecutionOptions) : Except DevRelayError String :=
  match configuredDirectory manifest definition options with
  | none => .ok workspace.path
  | some configured =>
    if Journal.isBlank configured || Artifacts.leavesDirectory configured then
      .error (.config ("task working directory must stay inside runner workspace: " ++
        debugString configured))
    else if isDir env (join workspace.path configured) then .ok (join workspace.path configured)
    else .error (.config ("task working directory does not exist: " ++
      join workspace.path configured))

def taskExecutionEnvironment (workspace : TaskRunnerWorkspace)
    (environment : SortedMap String String) : SortedMap String String :=
  match workspace.secrets with
  | .materialized report =>
    report.environmentVariables.entries.foldl (fun environment entry =>
      environment.insert entry.1 entry.2) environment
  | .skippedNotPermitted _ => environment

/-! ## What the command writes -/

structure LogMessage where
  stream : TaskExecutionLogStream
  chunk : String

/-- `spawn_log_reader`: one message for each read, up to the end or the first failure. -/
def spawnLogReader (stream : TaskExecutionLogStream) :
    List (Except IoFailure (List UInt8)) → List LogMessage
  | [] => []
  | .error _ :: _ => []
  | .ok [] :: _ => []
  | .ok bytes :: reads =>
    ⟨stream, String.ofList (fromUtf8Lossy bytes)⟩ :: spawnLogReader stream reads

/-- The messages of the two readers as they come out of the channel. -/
def received : List TaskExecutionLogStream → List LogMessage → List LogMessage → List LogMessage
  | [], out, err => out ++ err
  | .stdout :: order, message :: out, err => message :: received order out err
  | .stdout :: order, [], err => received order [] err
  | .stderr :: order, out, message :: err => message :: received order out err
  | .stderr :: order, out, [] => received order out []

/-- The two outputs and the events of `TeeTaskLogSink`. -/
structure Captured where
  stdout : String
  stderr : String
  events : List TaskExecutionLogEvent

def appendLogMessage (env : ExecutionEnv) (captured : Captured) (message : LogMessage) :
    Except DevRelayError Captured :=
  let event : TaskExecutionLogEvent := ⟨message.stream, message.chunk⟩
  match env.onLog captured.events event with
  | .error e => .error e
  | .ok _ => .ok {
      stdout := match message.stream with
        | .stdout => captured.stdout ++ message.chunk
        | .stderr => captured.stdout
      stderr := match message.stream with
        | .stdout => captured.stderr
        | .stderr => captured.stderr ++ message.chunk
      events := captured.events ++ [event] }

def captureOutput (env : ExecutionEnv) (process : ProcessRun) : Except DevRelayError Captured :=
  (received process.order (spawnLogReader .stdout process.stdoutReads)
    (spawnLogReader .stderr process.stderrReads)).foldlM (appendLogMessage env) ⟨"", "", []⟩

/-- `SystemTaskCommandRunner::run` behind `spawn`. -/
def finishCommand (env : ExecutionEnv) (process : ProcessRun) :
    Except DevRelayError (TaskCommandOutput × List TaskExecutionLogEvent) := do
  let captured ← captureOutput env process
  let (code, timedOut) ← process.ending
  return ({
    exitCode := if timedOut then none else code
    stdout := captured.stdout
    stderr := captured.stderr
    timedOut
    canceled := timedOut }, captured.events)

/-! ## The execution -/

def placeholderExecutionResult (env : ExecutionEnv) (workspace : TaskRunnerWorkspace)
    (definition : TaskDefinition) (backend : TaskExecutionBackend) (workingDirectory : String) :
    Except DevRelayError TaskExecutionResult :=
  let stderr := backend.debug ++ " runner is a placeholder and cannot execute tasks yet"
  match env.onLog [] ⟨.stderr, stderr⟩ with
  | .error e => .error e
  | .ok _ => .ok {
      taskRunId := workspace.taskRunId
      taskName := definition.taskName
      backend
      state := .failed
      command := definition.command
      workingDirectory
      exitCode := none
      timedOut := false
      canceled := false
      durationMillis := 0
      stdout := ""
      stderr
      logs := [⟨.stderr, stderr⟩] }

def executionResult (env : ExecutionEnv) (workspace : TaskRunnerWorkspace)
    (definition : TaskDefinition) (workingDirectory : String) (output : TaskCommandOutput)
    (logs : List TaskExecutionLogEvent) : TaskExecutionResult where
  taskRunId := workspace.taskRunId
  taskName := definition.taskName
  backend := .host
  state := if output.exitCode = some 0 then .succeeded
    else if output.canceled then .canceled
    else .failed
  command := definition.command
  workingDirectory
  exitCode := output.exitCode
  timedOut := output.timedOut
  canceled := output.canceled
  durationMillis := env.elapsedMillis
  stdout := output.stdout
  stderr := output.stderr
  logs

/-- The result, and the command that was started, if one was. -/
def executeTaskInRunnerWorkspace (env : ExecutionEnv) (manifest : Manifest)
    (workspace : TaskRunnerWorkspace) (definition : TaskDefinition)
    (options : TaskExecutionOptions) :
    Except DevRelayError TaskExecutionResult × Option StartedCommand :=
  match resolveTaskWorkingDirectory env manifest workspace definition options with
  | .error e => (.error e, none)
  | .ok workingDirectory =>
    let environment := taskExecutionEnvironment workspace options.environment
    if taskExecutionBackend definition ≠ .host then
      (placeholderExecutionResult env workspace definition (taskExecutionBackend definition)
        workingDirectory, none)
    else
      match definition.command with
      | [] => (.error (.config "task command must contain at least one argument"), none)
      | program :: args =>
        let command : StartedCommand := ⟨workingDirectory, program, args, environment.entries⟩
        match env.spawn command with
        | .error e => (.error e, none)
        | .ok process =>
          ((finishCommand env process).map fun finished =>
            executionResult env workspace definition workingDirectory finished.1 finished.2,
            some command)

end DevRelay.Runner
