import DevRelay.Manifest.TrustHash
import Mathlib.Data.List.Sort
import Mathlib.Data.String.Basic

/-!
# Task definitions

The task model of `task_model.rs`: a task of the manifest with the profile it
selects, reduced to a definition with a hash.  The hash is of the tagged fields of
both, each followed by a zero byte; nothing counts the values of a list, and a
missing option is written as the word `none`.
-/

namespace DevRelay.Core

open DevRelay.Lib

/-- The `\x7b:?\x7d` rendering. -/
def EnvironmentKind.debug : EnvironmentKind → String
  | .nix => "Nix"
  | .devcontainer => "Devcontainer"
  | .native => "Native"
  | .script => "Script"
  | .manual => "Manual"

def TaskCacheMode.debug : TaskCacheMode → String
  | .off => "Off"
  | .read => "Read"
  | .write => "Write"
  | .readWrite => "ReadWrite"

def TaskSandbox.debug : TaskSandbox → String
  | .host => "Host"
  | .sandbox => "Sandbox"
  | .container => "Container"
  | .vm => "Vm"

def sorted (values : List String) : List String := values.insertionSort (· ≤ ·)

@[simp] theorem sorted_singleton (v : String) : sorted [v] = [v] := rfl

def updateHashSortedValues (hasher : Hasher) (field : String) (values : List String) : Hasher :=
  (sorted values).foldl updateHashField (updateHashField hasher field)

/-- The second field of an option. -/
def optionText {τ : Type} (render : τ → String) : Option τ → String
  | some value => render value
  | none => "none"

def updateHashOptionalU64 (hasher : Hasher) (field : String) (value : Option UInt64) : Hasher :=
  updateHashField (updateHashField hasher field) (optionText toString value)

def updateHashOptionalDebug {τ : Type} (debug : τ → String) (hasher : Hasher)
    (field : String) (value : Option τ) : Hasher :=
  updateHashField (updateHashField hasher field) (optionText debug value)

def updateHashOptionalString (hasher : Hasher) (field : String) (value : Option String) : Hasher :=
  updateHashField (updateHashField hasher field) (optionText id value)

/-- The `if let` on the health check. -/
def updateHashHealthcheck (hasher : Hasher) (healthcheck : Option (List String)) : Hasher :=
  match healthcheck with
  | some healthcheck => updateHashCommand hasher "profile.healthcheck" healthcheck
  | none => updateHashField hasher "profile.healthcheck.none"

/-- The bytes fed to the hasher by `task_command_definition_hash_parts`. -/
def taskCommandDefinitionStream (projectId taskName : String) (task : TaskConfig)
    (profile : EnvironmentProfile) : ByteArray :=
  let hasher := updateHashField Hasher.new "devrelay.task-command.v1"
  let hasher := updateHashField hasher projectId
  let hasher := updateHashField hasher taskName
  let hasher := updateHashField hasher task.profile
  let hasher := updateHashCommand hasher "task.command" task.command
  let hasher := updateHashSortedValues hasher "task.platforms" task.platforms
  let hasher := updateHashOptionalU64 hasher "task.cpu" task.cpu
  let hasher := updateHashOptionalU64 hasher "task.memory_mib" task.memoryMib
  let hasher := updateHashOptionalU64 hasher "task.disk_mib" task.diskMib
  let hasher := updateHashField hasher "task.interactive"
  let hasher := updateHashField hasher (if task.interactive then "true" else "false")
  let hasher := updateHashOptionalDebug TaskCacheMode.debug hasher "task.cache" task.cache
  let hasher := updateHashSortedValues hasher "task.outputs" task.outputs
  let hasher := updateHashSortedValues hasher "task.features" task.features
  let hasher := updateHashOptionalDebug TaskSandbox.debug hasher "task.sandbox" task.sandbox
  let hasher := updateHashField hasher "profile.kind"
  let hasher := updateHashField hasher profile.kind.debug
  let hasher := updateHashSortedValues hasher "profile.targets" profile.targets
  let hasher := updateHashCommand hasher "profile.command" profile.command
  let hasher := updateHashSortedValues hasher "profile.fingerprint_files"
    profile.fingerprintFiles
  let hasher := updateHashHealthcheck hasher profile.healthcheck
  let hasher := updateHashOptionalString hasher "profile.working_directory"
    profile.workingDirectory
  let hasher := updateHashOptionalU64 hasher "profile.timeout_seconds"
    profile.timeoutSeconds
  hasher.fed

def taskCommandDefinitionHashParts (blake3 : Blake3) (projectId taskName : String)
    (task : TaskConfig) (profile : EnvironmentProfile) : String :=
  blake3.hex (taskCommandDefinitionStream projectId taskName task profile)

structure TaskDefinition where
  projectId : String
  taskName : String
  profileName : String
  profileKind : EnvironmentKind
  command : List String
  platforms : List String
  cpu : Option UInt64
  memoryMib : Option UInt64
  diskMib : Option UInt64
  interactive : Bool
  cache : Option TaskCacheMode
  outputs : List String
  features : List String
  sandbox : Option TaskSandbox
  commandDefinitionHash : String
  deriving DecidableEq

def profileForTask (manifest : Manifest) (taskName : String) (task : TaskConfig) :
    Except DevRelayError EnvironmentProfile :=
  match manifest.environment.bind fun environment =>
      environment.profiles.find? task.profile with
  | some profile => .ok profile
  | none =>
    .error (.config ("task " ++ debugString taskName ++
      " references unknown environment profile " ++ debugString task.profile))

def taskDefinition (blake3 : Blake3) (manifest : Manifest) (taskName : String) :
    Except DevRelayError TaskDefinition := do
  match manifest.tasks.find? taskName with
  | none => .error (.config ("unknown task definition " ++ debugString taskName))
  | some task =>
    let profile ← profileForTask manifest taskName task
    return {
      projectId := manifest.projectId
      taskName := taskName
      profileName := task.profile
      profileKind := profile.kind
      command := task.command
      platforms := sorted task.platforms
      cpu := task.cpu
      memoryMib := task.memoryMib
      diskMib := task.diskMib
      interactive := task.interactive
      cache := task.cache
      outputs := sorted task.outputs
      features := sorted task.features
      sandbox := task.sandbox
      commandDefinitionHash :=
        taskCommandDefinitionHashParts blake3 manifest.projectId taskName task profile }

def taskCommandDefinitionHash (blake3 : Blake3) (manifest : Manifest) (taskName : String) :
    Except DevRelayError String := do
  match manifest.tasks.find? taskName with
  | none => .error (.config ("unknown task definition " ++ debugString taskName))
  | some task =>
    let profile ← profileForTask manifest taskName task
    return taskCommandDefinitionHashParts blake3 manifest.projectId taskName task profile

/-! ## The stream as a sequence of fields -/

def checkFields : Option (List String) → List String
  | some healthcheck => "profile.healthcheck" :: healthcheck
  | none => ["profile.healthcheck.none"]

/-- The fields between the platforms and the outputs. -/
def hintFields (task : TaskConfig) : List String :=
  ["task.cpu", optionText toString task.cpu,
    "task.memory_mib", optionText toString task.memoryMib,
    "task.disk_mib", optionText toString task.diskMib,
    "task.interactive", if task.interactive then "true" else "false",
    "task.cache", optionText TaskCacheMode.debug task.cache,
    "task.outputs"]

/-- The fields between the features and the targets. -/
def kindFields (sandbox : Option TaskSandbox) (kind : EnvironmentKind) : List String :=
  ["task.sandbox", optionText TaskSandbox.debug sandbox, "profile.kind", kind.debug,
    "profile.targets"]

/-- All fields in the order in which they are fed. -/
def definitionFields (projectId taskName : String) (task : TaskConfig)
    (profile : EnvironmentProfile) : List String :=
  ["devrelay.task-command.v1", projectId, taskName, task.profile] ++
    (["task.command"] ++ (task.command ++
    (["task.platforms"] ++ (sorted task.platforms ++
    (hintFields task ++ (sorted task.outputs ++
    (["task.features"] ++ (sorted task.features ++
    (kindFields task.sandbox profile.kind ++ (sorted profile.targets ++
    (["profile.command"] ++ (profile.command ++
    (["profile.fingerprint_files"] ++
      ((sorted profile.fingerprintFiles ++ checkFields profile.healthcheck) ++
    (["profile.working_directory"] ++
      ([optionText id profile.workingDirectory, "profile.timeout_seconds",
        optionText toString profile.timeoutSeconds]))))))))))))))))

theorem updateHashSortedValues_eq (hasher : Hasher) (field : String) (values : List String) :
    updateHashSortedValues hasher field values = hasher.feed (field :: sorted values) :=
  updateHashCommand_eq hasher field (sorted values)

theorem updateHashHealthcheck_eq (hasher : Hasher) (healthcheck : Option (List String)) :
    updateHashHealthcheck hasher healthcheck = hasher.feed (checkFields healthcheck) := by
  cases healthcheck with
  | none => exact updateHashField_eq hasher _
  | some healthcheck => exact updateHashCommand_eq hasher _ healthcheck

theorem taskCommandDefinitionStream_eq (projectId taskName : String) (task : TaskConfig)
    (profile : EnvironmentProfile) :
    taskCommandDefinitionStream projectId taskName task profile =
      (framedText (definitionFields projectId taskName task profile)).toByteArray := by
  have hfed : (framedText (definitionFields projectId taskName task profile)).toByteArray =
      (Hasher.new.feed (definitionFields projectId taskName task profile)).fed := by
    simp [Hasher.feed, Hasher.update, Hasher.new]
  rw [hfed, taskCommandDefinitionStream]
  simp only [updateHashOptionalU64, updateHashOptionalDebug, updateHashOptionalString,
    updateHashHealthcheck_eq, updateHashSortedValues_eq, updateHashCommand_eq, updateHashField_eq,
    ← Hasher.feed_append]
  simp only [definitionFields, hintFields, kindFields, List.append_assoc, List.cons_append,
    List.nil_append]

end DevRelay.Core
