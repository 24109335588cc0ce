import DevRelay.Environment.Adapters
import DevRelay.Environment.Selection
import DevRelay.Secrets.Materialize
import DevRelay.Trust.Command

/-!
# The environment doctor

`run_environment_doctor` of `environment_doctor.rs`: it probes for the programs that the
adapters need, selects a profile, collects what stands in its way, and runs the health check
of the selected profile when it is asked to.  The texts of the safe actions are left out.
-/

namespace DevRelay.Environment

open DevRelay.Core DevRelay.Lib DevRelay.Secrets DevRelay.Trust

structure EnvironmentDoctorOptions where
  platformKey : String
  commandTrust : Option CommandTrustEvaluation
  runHealthcheck : Bool
  allowDevcontainerPrepare : Bool
  deriving DecidableEq, Repr

inductive EnvironmentDoctorIssueCode where
  | missingNix
  | missingContainerEngine
  | missingPowerShell
  | changedCommandHash
  | missingRequiredSecret
  | incompatiblePlatformTarget
  | healthcheckFailure
  deriving DecidableEq, Repr

structure EnvironmentDoctorIssue where
  code : EnvironmentDoctorIssueCode
  profileName : Option String
  secretName : Option String
  message : String
  detail : Option String
  deriving DecidableEq, Repr

structure EnvironmentDoctorReport where
  repo : String
  platformKey : String
  selectedProfileName : Option String
  selectedProfileKind : Option EnvironmentKind
  selectionExplanation : List String
  nixAvailable : Bool
  containerEngine : Option String
  powershellAvailable : Bool
  requiredSecretCount : Nat
  mappedRequiredSecretCount : Nat
  issues : List EnvironmentDoctorIssue
  deriving DecidableEq, Repr

def commandTrustIsApproved (commandTrust : Option CommandTrustEvaluation) : Bool :=
  commandTrust.any fun evaluation => evaluation.status.approved

def profileUsesPowershell (profile : EnvironmentProfile) : Bool :=
  classifyNativeCommand profile.command = .powerShell ||
    profile.healthcheck.any fun command => classifyNativeCommand command = .powerShell

/-- The body of the loop over the profiles. -/
def profileIssue (options : EnvironmentDoctorOptions)
    (nixAvailable containerEngineAvailable powershellAvailable : Bool)
    (entry : String × EnvironmentProfile) : Option EnvironmentDoctorIssue :=
  if !profileTargetsPlatform entry.2.targets options.platformKey then none
  else
    match entry.2.kind with
    | .nix =>
      if nixAvailable then none
      else some ⟨.missingNix, some entry.1, none,
        "Profile " ++ entry.1 ++ " requires Nix, but the nix command is unavailable.", none⟩
    | .devcontainer =>
      if containerEngineAvailable then none
      else some ⟨.missingContainerEngine, some entry.1, none, "Profile " ++ entry.1 ++
        " requires a Dev Container, but Docker or Podman is unavailable.", none⟩
    | .native | .script =>
      if profileUsesPowershell entry.2 && !powershellAvailable then
        some ⟨.missingPowerShell, some entry.1, none, "Profile " ++ entry.1 ++
          " requires PowerShell, but no PowerShell command was found.", none⟩
      else none
    | .manual => none

def collectProfileIssues (manifest : Manifest) (options : EnvironmentDoctorOptions)
    (nixAvailable containerEngineAvailable powershellAvailable : Bool) :
    List EnvironmentDoctorIssue :=
  (if manifest.profiles ≠ [] && !(manifest.profiles.any fun entry =>
      profileTargetsPlatform entry.2.targets options.platformKey) then
    [⟨.incompatiblePlatformTarget, none, none,
      "No environment profile targets platform " ++ options.platformKey ++ ".", none⟩]
  else []) ++
  manifest.profiles.filterMap
    (profileIssue options nixAvailable containerEngineAvailable powershellAvailable)

def collectCommandTrustIssues (commandTrust : Option CommandTrustEvaluation) :
    List EnvironmentDoctorIssue :=
  if commandTrust.any fun evaluation => evaluation.status = .changed then
    [⟨.changedCommandHash, none, none,
      "Executable manifest command content changed since the last approval.", none⟩]
  else []

/-- The body of the loop over the required secrets. -/
def secretIssue (localSecrets : SecretProviderLocalConfig) (entry : String × SecretConfig) :
    Option EnvironmentDoctorIssue :=
  if localSecrets.mappings.containsKey entry.1 then none
  else
    let target := match entry.2.mode with
      | .file => "file " ++ entry.2.target
      | .environment => entry.2.environmentVariable.getD entry.2.target
    some ⟨.missingRequiredSecret, none, some entry.1, "Required secret " ++ entry.1 ++
      " has no local provider mapping for " ++ target ++ ".", none⟩

def requiredSecrets (manifest : Manifest) : List (String × SecretConfig) :=
  manifest.secrets.entries.filter fun entry => entry.2.required

def healthcheckFailure (profileName what : String) (detail : String) : EnvironmentDoctorIssue :=
  ⟨.healthcheckFailure, some profileName, none, "Profile " ++ profileName ++ " " ++ what,
    some detail⟩

section Runs

variable (context : AdapterContext)

/-- The loop over the names of PowerShell. -/
def detectPowershellFrom : List String → Running Bool
  | [] => return false
  | program :: rest => do
    let available ← probe context program
    if available then return true else detectPowershellFrom rest

def detectPowershellAvailability : Running Bool :=
  detectPowershellFrom context ["pwsh", "powershell", "powershell.exe", "pwsh.exe"]

def collectHealthcheckIssue (profileName : String) (profile : EnvironmentProfile)
    (nixAvailable : Bool) (options : EnvironmentDoctorOptions) :
    Running (List EnvironmentDoctorIssue) :=
  let healthcheck := profile.healthcheck.getD []
  match profile.kind with
  | .nix => do
    let report ← runNixDevelopHealthcheck context healthcheck nixAvailable
    if report.state = .failed then
      return [healthcheckFailure profileName "Nix healthcheck failed."
        (context.redactText report.failureLogs)]
    else return []
  | .devcontainer => do
    let report ← inspectDevcontainerEnvironment context healthcheck
      options.allowDevcontainerPrepare
    if report.imagePrepare.state = .failed then
      return [healthcheckFailure profileName "Dev Container preparation failed."
        (context.redactText report.imagePrepare.logs)]
    else if report.healthcheck.state = .failed then
      return [healthcheckFailure profileName "Dev Container healthcheck failed."
        (context.redactText report.healthcheck.failureLogs)]
    else return []
  | .native | .script =>
    if !commandTrustIsApproved options.commandTrust then return []
    else do
      let report ← inspectNativeEnvironment context profile true
      if report.bootstrap.state = .failed || report.bootstrap.state = .timedOut then
        return [healthcheckFailure profileName "native bootstrap failed."
          (context.redactText report.bootstrap.logs)]
      else if report.healthcheck.state = .failed || report.healthcheck.state = .timedOut then
        return [healthcheckFailure profileName "native healthcheck failed."
          (context.redactText report.healthcheck.failureLogs)]
      else return []
  | .manual => return []

/-- The kinds whose adapters can be used. -/
def availableKinds (options : EnvironmentDoctorOptions) (nixAvailable : Bool)
    (containerEngine : Option ContainerEngine) : List EnvironmentKind :=
  [.manual, .native] ++ (if nixAvailable then [.nix] else []) ++
    (if containerEngine.isSome then [.devcontainer] else []) ++
    if commandTrustIsApproved options.commandTrust then [.script] else []

def selectionContext (manifest : Manifest) (options : EnvironmentDoctorOptions)
    (nixAvailable : Bool) (containerEngine : Option ContainerEngine) :
    EnvironmentSelectionContext where
  platformKey := options.platformKey
  availableKinds := availableKinds options nixAvailable containerEngine
  trustedCommandScopes :=
    if commandTrustIsApproved options.commandTrust then
      manifest.profiles.map fun entry => environmentProfileCommandScope entry.1
    else []

/-- `environment.profiles.get(profile_name)` -/
def profileNamed (manifest : Manifest) (profileName : String) : Option EnvironmentProfile :=
  manifest.environment.bind fun environment => environment.profiles.find? profileName

/-- The health check of the selected profile, when one is asked for. -/
def checkSelectedProfile (manifest : Manifest) (options : EnvironmentDoctorOptions)
    (nixAvailable : Bool) (profileName : Option String) :
    Running (List EnvironmentDoctorIssue) :=
  match profileName with
  | none => return []
  | some profileName =>
    match profileNamed manifest profileName with
    | none => return []
    | some profile =>
      if options.runHealthcheck then
        collectHealthcheckIssue context profileName profile nixAvailable options
      else return []

def runEnvironmentDoctor (manifest : Manifest) (localSecrets : SecretProviderLocalConfig)
    (options : EnvironmentDoctorOptions) : Running EnvironmentDoctorReport := do
  let nixAvailable ← detectNixAvailability context
  let containerEngine ← detectContainerEngine context
  let powershellAvailable ← detectPowershellAvailability context
  let selection := selectEnvironmentProfile manifest
    (selectionContext manifest options nixAvailable containerEngine)
  let healthcheckIssues ← checkSelectedProfile context manifest options nixAvailable
    selection.profileName
  let secrets := requiredSecrets manifest
  return {
    repo := context.root
    platformKey := options.platformKey
    selectedProfileName := selection.profileName
    selectedProfileKind := selection.kind
    selectionExplanation := selection.explanation
    nixAvailable
    containerEngine := containerEngine.map ContainerEngine.command
    powershellAvailable
    requiredSecretCount := secrets.length
    mappedRequiredSecretCount :=
      secrets.countP fun entry => localSecrets.mappings.containsKey entry.1
    issues := collectProfileIssues manifest options nixAvailable containerEngine.isSome
        powershellAvailable ++ collectCommandTrustIssues options.commandTrust ++
      secrets.filterMap (secretIssue localSecrets) ++ healthcheckIssues }

end Runs

end DevRelay.Environment
