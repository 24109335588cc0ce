import DevRelay.Core.Policy
import DevRelay.Journal.CrashJournal
import DevRelay.Lib.FileTree

/-!
# Secrets in the workspace

`secret_provider.rs`: the local device maps the secrets of the manifest to a
provider, and their values are written to files or go to the environment.  The
providers are a parameter.
-/

namespace DevRelay.Secrets

open DevRelay.Lib DevRelay.Core DevRelay.Journal

inductive SecretProviderKind where
  | osKeychain
  | onePasswordCli
  | bitwardenCli
  | sopsAge
  | userScript
  deriving DecidableEq, Repr

structure SecretProviderMapping where
  provider : SecretProviderKind
  reference : String
  command : List String
  deriving DecidableEq, Repr

structure SecretProviderLocalConfig where
  mappings : SortedMap String SecretProviderMapping

structure SecretProviderRequest where
  secretName : String
  mapping : SecretProviderMapping
  deriving DecidableEq, Repr

/-- `resolve_secret`, with the value in place of `SecretValue`. -/
abbrev SecretProvider := SecretProviderRequest → Except DevRelayError (Option String)

structure SecretFileMaterialization where
  secretName : String
  target : String
  deriving DecidableEq, Repr

structure SecretMaterializationReport where
  files : List SecretFileMaterialization
  environmentVariables : SortedMap String String
  missingOptional : List String
  hardExcludePatterns : List String

/-- A path that is written as a directory: `open` refuses it. -/
def endsAsDirectory (path : String) : Bool :=
  match (path.toList.splitOn '/').getLast? with
  | some part => part = [] || part = ['.'] || part = ['.', '.']
  | none => true

/-- The path stays as it is spelled. -/
def normalizeSecretTarget (target : String) : Except DevRelayError String :=
  if isBlank target || isAbsolute target ||
      (components target).any fun component => component = .parentDir || component = .rootDir then
    .error (.config ("secret target must stay inside the workspace: " ++ debugString target))
  else
    .ok target

/-- The targets of the file secrets, as patterns. -/
def secretHardExcludePatterns (manifest : Manifest) : List String :=
  ((manifest.secrets.values.filter fun secret => secret.mode = .file).filterMap
    fun secret => (normalizeSecretTarget secret.target).toOption).map normalizeRepoPath

/-- The files of the device, and the targets of the secrets that were written so far with
the locations they were written to. -/
structure Workspace where
  tree : FileTree
  written : List (String × Location)

abbrev Materializing := Prog Workspace DevRelayError

def onTree {α : Type} (program : Prog FileTree DevRelayError α) : Materializing α :=
  program.within Workspace.tree fun tree workspace => { workspace with tree }

/-- `root` is the location of the workspace. -/
def writeSecretFile (root : Location) (target value : String) : Materializing Unit := do
  onTree (FileTree.createDirAll (.io ("cannot create a directory for " ++ target)) root
    (steps target).dropLast)
  let location ← Prog.query fun workspace =>
    if endsAsDirectory target then none
    else workspace.tree.writable? root (steps target)
  let location ← Prog.orFail location (.io ("cannot write " ++ target))
  Prog.write fun workspace => {
    tree := workspace.tree.writeAt location value.toUTF8.toList
    written := workspace.written ++ [(target, location)] }
  Prog.write fun workspace => { workspace with
    tree := workspace.tree.setMode location 0o600 }

def handleMissingSecret (secretName : String) (secret : SecretConfig)
    (report : SecretMaterializationReport) :
    Except DevRelayError SecretMaterializationReport :=
  if secret.required then .error (.config ("missing required secret " ++ secretName))
  else .ok { report with missingOptional := report.missingOptional ++ [secretName] }

def environmentKey (secret : SecretConfig) : String :=
  (secret.environmentVariable.filter fun value => !isBlank value).getD secret.target

/-- The value of a secret, if the device has one. -/
def secretValue (localConfig : SecretProviderLocalConfig) (provider : SecretProvider)
    (secretName : String) : Except DevRelayError (Option String) :=
  match localConfig.mappings.find? secretName with
  | none => .ok none
  | some mapping => provider ⟨secretName, mapping⟩

section

variable (rootPath : String) (root : Location) (localConfig : SecretProviderLocalConfig)
  (provider : SecretProvider)

/-- The body of the loop over the secrets. -/
def materializeSecret (secretName : String) (secret : SecretConfig)
    (report : SecretMaterializationReport) : Materializing SecretMaterializationReport := do
  let value ← Prog.ofExcept (secretValue localConfig provider secretName)
  match value with
  | none => Prog.ofExcept (handleMissingSecret secretName secret report)
  | some value =>
    match secret.mode with
    | .file => do
      let relative ← Prog.ofExcept (normalizeSecretTarget secret.target)
      writeSecretFile root relative value
      pure { report with
        files := report.files ++ [⟨secretName, join rootPath relative⟩] }
    | .environment =>
      pure { report with environmentVariables :=
        report.environmentVariables.insert (environmentKey secret) value }

def materializeSecrets : List (String × SecretConfig) → SecretMaterializationReport →
    Materializing SecretMaterializationReport
  | [], report => pure report
  | (secretName, secret) :: rest, report => do
    let report ← materializeSecret rootPath root localConfig provider secretName secret report
    materializeSecrets rest report

def materializeProjectSecrets (manifest : Manifest) : Materializing SecretMaterializationReport :=
  materializeSecrets rootPath root localConfig provider manifest.secrets.entries {
    files := []
    environmentVariables := .empty
    missingOptional := []
    hardExcludePatterns := secretHardExcludePatterns manifest }

end

/-! ## What the steps keep -/

/-- The property of the files of the workspace. -/
def OnFiles (J : FileTree → Prop) (workspace : Workspace) : Prop := J workspace.tree

section

variable {J : FileTree → Prop} {rootPath : String} {root : Location}
  {localConfig : SecretProviderLocalConfig} {provider : SecretProvider} {workspace : Workspace}

theorem writeSecretFile_keeps (hJ : FileTree.KeptBySteps J) {target value : String}
    (h : OnFiles J workspace) :
    (writeSecretFile root target value).Ensures (OnFiles J) (fun _ _ => True) workspace := by
  unfold writeSecretFile onTree
  apply Prog.ensures_bind h
  · exact Prog.ensures_within (J := J) (fun _ _ => rfl) (fun tree _ htree _ => htree) h
      (FileTree.createDirAll_ensures hJ.makeDir _ h)
  intro _ made hmade _
  apply Prog.ensures_query_bind hmade
  apply Prog.ensures_orFail_bind
  intro location hlocation
  split at hlocation
  · cases hlocation
  · have hwritten : OnFiles J {
        tree := made.tree.writeAt location value.toUTF8.toList
        written := made.written ++ [(target, location)] } :=
      hJ.writeAt hmade (FileTree.notDirectory_of_writable hlocation)
    refine Prog.ensures_write_bind hwritten ⟨?_, trivial⟩
    exact hJ.setMode _ _ _ hwritten

theorem materializeSecret_keeps (hJ : FileTree.KeptBySteps J) {secretName : String}
    {secret : SecretConfig} {report : SecretMaterializationReport} (h : OnFiles J workspace) :
    (materializeSecret rootPath root localConfig provider secretName secret report).Ensures
      (OnFiles J) (fun _ _ => True) workspace := by
  unfold materializeSecret
  apply Prog.ensures_ofExcept_bind
  intro value _
  cases value with
  | none => exact Prog.ensures_ofExcept fun _ _ => trivial
  | some value =>
    cases hmode : secret.mode with
    | environment => trivial
    | file =>
      apply Prog.ensures_ofExcept_bind
      intro relative _
      exact Prog.ensures_bind h (writeSecretFile_keeps hJ h) fun _ _ _ _ => trivial

theorem materializeSecrets_keeps (hJ : FileTree.KeptBySteps J)
    (entries : List (String × SecretConfig)) {report : SecretMaterializationReport}
    (h : OnFiles J workspace) :
    (materializeSecrets rootPath root localConfig provider entries report).Ensures
      (OnFiles J) (fun _ _ => True) workspace := by
  induction entries generalizing report workspace with
  | nil => trivial
  | cons entry rest ih =>
    obtain ⟨secretName, secret⟩ := entry
    unfold materializeSecrets
    apply Prog.ensures_bind h (materializeSecret_keeps hJ h)
    intro report made hmade _
    exact ih hmade

theorem materializeProjectSecrets_keeps (hJ : FileTree.KeptBySteps J) (manifest : Manifest)
    (h : OnFiles J workspace) :
    (materializeProjectSecrets rootPath root localConfig provider manifest).Ensures
      (OnFiles J) (fun _ _ => True) workspace :=
  materializeSecrets_keeps hJ _ h

end

end DevRelay.Secrets
