import DevRelay.Core.Error
import DevRelay.Lib.Checks
import DevRelay.Lib.SortedMap

/-!
# The project manifest

The schema of `manifest.rs` and `Manifest::validate`.  Fields that nothing in this
development reads are left out; a field with a default may be missing in the file.
-/

namespace DevRelay.Core

open DevRelay.Lib

inductive UntrackedPolicy where
  | none
  | safe
  | allNonignored
  | explicit
  deriving DecidableEq, Repr

structure PatternConfig where
  patterns : List String
  deriving DecidableEq

structure SecretScannerConfig where
  filenamePatterns : List String
  contentMarkers : List String
  tokenPrefixes : List String
  deriving DecidableEq

structure WorkspaceConfig where
  untracked : UntrackedPolicy
  largeFileThresholdMib : UInt64
  exclude : PatternConfig
  «include» : PatternConfig
  secretScanner : SecretScannerConfig
  deriving DecidableEq

inductive EnvironmentKind where
  | nix
  | devcontainer
  | native
  | script
  | manual
  deriving DecidableEq, Repr

structure EnvironmentProfile where
  kind : EnvironmentKind
  targets : List String
  command : List String
  fingerprintFiles : List String := []
  healthcheck : Option (List String) := none
  workingDirectory : Option String := none
  timeoutSeconds : Option UInt64 := none
  deriving DecidableEq

structure EnvironmentConfig where
  profiles : SortedMap String EnvironmentProfile

inductive SecretMode where
  | file
  | environment
  deriving DecidableEq, Repr

structure SecretConfig where
  target : String
  required : Bool := true
  mode : SecretMode := .file
  environmentVariable : Option String := none
  deriving DecidableEq

inductive TaskCacheMode where
  | off
  | read
  | write
  | readWrite
  deriving DecidableEq, Repr

inductive TaskSandbox where
  | host
  | sandbox
  | container
  | vm
  deriving DecidableEq, Repr

structure TaskConfig where
  profile : String
  command : List String
  platforms : List String := []
  cpu : Option UInt64 := none
  memoryMib : Option UInt64 := none
  diskMib : Option UInt64 := none
  interactive : Bool := false
  cache : Option TaskCacheMode := none
  outputs : List String := []
  features : List String := []
  sandbox : Option TaskSandbox := none
  deriving DecidableEq

structure Manifest where
  schema : UInt32
  projectId : String
  name : String
  workspace : WorkspaceConfig
  environment : Option EnvironmentConfig
  secrets : SortedMap String SecretConfig
  tasks : SortedMap String TaskConfig

/-- One character of the `\x7b:?\x7d` rendering.  Of the characters outside ASCII all are
rendered as they are. -/
def escapeDebugChar (c : Char) : String :=
  if c = '\x00' then "\\0"
  else if c = '\t' then "\\t"
  else if c = '\r' then "\\r"
  else if c = '\n' then "\\n"
  else if c = '"' then "\\\""
  else if c = '\\' then "\\\\"
  else if c.toNat < 32 || c.toNat = 127 then
    "\\u\x7b" ++ String.ofList (Nat.toDigits 16 c.toNat) ++ "\x7d"
  else c.toString

/-- The `\x7b:?\x7d` rendering of a string. -/
def debugString (s : String) : String :=
  "\"" ++ String.join (s.toList.map escapeDebugChar) ++ "\""

def validateCommand (field : String) (values : List String) : Except DevRelayError Unit :=
  if values.isEmpty || values.any String.isEmpty then
    .error (.manifest (field ++ " must contain at least one non-empty argument"))
  else
    .ok ()

/-- The loop of `validate_unique`, with the values seen so far. -/
def validateUniqueFrom (field : String) (seen : List String) :
    List String → Except DevRelayError Unit
  | [] => .ok ()
  | value :: values =>
    if value ∈ seen then
      .error (.manifest (field ++ " contains duplicate value " ++ debugString value))
    else
      validateUniqueFrom field (value :: seen) values

def validateUnique (field : String) (values : List String) : Except DevRelayError Unit :=
  validateUniqueFrom field [] values

def validateNonEmptyStringArray (field : String) (values : List String) :
    Except DevRelayError Unit :=
  if values.isEmpty || values.any String.isEmpty then
    .error (.manifest (field ++ " must contain at least one non-empty value"))
  else
    validateUnique field values

def validateOptionalStringArray (field : String) (values : List String) :
    Except DevRelayError Unit :=
  if values.any String.isEmpty then
    .error (.manifest (field ++ " must not contain empty values"))
  else
    validateUnique field values

def validateTaskResourceHints (name : String) (task : TaskConfig) : Except DevRelayError Unit := do
  require (task.cpu.all fun cpu => 1 ≤ cpu && cpu ≤ 1024)
    (.manifest ("tasks." ++ name ++ ".cpu must be between 1 and 1024"))
  require (task.memoryMib.all fun memoryMib => 64 ≤ memoryMib)
    (.manifest ("tasks." ++ name ++ ".memory_mib must be at least 64"))

/-- The body of the loop over `environment.profiles`. -/
def validateProfile (name : String) (profile : EnvironmentProfile) : Except DevRelayError Unit := do
  validateNonEmptyStringArray ("environment.profiles." ++ name ++ ".targets")
    profile.targets
  validateCommand ("environment.profiles." ++ name ++ ".command") profile.command
  validateUnique ("environment.profiles." ++ name ++ ".fingerprint_files")
    profile.fingerprintFiles
  match profile.healthcheck with
  | none => .ok ()
  | some healthcheck =>
    validateCommand ("environment.profiles." ++ name ++ ".healthcheck") healthcheck

/-- The body of the loop over `secrets`. -/
def validateSecret (name : String) (secret : SecretConfig) : Except DevRelayError Unit :=
  require (!secret.target.isEmpty)
    (.manifest ("secrets." ++ name ++ ".target must not be empty"))

/-- The profile of a task has to exist. -/
def validateTaskProfile (environment : Option EnvironmentConfig) (name : String)
    (task : TaskConfig) : Except DevRelayError Unit :=
  match environment with
  | some environment =>
    require (environment.profiles.containsKey task.profile)
      (.manifest ("tasks." ++ name ++
        ".profile references unknown environment profile " ++ debugString task.profile))
  | none =>
    .error (.manifest ("tasks." ++ name ++ ".profile requires an environment profile"))

/-- The body of the loop over `tasks`. -/
def validateTask (environment : Option EnvironmentConfig) (name : String)
    (task : TaskConfig) : Except DevRelayError Unit := do
  require (!task.profile.isEmpty)
    (.manifest ("tasks." ++ name ++ ".profile must not be empty"))
  validateTaskProfile environment name task
  validateCommand ("tasks." ++ name ++ ".command") task.command
  validateOptionalStringArray ("tasks." ++ name ++ ".platforms") task.platforms
  validateOptionalStringArray ("tasks." ++ name ++ ".outputs") task.outputs
  validateOptionalStringArray ("tasks." ++ name ++ ".features") task.features
  validateTaskResourceHints name task

namespace Manifest

/-- The checks of `validate` before its three loops. -/
def validateHeader (self : Manifest) : Except DevRelayError Unit := do
  require (self.schema = 1)
    (.manifest ("unsupported schema " ++ toString self.schema ++ ", expected 1"))
  require (8 ≤ self.projectId.utf8ByteSize)
    (.manifest "project_id must be at least 8 characters")
  require (!self.name.isEmpty && self.name.utf8ByteSize ≤ 128)
    (.manifest "name must be between 1 and 128 characters")
  require (self.workspace.largeFileThresholdMib ≠ 0 &&
      self.workspace.largeFileThresholdMib ≤ 102400)
    (.manifest "large_file_threshold_mib must be between 1 and 102400")
  validateUnique "workspace.exclude.patterns" self.workspace.exclude.patterns
  validateUnique "workspace.include.patterns" self.workspace.«include».patterns
  validateOptionalStringArray "workspace.secret_scanner.filename_patterns"
    self.workspace.secretScanner.filenamePatterns
  validateOptionalStringArray "workspace.secret_scanner.content_markers"
    self.workspace.secretScanner.contentMarkers
  validateOptionalStringArray "workspace.secret_scanner.token_prefixes"
    self.workspace.secretScanner.tokenPrefixes

/-- `environment.profiles` in iteration order, empty without an environment. -/
def profiles (self : Manifest) : List (String × EnvironmentProfile) :=
  match self.environment with
  | none => []
  | some environment => environment.profiles.entries

def validate (self : Manifest) : Except DevRelayError Unit := do
  self.validateHeader
  checkEach (fun entry => validateProfile entry.1 entry.2) self.profiles
  checkEach (fun entry => validateSecret entry.1 entry.2) self.secrets.entries
  checkEach (fun entry => validateTask self.environment entry.1 entry.2)
    self.tasks.entries

theorem validate_eq_ok {self : Manifest} : self.validate = .ok () ↔
    self.validateHeader = .ok () ∧
      (∀ entry ∈ self.profiles, validateProfile entry.1 entry.2 = .ok ()) ∧
      (∀ entry ∈ self.secrets.entries, validateSecret entry.1 entry.2 = .ok ()) ∧
      ∀ entry ∈ self.tasks.entries,
        validateTask self.environment entry.1 entry.2 = .ok () := by
  unfold validate
  simp only [bind_eq_ok, checkEach_eq_ok]

end Manifest

/-! ## What validation guarantees -/

/-- A command has an argument, and no argument is empty. -/
theorem validateCommand_eq_ok {field : String} {values : List String} :
    validateCommand field values = .ok () ↔ values ≠ [] ∧ "" ∉ values := by
  unfold validateCommand
  split
  · rename_i h
    simp only [reduceCtorEq, false_iff, not_and_or, not_not]
    rw [Bool.or_eq_true, List.isEmpty_iff, List.any_eq_true] at h
    rcases h with hnil | ⟨value, hvalue, hempty⟩
    · exact Or.inl hnil
    · rw [String.isEmpty_iff] at hempty
      exact Or.inr (hempty ▸ hvalue)
  · rename_i h
    rw [Bool.or_eq_true, List.isEmpty_iff, List.any_eq_true, not_or] at h
    refine iff_of_true rfl ⟨h.1, fun hmem => h.2 ⟨"", hmem, ?_⟩⟩
    rfl

theorem validateUniqueFrom_eq_ok {field : String} {seen values : List String} :
    validateUniqueFrom field seen values = .ok () ↔
      values.Nodup ∧ ∀ value ∈ values, value ∉ seen := by
  induction values generalizing seen with
  | nil => simp [validateUniqueFrom]
  | cons value values ih =>
    rw [validateUniqueFrom, List.nodup_cons, List.forall_mem_cons]
    split
    · rename_i hseen
      simp [hseen]
    · rename_i hseen
      rw [ih]
      constructor
      · rintro ⟨hnodup, hfresh⟩
        have hvalue : value ∉ values := fun hmem =>
          hfresh value hmem List.mem_cons_self
        exact ⟨⟨hvalue, hnodup⟩, hseen, fun v hv hmem =>
          hfresh v hv (List.mem_cons_of_mem _ hmem)⟩
      · rintro ⟨⟨hvalue, hnodup⟩, -, hfresh⟩
        refine ⟨hnodup, fun v hv hmem => ?_⟩
        rcases List.mem_cons.mp hmem with rfl | hmem
        · exact hvalue hv
        · exact hfresh v hv hmem

theorem validateUnique_eq_ok {field : String} {values : List String} :
    validateUnique field values = .ok () ↔ values.Nodup := by
  rw [validateUnique, validateUniqueFrom_eq_ok]
  simp

theorem validateNonEmptyStringArray_eq_ok {field : String} {values : List String} :
    validateNonEmptyStringArray field values = .ok () ↔
      (values ≠ [] ∧ "" ∉ values) ∧ values.Nodup := by
  rw [← @validateCommand_eq_ok field, ← @validateUnique_eq_ok field]
  unfold validateNonEmptyStringArray validateCommand
  split <;> simp

/-- A valid profile has targets, a command, different fingerprint files and, when it has
a health check, a command for it. -/
theorem validateProfile_eq_ok {name : String} {profile : EnvironmentProfile} :
    validateProfile name profile = .ok () ↔
      ((profile.targets ≠ [] ∧ "" ∉ profile.targets) ∧ profile.targets.Nodup) ∧
        (profile.command ≠ [] ∧ "" ∉ profile.command) ∧
        profile.fingerprintFiles.Nodup ∧
        ∀ healthcheck ∈ profile.healthcheck, healthcheck ≠ [] ∧ "" ∉ healthcheck := by
  unfold validateProfile
  simp only [bind_eq_ok, validateCommand_eq_ok, validateUnique_eq_ok,
    validateNonEmptyStringArray_eq_ok]
  cases profile.healthcheck with
  | none => simp
  | some healthcheck => simp [validateCommand_eq_ok]

theorem validateOptionalStringArray_eq_ok {field : String} {values : List String} :
    validateOptionalStringArray field values = .ok () ↔ "" ∉ values ∧ values.Nodup := by
  rw [← @validateUnique_eq_ok field]
  have hany : values.any String.isEmpty = true ↔ "" ∈ values := by
    rw [List.any_eq_true]
    constructor
    · rintro ⟨value, hvalue, hempty⟩
      rw [String.isEmpty_iff] at hempty
      exact hempty ▸ hvalue
    · intro hmem
      exact ⟨"", hmem, rfl⟩
  unfold validateOptionalStringArray
  rw [← hany]
  split <;> simp_all

/-- The bounds of the resource hints. -/
def ResourceHintsOk (cpu memoryMib : Option UInt64) : Prop :=
  (∀ n ∈ cpu, 1 ≤ n ∧ n ≤ 1024) ∧ ∀ n ∈ memoryMib, 64 ≤ n

theorem validateTaskResourceHints_eq_ok {name : String} {task : TaskConfig} :
    validateTaskResourceHints name task = .ok () ↔ ResourceHintsOk task.cpu task.memoryMib := by
  unfold validateTaskResourceHints ResourceHintsOk
  rw [bind_eq_ok, require_eq_ok, require_eq_ok]
  cases task.cpu <;> cases task.memoryMib <;> simp

/-- A valid task names a profile, has a command, lists of different non-empty values and
bounded resource hints. -/
theorem validateTask_eq_ok {environment : Option EnvironmentConfig} {name : String}
    {task : TaskConfig} : validateTask environment name task = .ok () ↔
      task.profile ≠ "" ∧ validateTaskProfile environment name task = .ok () ∧
        (task.command ≠ [] ∧ "" ∉ task.command) ∧
        ("" ∉ task.platforms ∧ task.platforms.Nodup) ∧
        ("" ∉ task.outputs ∧ task.outputs.Nodup) ∧
        ("" ∉ task.features ∧ task.features.Nodup) ∧ ResourceHintsOk task.cpu task.memoryMib := by
  have hprofile : (!task.profile.isEmpty) = true ↔ task.profile ≠ "" := by
    rw [Bool.not_eq_true', ← Bool.not_eq_true, String.isEmpty_iff]
  unfold validateTask
  simp only [bind_eq_ok, require_eq_ok, validateCommand_eq_ok,
    validateOptionalStringArray_eq_ok, validateTaskResourceHints_eq_ok, hprofile]

/-- A task names an existing profile. -/
theorem environment_of_validateTask {environment : Option EnvironmentConfig}
    {name : String} {task : TaskConfig} (h : validateTask environment name task = .ok ()) :
    ∃ env, environment = some env ∧ env.profiles.containsKey task.profile = true := by
  unfold validateTask at h
  simp only [bind_eq_ok] at h
  have hprofile := h.2.1
  unfold validateTaskProfile at hprofile
  cases environment with
  | none => cases hprofile
  | some env => exact ⟨env, rfl, require_eq_ok.mp hprofile⟩

namespace Manifest

/-- Without profiles there are no tasks. -/
theorem tasks_eq_nil {self : Manifest} (h : self.validate = .ok ())
    (hprofiles : self.profiles = []) : self.tasks.entries = [] := by
  obtain ⟨-, -, -, htasks⟩ := validate_eq_ok.mp h
  by_contra hne
  obtain ⟨entry, hentry⟩ := List.exists_mem_of_ne_nil _ hne
  obtain ⟨env, henv, hkey⟩ := environment_of_validateTask (htasks entry hentry)
  have hentries := SortedMap.entries_ne_nil_of_containsKey hkey
  rw [profiles, henv] at hprofiles
  exact hentries hprofiles

end Manifest

end DevRelay.Core
