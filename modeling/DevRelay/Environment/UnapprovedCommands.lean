import DevRelay.Environment.Doctor

/-!
# Commands without approval

Without an approved evaluation the doctor should run nothing but its probes and, where it is
allowed, the start of the dev container.  Native and script profiles are kept to that.  The
health checks of Nix and dev container profiles come from the manifest as well, and are run
without a look at the evaluation.
-/

namespace DevRelay.Environment

open DevRelay.Core DevRelay.Lib DevRelay.Secrets DevRelay.Trust

def probedPrograms : List String :=
  ["nix", "docker", "podman", "pwsh", "powershell", "powershell.exe", "pwsh.exe"]

def IsProbe (command : EnvironmentCommand) : Prop :=
  ∃ program ∈ probedPrograms, command = versionProbe program

/-- `devcontainer up` for the repository. -/
def devcontainerStart (root : String) : EnvironmentCommand :=
  { program := "devcontainer", args := devcontainerUpCommand root }

/-- The commands that need no approval. -/
def Unsuspicious (root : String) (options : EnvironmentDoctorOptions)
    (command : EnvironmentCommand) : Prop :=
  IsProbe command ∨
    options.allowDevcontainerPrepare = true ∧ command = devcontainerStart root

/-- Whatever the runner answers, nothing else is run without approval. -/
def RunsOnlyApproved (root : String) (tree : RepositoryTree) (manifest : Manifest)
    (options : EnvironmentDoctorOptions) : Prop :=
  commandTrustIsApproved options.commandTrust = true ∨
    ∀ runner digest redactText localSecrets,
      ∀ command ∈ ((runEnvironmentDoctor ⟨root, tree, runner, digest, redactText⟩ manifest
        localSecrets options).run []).2, Unsuspicious root options command

/-- Some profile of this kind is for the platform. -/
def Targeted (manifest : Manifest) (options : EnvironmentDoctorOptions)
    (kind : EnvironmentKind) : Prop :=
  ∃ entry ∈ manifest.profiles, entry.2.kind = kind ∧
    profileTargetsPlatform entry.2.targets options.platformKey = true

/-- A health check is asked for, and a profile can be selected whose adapter runs it without
an approval. -/
def UngatedHealthcheck (tree : RepositoryTree) (manifest : Manifest)
    (options : EnvironmentDoctorOptions) : Prop :=
  options.runHealthcheck = true ∧
    (Targeted manifest options .nix ∧ tree.isFile "flake.nix" = true ∨
      Targeted manifest options .devcontainer ∧ options.allowDevcontainerPrepare = true ∧
        tree.isFile devcontainerConfig = true ∧
        ∀ file ∈ devcontainerFingerprintFiles tree, ∃ bytes, tree.read file = .ok bytes)

/-! ## Fingerprints -/

theorem foldlM_readable {tree : RepositoryTree} {files : List String} {hasher result : Hasher}
    (h : files.foldlM (updateDevcontainerFile tree) hasher = .ok result) :
    ∀ file ∈ files, ∃ bytes, tree.read file = .ok bytes := by
  induction files generalizing hasher with
  | nil => exact fun file hfile => absurd hfile List.not_mem_nil
  | cons file files ih =>
    rw [List.foldlM_cons] at h
    cases hread : tree.read file with
    | error err =>
      rw [updateDevcontainerFile, hread] at h
      cases h
    | ok bytes =>
      rw [updateDevcontainerFile, hread] at h
      rw [List.forall_mem_cons]
      exact ⟨⟨bytes, hread⟩, ih h⟩

theorem exists_foldlM {tree : RepositoryTree} {files : List String}
    (h : ∀ file ∈ files, ∃ bytes, tree.read file = .ok bytes) (hasher : Hasher) :
    ∃ result, files.foldlM (updateDevcontainerFile tree) hasher = .ok result := by
  induction files generalizing hasher with
  | nil => exact ⟨hasher, rfl⟩
  | cons file files ih =>
    rw [List.forall_mem_cons] at h
    obtain ⟨bytes, hread⟩ := h.1
    rw [List.foldlM_cons, updateDevcontainerFile, hread]
    exact ih h.2 _

/-- The fingerprint is computed exactly when its files can be read. -/
theorem computeDevcontainerFingerprint_ok_iff {tree : RepositoryTree} {digest : Blake3} :
    (∃ fingerprint, computeDevcontainerFingerprint tree digest = .ok fingerprint) ↔
      ∀ file ∈ devcontainerFingerprintFiles tree, ∃ bytes, tree.read file = .ok bytes := by
  unfold computeDevcontainerFingerprint
  generalize devcontainerFingerprintFiles tree = files
  cases files with
  | nil => exact iff_of_true ⟨none, rfl⟩ fun file hfile => absurd hfile List.not_mem_nil
  | cons file files =>
    constructor
    · rintro ⟨fingerprint, h⟩
      cases hfold : (file :: files).foldlM (updateDevcontainerFile tree)
          (updateHashField Hasher.new "devrelay.devcontainer.v1") with
      | error err =>
        simp only [List.isEmpty_cons, Bool.false_eq_true, if_false, hfold] at h
        cases h
      | ok result => exact foldlM_readable hfold
    · intro h
      obtain ⟨result, hfold⟩ := exists_foldlM h
        (updateHashField Hasher.new "devrelay.devcontainer.v1")
      refine ⟨some (digest.hex result.fed), ?_⟩
      simp only [List.isEmpty_cons, Bool.false_eq_true, if_false, hfold]
      rfl

/-! ## Programs that run nothing suspicious -/

/-- Only commands that need no approval were run. -/
def AllUnsuspicious (root : String) (options : EnvironmentDoctorOptions)
    (ran : List EnvironmentCommand) : Prop :=
  ∀ command ∈ ran, Unsuspicious root options command

/-- The program adds no other command to a run. -/
def Quiet {α : Type} (root : String) (options : EnvironmentDoctorOptions) (p : Running α) : Prop :=
  ∀ ran, AllUnsuspicious root options ran →
    p.Ensures (AllUnsuspicious root options) (fun _ _ => True) ran

section Quiet

variable {α β : Type} {root : String} {options : EnvironmentDoctorOptions}
  {context : AdapterContext}

theorem quiet_pure (a : α) : Quiet root options (pure a : Running α) := fun _ _ => trivial

theorem quiet_fail (e : DevRelayError) : Quiet root options (Prog.fail e : Running α) :=
  fun _ _ => trivial

theorem Quiet.bind {p : Running β} {f : β → Running α} (hp : Quiet root options p)
    (hf : ∀ b, Quiet root options (f b)) : Quiet root options (p >>= f) :=
  fun ran hran => Prog.ensures_bind hran (hp ran hran) fun b t ht _ => hf b t ht

theorem quiet_ofExcept_bind {r : Except DevRelayError β} {f : β → Running α}
    (h : ∀ b, r = .ok b → Quiet root options (f b)) :
    Quiet root options (Prog.ofExcept r >>= f) :=
  fun ran hran => Prog.ensures_ofExcept_bind fun b hb => h b hb ran hran

theorem quiet_attemptCommand {command : EnvironmentCommand}
    (h : Unsuspicious root options command) :
    Quiet root options (attemptCommand context command) := by
  intro ran hran
  refine ⟨?_, trivial⟩
  intro c hc
  rcases List.mem_append.mp hc with hold | hnew
  · exact hran c hold
  · rw [List.mem_singleton.mp hnew]
    exact h

theorem quiet_probe {program : String} (h : program ∈ probedPrograms) :
    Quiet root options (probe context program) := by
  refine (quiet_attemptCommand (Or.inl ⟨program, h, rfl⟩)).bind fun answer => ?_
  cases answer with
  | ok output => exact quiet_pure _
  | error failure =>
    cases failure with
    | notFound detail => exact quiet_pure _
    | failed error => exact quiet_fail error

theorem quiet_detectContainerEngine : Quiet root options (detectContainerEngine context) := by
  refine (quiet_probe (by decide)).bind fun docker => ?_
  cases docker with
  | true => exact quiet_pure _
  | false =>
    refine (quiet_probe (by decide)).bind fun podman => ?_
    cases podman with
    | true => exact quiet_pure _
    | false => exact quiet_pure _

theorem quiet_detectPowershellFrom {programs : List String}
    (h : ∀ program ∈ programs, program ∈ probedPrograms) :
    Quiet root options (detectPowershellFrom context programs) := by
  induction programs with
  | nil => exact quiet_pure _
  | cons program programs ih =>
    rw [List.forall_mem_cons] at h
    refine (quiet_probe h.1).bind fun available => ?_
    cases available with
    | true => exact quiet_pure _
    | false => exact ih h.2

/-- Without the tool, or without a flake, the adapter of Nix runs nothing. -/
theorem quiet_nixHealthcheck {healthcheck : List String} {nixAvailable : Bool}
    (h : context.tree.isFile "flake.nix" = false) :
    Quiet root options (runNixDevelopHealthcheck context healthcheck nixAvailable) := by
  unfold runNixDevelopHealthcheck
  rw [h]
  cases nixAvailable with
  | false => exact quiet_pure _
  | true => exact quiet_pure _

/-- Without a configuration or the permission to prepare an image, none is prepared. -/
theorem prepareDevcontainerImage_eq_pure (context : AdapterContext) {configPresent allow : Bool}
    (engine : Option ContainerEngine) (h : ¬(configPresent = true ∧ allow = true)) :
    ∃ result : DevContainerImagePrepare,
      prepareDevcontainerImage context configPresent engine allow = pure result ∧
        result.state ≠ .prepared := by
  unfold prepareDevcontainerImage
  cases configPresent with
  | false => exact ⟨_, rfl, by rintro ⟨⟩⟩
  | true =>
    cases engine with
    | none => exact ⟨_, rfl, by rintro ⟨⟩⟩
    | some engine =>
      cases allow with
      | false => exact ⟨_, rfl, by rintro ⟨⟩⟩
      | true => exact absurd ⟨rfl, rfl⟩ h

theorem quiet_inspectDevcontainer {healthcheck : List String} {allow : Bool}
    (h : ¬(allow = true ∧ context.tree.isFile devcontainerConfig = true ∧
      ∀ file ∈ devcontainerFingerprintFiles context.tree,
        ∃ bytes, context.tree.read file = .ok bytes)) :
    Quiet root options (inspectDevcontainerEnvironment context healthcheck allow) := by
  refine quiet_detectContainerEngine.bind fun engine => ?_
  apply quiet_ofExcept_bind
  intro fingerprint hfingerprint
  have hreadable := computeDevcontainerFingerprint_ok_iff.mp ⟨fingerprint, hfingerprint⟩
  have hnot : ¬((detectDevcontainerConfig context.tree).isSome = true ∧ allow = true) := by
    rintro ⟨hconfig, hallow⟩
    refine h ⟨hallow, ?_, hreadable⟩
    unfold detectDevcontainerConfig at hconfig
    split at hconfig
    · assumption
    · cases hconfig
  obtain ⟨result, hprepare, hstate⟩ := prepareDevcontainerImage_eq_pure context engine hnot
  rw [hprepare]
  show Quiet root options (runDevcontainerHealthcheck context healthcheck result.state >>= _)
  rw [runDevcontainerHealthcheck, if_pos hstate]
  exact quiet_pure _

/-- Without an approval the health check of a profile runs nothing suspicious, unless its
adapter is one that does not ask. -/
theorem quiet_collectHealthcheckIssue {profileName : String} {profile : EnvironmentProfile}
    {nixAvailable : Bool} (htrust : commandTrustIsApproved options.commandTrust = false)
    (hnix : profile.kind = .nix → context.tree.isFile "flake.nix" = false)
    (hdevcontainer : profile.kind = .devcontainer →
      ¬(options.allowDevcontainerPrepare = true ∧ context.tree.isFile devcontainerConfig = true ∧
        ∀ file ∈ devcontainerFingerprintFiles context.tree,
          ∃ bytes, context.tree.read file = .ok bytes)) :
    Quiet root options
      (collectHealthcheckIssue context profileName profile nixAvailable options) := by
  unfold collectHealthcheckIssue
  cases hkind : profile.kind with
  | nix =>
    refine (quiet_nixHealthcheck (hnix hkind)).bind fun report => ?_
    split
    · exact quiet_pure _
    · exact quiet_pure _
  | devcontainer =>
    refine (quiet_inspectDevcontainer (hdevcontainer hkind)).bind fun report => ?_
    split
    · exact quiet_pure _
    · split
      · exact quiet_pure _
      · exact quiet_pure _
  | native =>
    simp only [htrust]
    exact quiet_pure _
  | script =>
    simp only [htrust]
    exact quiet_pure _
  | manual => exact quiet_pure _

end Quiet

theorem profileNamed_of_mem {manifest : Manifest} {entry : String × EnvironmentProfile}
    (h : entry ∈ manifest.profiles) : profileNamed manifest entry.1 = some entry.2 := by
  unfold Manifest.profiles at h
  unfold profileNamed
  cases henv : manifest.environment with
  | none =>
    rw [henv] at h
    exact absurd h List.not_mem_nil
  | some environment =>
    rw [henv] at h
    exact SortedMap.mem_entries.mp h

/-- What is checked is a profile for the platform. -/
theorem quiet_checkSelectedProfile {context : AdapterContext} {manifest : Manifest}
    {options : EnvironmentDoctorOptions} {nixAvailable : Bool} {engine : Option ContainerEngine}
    (htrust : commandTrustIsApproved options.commandTrust = false)
    (h : ¬UngatedHealthcheck context.tree manifest options) :
    Quiet context.root options (checkSelectedProfile context manifest options nixAvailable
      (selectEnvironmentProfile manifest
        (selectionContext manifest options nixAvailable engine)).profileName) := by
  rw [profileName_selectEnvironmentProfile]
  cases hchosen : chosen? manifest (selectionContext manifest options nixAvailable engine) with
  | none => exact quiet_pure _
  | some entry =>
    obtain ⟨hmem, hskip⟩ := chosen?_eq_some hchosen
    have htargets := (skipReason_eq_none.mp hskip).1
    simp only [Option.map_some, checkSelectedProfile, profileNamed_of_mem hmem]
    split
    · rename_i hrun
      apply quiet_collectHealthcheckIssue htrust
      · intro hkind
        by_contra hflake
        exact h ⟨hrun, Or.inl ⟨⟨entry, hmem, hkind, htargets⟩, by simpa using hflake⟩⟩
      · intro hkind hprepared
        exact h ⟨hrun, Or.inr ⟨⟨entry, hmem, hkind, htargets⟩, hprepared⟩⟩
    · exact quiet_pure _

theorem quiet_runEnvironmentDoctor (context : AdapterContext) {manifest : Manifest}
    {localSecrets : SecretProviderLocalConfig} {options : EnvironmentDoctorOptions}
    (htrust : commandTrustIsApproved options.commandTrust = false)
    (h : ¬UngatedHealthcheck context.tree manifest options) :
    Quiet context.root options (runEnvironmentDoctor context manifest localSecrets options) := by
  refine (quiet_probe (by decide)).bind fun nixAvailable => ?_
  refine quiet_detectContainerEngine.bind fun engine => ?_
  refine (quiet_detectPowershellFrom (by decide)).bind fun powershell => ?_
  exact (quiet_checkSelectedProfile htrust h).bind fun issues => quiet_pure _

/-! ## The health checks that do not ask -/

/-- All programs but these are there, and succeed. -/
def runnerWithout (missing : List String) : EnvironmentCommandRunner := fun _ command =>
  if command.program ∈ missing then .error (.notFound "No such file or directory")
  else .ok ⟨some 0, "", "", false⟩

def nixHealthcheck (healthcheck : List String) : EnvironmentCommand :=
  { program := "nix", args := nixDevelopCommand healthcheck }

def devcontainerHealthcheck (root : String) (healthcheck : List String) : EnvironmentCommand :=
  { program := "devcontainer", args := devcontainerExecCommand root healthcheck }

theorem not_isProbe_of_args {command : EnvironmentCommand} (h : command.args ≠ ["--version"]) :
    ¬IsProbe command := by
  rintro ⟨program, -, rfl⟩
  exact h rfl

theorem not_unsuspicious_nixHealthcheck (root : String) (options : EnvironmentDoctorOptions)
    (healthcheck : List String) : ¬Unsuspicious root options (nixHealthcheck healthcheck) := by
  rintro (hprobe | ⟨-, hstart⟩)
  · refine not_isProbe_of_args ?_ hprobe
    simp [nixHealthcheck, nixDevelopCommand]
  · simp [nixHealthcheck, devcontainerStart] at hstart

theorem not_unsuspicious_devcontainerHealthcheck (root : String)
    (options : EnvironmentDoctorOptions) (healthcheck : List String) :
    ¬Unsuspicious root options (devcontainerHealthcheck root healthcheck) := by
  rintro (hprobe | ⟨-, hstart⟩)
  · refine not_isProbe_of_args ?_ hprobe
    simp [devcontainerHealthcheck, devcontainerExecCommand]
  · simp [devcontainerHealthcheck, devcontainerStart, devcontainerExecCommand,
      devcontainerUpCommand] at hstart

/-- A machine where all programs but these can be run. -/
def contextWithout (root : String) (tree : RepositoryTree) (missing : List String) :
    AdapterContext :=
  ⟨root, tree, runnerWithout missing, zeroDigest, id⟩

section Runs

variable {root : String} {tree : RepositoryTree} {manifest : Manifest}
  {options : EnvironmentDoctorOptions} {missing : List String}

theorem run_probe (program : String) (ran : List EnvironmentCommand) :
    (probe (contextWithout root tree missing) program).run ran =
      (.ok (decide (program ∉ missing)), ran ++ [versionProbe program]) := by
  show (attemptCommand (contextWithout root tree missing) (versionProbe program) >>= _).run ran = _
  unfold attemptCommand
  rw [Prog.run_update_bind]
  by_cases hmissing : program ∈ missing
  · simp [contextWithout, runnerWithout, versionProbe, hmissing]
  · simp [contextWithout, runnerWithout, versionProbe, hmissing, EnvironmentCommandOutput.succeeded]

theorem run_runCommand (root : String) (tree : RepositoryTree) (command : EnvironmentCommand)
    (h : command.program ∉ missing) (ran : List EnvironmentCommand) :
    (runCommand (contextWithout root tree missing) command).run ran =
      (.ok ⟨some 0, "", "", false⟩, ran ++ [command]) := by
  show (attemptCommand (contextWithout root tree missing) command >>= _).run ran = _
  unfold attemptCommand
  rw [Prog.run_update_bind]
  simp [contextWithout, runnerWithout, h]

theorem run_detectContainerEngine (h : "docker" ∉ missing) (ran : List EnvironmentCommand) :
    (detectContainerEngine (contextWithout root tree missing)).run ran =
      (.ok (some .docker), ran ++ [versionProbe "docker"]) := by
  show (probe (contextWithout root tree missing) "docker" >>= _).run ran = _
  rw [Prog.run_bind, run_probe]
  simp [h]

theorem run_detectPowershellAvailability (h : "pwsh" ∉ missing) (ran : List EnvironmentCommand) :
    (detectPowershellAvailability (contextWithout root tree missing)).run ran =
      (.ok true, ran ++ [versionProbe "pwsh"]) := by
  show (probe (contextWithout root tree missing) "pwsh" >>= _).run ran = _
  rw [Prog.run_bind, run_probe]
  simp [h]

/-- The health check of a Nix profile is run whatever the evaluation says. -/
theorem run_collectHealthcheckIssue_nix (profileName : String) {profile : EnvironmentProfile}
    (hkind : profile.kind = .nix) (hnix : "nix" ∉ missing)
    (hflake : tree.isFile "flake.nix" = true) (ran : List EnvironmentCommand) :
    (collectHealthcheckIssue (contextWithout root tree missing) profileName profile true
        options).run ran = (.ok [], ran ++ [nixHealthcheck (profile.healthcheck.getD [])]) := by
  have hadapter : ∃ report : NixDevelopHealthcheck, report.state = .shellReady ∧
      (runNixDevelopHealthcheck (contextWithout root tree missing)
        (profile.healthcheck.getD []) true).run ran =
        (.ok report, ran ++ [nixHealthcheck (profile.healthcheck.getD [])]) := by
    have hfile : (contextWithout root tree missing).tree.isFile "flake.nix" = true := hflake
    rw [runNixDevelopHealthcheck, hfile]
    simp only [Bool.not_true, Bool.false_eq_true, if_false]
    rw [Prog.run_bind]
    have hrun := run_runCommand root tree (nixHealthcheck (profile.healthcheck.getD [])) hnix ran
    unfold nixHealthcheck at hrun
    rw [hrun]
    exact ⟨_, rfl, rfl⟩
  obtain ⟨report, hstate, hrun⟩ := hadapter
  unfold collectHealthcheckIssue
  rw [hkind]
  show (runNixDevelopHealthcheck _ _ _ >>= _).run ran = _
  rw [Prog.run_bind, hrun]
  simp [hstate]

theorem run_prepareDevcontainerImage (root : String) (tree : RepositoryTree)
    (h : "devcontainer" ∉ missing) :
    ∃ result : DevContainerImagePrepare,
      (∀ ran, (prepareDevcontainerImage (contextWithout root tree missing) true (some .docker)
        true).run ran = (.ok result, ran ++ [devcontainerStart root])) ∧
      result.state = .prepared := by
  refine ⟨⟨.prepared, devcontainerUpCommand root, some 0, "", "", ""⟩, fun ran => ?_, rfl⟩
  unfold prepareDevcontainerImage
  simp only [Option.isNone_some, Bool.not_true, Bool.false_eq_true, if_false]
  rw [Prog.run_bind, run_runCommand root tree _ h]
  rfl

theorem run_runDevcontainerHealthcheck (root : String) (tree : RepositoryTree)
    (h : "devcontainer" ∉ missing) (healthcheck : List String) :
    ∃ result : DevContainerHealthcheck,
      (∀ ran, (runDevcontainerHealthcheck (contextWithout root tree missing) healthcheck
        .prepared).run ran =
          (.ok result, ran ++ [devcontainerHealthcheck root healthcheck])) ∧
      result.state = .shellReady := by
  refine ⟨⟨.shellReady, devcontainerExecCommand root healthcheck, true, some 0, "", "", ""⟩,
    fun ran => ?_, rfl⟩
  unfold runDevcontainerHealthcheck
  simp only [ne_eq, not_true_eq_false, if_false]
  rw [Prog.run_bind, run_runCommand root tree _ h]
  rfl

/-- The start of a dev container, and after it the health check. -/
theorem run_collectHealthcheckIssue_devcontainer (profileName : String)
    {profile : EnvironmentProfile} (hkind : profile.kind = .devcontainer)
    (hdocker : "docker" ∉ missing) (hdevcontainer : "devcontainer" ∉ missing)
    (hallow : options.allowDevcontainerPrepare = true)
    (hconfig : tree.isFile devcontainerConfig = true)
    (hread : ∀ file ∈ devcontainerFingerprintFiles tree, ∃ bytes, tree.read file = .ok bytes)
    (nixAvailable : Bool) (ran : List EnvironmentCommand) :
    (collectHealthcheckIssue (contextWithout root tree missing) profileName profile nixAvailable
        options).run ran =
      (.ok [], ran ++ [versionProbe "docker"] ++ [devcontainerStart root] ++
        [devcontainerHealthcheck root (profile.healthcheck.getD [])]) := by
  obtain ⟨prepared, hprepare, hstate⟩ := run_prepareDevcontainerImage root tree hdevcontainer
  obtain ⟨health, hhealth, hready⟩ := run_runDevcontainerHealthcheck root tree hdevcontainer
    (profile.healthcheck.getD [])
  have hok : ∃ fingerprint, computeDevcontainerFingerprint tree zeroDigest = .ok fingerprint :=
    computeDevcontainerFingerprint_ok_iff.mpr hread
  obtain ⟨fingerprint, hfingerprint⟩ := hok
  have hdetect : (detectDevcontainerConfig tree).isSome = true := by
    rw [detectDevcontainerConfig, if_pos hconfig]
    rfl
  have hadapter : ∃ report : DevContainerAdapterReport, report.imagePrepare.state = .prepared ∧
      report.healthcheck.state = .shellReady ∧
      (inspectDevcontainerEnvironment (contextWithout root tree missing)
        (profile.healthcheck.getD []) true).run ran =
        (.ok report, ran ++ [versionProbe "docker"] ++ [devcontainerStart root] ++
          [devcontainerHealthcheck root (profile.healthcheck.getD [])]) := by
    refine ⟨⟨detectDevcontainerConfig tree, some .docker, fingerprint, prepared, health⟩, hstate,
      hready, ?_⟩
    show (detectContainerEngine _ >>= _).run ran = _
    rw [Prog.run_bind, run_detectContainerEngine hdocker]
    show (Prog.ofExcept (computeDevcontainerFingerprint tree zeroDigest) >>= _).run _ = _
    rw [hfingerprint, Prog.ofExcept_ok_bind]
    show (prepareDevcontainerImage _ (detectDevcontainerConfig tree).isSome _ _ >>= _).run _ = _
    rw [hdetect, Prog.run_bind, hprepare]
    show (runDevcontainerHealthcheck _ _ prepared.state >>= _).run _ = _
    rw [hstate, Prog.run_bind, hhealth]
    rfl
  obtain ⟨report, hprepared, hhealthy, hrun⟩ := hadapter
  unfold collectHealthcheckIssue
  rw [hkind, hallow]
  show (inspectDevcontainerEnvironment _ _ _ >>= _).run ran = _
  rw [Prog.run_bind, hrun]
  simp [hprepared, hhealthy]

/-- What the doctor runs up to the health check. -/
def probesOfDoctor : List EnvironmentCommand :=
  [versionProbe "nix", versionProbe "docker", versionProbe "pwsh"]

/-- Where the selected profile is known, the run ends with what its health check runs. -/
theorem run_runEnvironmentDoctor {nixAvailable : Bool}
    (hnix : decide ("nix" ∉ missing) = nixAvailable) (hdocker : "docker" ∉ missing)
    (hpwsh : "pwsh" ∉ missing) (localSecrets : SecretProviderLocalConfig)
    {entry : String × EnvironmentProfile}
    (hchosen : chosen? manifest (selectionContext manifest options nixAvailable
      (some .docker)) = some entry)
    (hrun : options.runHealthcheck = true) {ran : List EnvironmentCommand}
    (hhealth : (collectHealthcheckIssue (contextWithout root tree missing) entry.1 entry.2
      nixAvailable options).run probesOfDoctor = (.ok [], ran)) :
    ((runEnvironmentDoctor (contextWithout root tree missing) manifest localSecrets
      options).run []).2 = ran := by
  have hmem := (chosen?_eq_some hchosen).1
  show ((probe _ "nix" >>= _).run []).2 = _
  rw [Prog.run_bind, run_probe, hnix]
  show ((detectContainerEngine _ >>= _).run _).2 = _
  rw [Prog.run_bind, run_detectContainerEngine hdocker]
  show ((detectPowershellAvailability _ >>= _).run _).2 = _
  rw [Prog.run_bind, run_detectPowershellAvailability hpwsh]
  show ((checkSelectedProfile _ _ _ _ (selectEnvironmentProfile _ _).profileName >>= _).run
    probesOfDoctor).2 = _
  rw [profileName_selectEnvironmentProfile, hchosen]
  simp only [Option.map_some, checkSelectedProfile, profileNamed_of_mem hmem, hrun, if_true]
  rw [Prog.run_bind, hhealth]
  rfl

/-- A Nix profile is taken first, and its health check is run. -/
theorem mem_run_of_nix (root : String) (hrun : options.runHealthcheck = true)
    (h : Targeted manifest options .nix) (hflake : tree.isFile "flake.nix" = true)
    (localSecrets : SecretProviderLocalConfig) :
    ∃ healthcheck, nixHealthcheck healthcheck ∈
      ((runEnvironmentDoctor (contextWithout root tree []) manifest localSecrets options).run
        []).2 := by
  obtain ⟨entry, hmem, hkind, htargets⟩ := h
  have havailable : kindAvailable .nix (selectionContext manifest options true
      (some .docker)).availableKinds = true := by
    simp [kindAvailable, selectionContext, availableKinds]
  obtain ⟨chosen, hchosen, hnix⟩ := chosen?_of_kind [] rfl
    (by simp) havailable (by decide) hmem hkind htargets
  refine ⟨chosen.2.healthcheck.getD [], ?_⟩
  rw [run_runEnvironmentDoctor rfl List.not_mem_nil List.not_mem_nil localSecrets hchosen hrun
    (run_collectHealthcheckIssue_nix chosen.1 hnix List.not_mem_nil hflake probesOfDoctor)]
  exact List.mem_append_right _ (List.mem_singleton_self _)

/-- Without Nix a dev container profile is taken first; it is started, and its health check
is run. -/
theorem mem_run_of_devcontainer (root : String) (hrun : options.runHealthcheck = true)
    (h : Targeted manifest options .devcontainer) (hallow : options.allowDevcontainerPrepare = true)
    (hconfig : tree.isFile devcontainerConfig = true)
    (hread : ∀ file ∈ devcontainerFingerprintFiles tree, ∃ bytes, tree.read file = .ok bytes)
    (localSecrets : SecretProviderLocalConfig) :
    ∃ healthcheck, devcontainerHealthcheck root healthcheck ∈
      ((runEnvironmentDoctor (contextWithout root tree ["nix"]) manifest localSecrets
        options).run []).2 := by
  obtain ⟨entry, hmem, hkind, htargets⟩ := h
  have havailable : kindAvailable .devcontainer (selectionContext manifest options false
      (some .docker)).availableKinds = true := by
    simp [kindAvailable, selectionContext, availableKinds]
  have hnix : ∀ k ∈ [EnvironmentKind.nix], kindAvailable k (selectionContext manifest options
      false (some .docker)).availableKinds = false := by
    intro k hk
    rw [List.mem_singleton.mp hk]
    cases htrust : commandTrustIsApproved options.commandTrust <;>
      simp [kindAvailable, selectionContext, availableKinds, htrust]
  obtain ⟨chosen, hchosen, hdevcontainer⟩ := chosen?_of_kind [.nix] rfl hnix
    havailable (by decide) hmem hkind htargets
  refine ⟨chosen.2.healthcheck.getD [], ?_⟩
  have hengine : "docker" ∉ ["nix"] := by decide
  have hcli : "devcontainer" ∉ ["nix"] := by decide
  rw [run_runEnvironmentDoctor (by decide) hengine (by decide) localSecrets hchosen hrun
    (run_collectHealthcheckIssue_devcontainer chosen.1 hdevcontainer hengine hcli hallow hconfig
      hread false probesOfDoctor)]
  exact List.mem_append_right _ (List.mem_singleton_self _)

end Runs

/-- Only approved commands are run exactly when the evaluation is approved, or no health check
of a Nix or dev container profile can be reached. -/
theorem doctor_runs_only_approved_iff (root : String) (tree : RepositoryTree)
    (manifest : Manifest) (options : EnvironmentDoctorOptions) :
    RunsOnlyApproved root tree manifest options ↔
      commandTrustIsApproved options.commandTrust = true ∨
        ¬UngatedHealthcheck tree manifest options := by
  unfold RunsOnlyApproved
  constructor
  · rintro (happroved | honly)
    · exact Or.inl happroved
    · refine Or.inr ?_
      rintro ⟨hrun, ⟨htargeted, hflake⟩ | ⟨htargeted, hallow, hconfig, hread⟩⟩
      · obtain ⟨healthcheck, hmem⟩ := mem_run_of_nix root hrun htargeted hflake ⟨.empty⟩
        exact not_unsuspicious_nixHealthcheck root options healthcheck
          (honly _ _ _ _ _ hmem)
      · obtain ⟨healthcheck, hmem⟩ := mem_run_of_devcontainer root hrun htargeted hallow hconfig
          hread ⟨.empty⟩
        exact not_unsuspicious_devcontainerHealthcheck root options healthcheck
          (honly _ _ _ _ _ hmem)
  · rintro (happroved | hgated)
    · exact Or.inl happroved
    · cases htrust : commandTrustIsApproved options.commandTrust with
      | true => exact Or.inl rfl
      | false =>
        refine Or.inr ?_
        intro runner digest redactText localSecrets
        exact Prog.exec_ensures noFault 0 _ _ (fun c hc => absurd hc List.not_mem_nil)
          (quiet_runEnvironmentDoctor ⟨root, tree, runner, digest, redactText⟩ htrust hgated
            [] fun c hc => absurd hc List.not_mem_nil)

/-- A repository that has a flake, and a manifest whose Nix profile names a health check. -/
def flakeTree : RepositoryTree where
  isFile file := file = "flake.nix"
  read _ := .ok ⟨#[]⟩

def nixManifest : Manifest where
  schema := 1
  projectId := "project-1"
  name := "demo"
  workspace :=
    { untracked := .safe
      largeFileThresholdMib := 32
      exclude := ⟨[]⟩
      «include» := ⟨[]⟩
      secretScanner := ⟨[], [], []⟩ }
  environment := some ⟨.singleton "dev"
    { kind := .nix
      targets := ["local"]
      command := ["make"]
      healthcheck := some ["sh", "-c", "echo owned"] }⟩
  secrets := .empty
  tasks := .empty

/-- A health check is asked for, and there is no evaluation. -/
def unevaluated : EnvironmentDoctorOptions where
  platformKey := "linux-gnu-x86_64"
  commandTrust := none
  runHealthcheck := true
  allowDevcontainerPrepare := false

theorem nix_healthcheck_runs_unapproved :
    nixManifest.validate = .ok () ∧
      commandTrustIsApproved unevaluated.commandTrust = false ∧
      nixHealthcheck ["sh", "-c", "echo owned"] ∈
        ((runEnvironmentDoctor (contextWithout "/repo" flakeTree []) nixManifest ⟨.empty⟩
          unevaluated).run []).2 ∧
      ¬Unsuspicious "/repo" unevaluated (nixHealthcheck ["sh", "-c", "echo owned"]) ∧
      ¬RunsOnlyApproved "/repo" flakeTree nixManifest unevaluated := by
  have hmem : nixHealthcheck ["sh", "-c", "echo owned"] ∈
      ((runEnvironmentDoctor (contextWithout "/repo" flakeTree []) nixManifest ⟨.empty⟩
        unevaluated).run []).2 := by decide
  have hsuspicious := not_unsuspicious_nixHealthcheck "/repo" unevaluated
    ["sh", "-c", "echo owned"]
  refine ⟨by decide, rfl, hmem, hsuspicious, ?_⟩
  rintro (happroved | honly)
  · cases happroved
  · exact hsuspicious (honly _ _ _ _ _ hmem)

end DevRelay.Environment
