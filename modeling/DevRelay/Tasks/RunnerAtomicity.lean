import DevRelay.Lib.Resumption
import DevRelay.Snapshot.CapturedTree
import DevRelay.Tasks.RunnerWorkspace

/-!
# Preparations that fail

A preparation that fails in its checks, or in making the directory, leaves nothing but
directories above it, and can be repeated.  Behind `create_dir` nothing is taken back: whatever
fails there, the directory stays, and a later call is refused because it exists.
-/

namespace DevRelay.Runner

open DevRelay.Lib DevRelay.Core DevRelay.Git DevRelay.Snapshot DevRelay.Secrets DevRelay.Upload

/-- The second host is the first one with some of the directories above the workspace. -/
structure OnlyParents (currentDir : Location) (path : String) (host host' : RunnerHost) : Prop where
  tree : ∃ (stop : Fault DevRelayError) (n : Nat),
    host'.tree = ((createParents currentDir path).exec stop n host.tree).2
  repository : host'.repository = host.repository
  sidecarFiles : host'.sidecarFiles = host.sidecarFiles
  secretFiles : host'.secretFiles = host.secretFiles

section Law

variable (env : RunnerEnv) (manifest : Manifest) (execution : TaskExecutionSnapshot)
  (options : TaskRunnerWorkspaceOptions) (secretPolicy : TaskRunnerSecretPolicy)

def workspacePath : String := taskRunnerWorkspacePath env manifest.projectId options.taskRunId

/-- A call that fails leaves no workspace directory and no file, and the same call made again
does what it would have done. -/
def LeavesNothing (fault : Fault DevRelayError) (host : RunnerHost) : Prop :=
  ∀ e host', (prepareTaskRunnerWorkspace env manifest execution options secretPolicy).exec fault 0
      host = (.error e, host') →
    OnlyParents env.currentDir (workspacePath env manifest options) host host' ∧
      (prepareTaskRunnerWorkspace env manifest execution options secretPolicy).run host' =
        (prepareTaskRunnerWorkspace env manifest execution options secretPolicy).run host

/-- Once the directory is made, no step fails: neither Git nor the apply, and every secret that
is required is there and can be written. -/
def FillsUp (fault : Fault DevRelayError) (host : RunnerHost) : Prop :=
  ∀ environment root made,
    checkTaskExecution manifest execution options = .ok environment →
    (createWorkspaceDirectory env.currentDir (workspacePath env manifest options)).exec fault 0
      host = (.ok root, made) →
    ∀ e, ((fillWorkspace env (workspacePath env manifest options) root manifest execution
      secretPolicy).exec fault ((createWorkspaceDirectory env.currentDir
        (workspacePath env manifest options)).ran fault 0 host) made).1 ≠ .error e

end Law

variable {env : RunnerEnv} {manifest : Manifest} {execution : TaskExecutionSnapshot}
  {options : TaskRunnerWorkspaceOptions} {secretPolicy : TaskRunnerSecretPolicy}
  {fault : Fault DevRelayError} {host host' : RunnerHost} {root currentDir : Location}
  {path : String}

/-! ## The directory stays -/

/-- The workspace is a directory. -/
def Stands (root : Location) (host : RunnerHost) : Prop := host.tree.node root = some .directory

theorem initializeRepository_stands (hgit : env.git.KeepsDirectory) (h : Stands root host) :
    (initializeRepository env.git root).Ensures (Stands root) (fun _ _ => True) host := by
  unfold initializeRepository
  have hinit : Stands root { host with
      tree := (env.git.init root host.tree).2
      repository := if (env.git.init root host.tree).1 then some env.git.initial
        else host.repository } := hgit.init root host.tree h
  refine Prog.ensures_update_bind hinit ?_
  apply Prog.ensures_ensure_bind
  intro _
  apply Prog.ensures_query_bind hinit
  apply Prog.ensures_orFail_bind
  intro marker hmarker
  refine ⟨?_, trivial⟩
  exact (FileTree.keptBySteps_directory root).writeAt hinit
    (FileTree.notDirectory_of_writable hmarker)

theorem inRepository_stands {α : Type} (hgit : env.git.KeepsDirectory) (program : Applying α)
    (h : Stands root host) :
    (inRepository env.git root program).Ensures (Stands root) (fun _ _ => True) host := by
  unfold inRepository
  exact Prog.ensures_within (J := fun _ => True) (fun _ _ => rfl)
    (fun repository host _ hstands => hgit.workTree root repository host.tree hstands) h
    (Prog.ensures_post (fun _ _ _ => trivial) (Prog.ensures_trivial program _))

theorem materializeRunnerSidecars_stands (hgit : env.git.KeepsDirectory) (h : Stands root host) :
    (materializeRunnerSidecars env root execution).Ensures (Stands root) (fun _ _ => True)
      host := by
  unfold materializeRunnerSidecars
  dsimp only
  split
  · exact Prog.ensures_bind h (inRepository_stands hgit _ h) fun _ _ _ _ => trivial
  · apply Prog.ensures_orFail_bind
    intro casStore _
    apply Prog.ensures_query_bind h
    apply Prog.ensures_ofExcept_bind
    intro _ _
    apply Prog.ensures_bind h (inRepository_stands hgit _ h)
    intro verification applied happlied _
    refine Prog.ensures_bind happlied (?_ : Prog.Ensures _ (fun _ _ => True) _ _)
      fun _ _ _ _ => trivial
    exact Prog.ensures_within (J := OnTree fun tree => tree.node root = some .directory)
      (fun _ _ => rfl) (fun target _ htarget _ => htarget) happlied
      (materializeSidecars_keeps (FileTree.keptBySteps_directory root) _ happlied)

theorem materializeRunnerSecrets_stands (h : Stands root host) :
    (materializeRunnerSecrets path root manifest secretPolicy).Ensures (Stands root)
      (fun _ _ => True) host := by
  cases secretPolicy with
  | notPermitted => trivial
  | permitted localConfig provider =>
    refine Prog.ensures_bind h (?_ : Prog.Ensures _ (fun _ _ => True) _ _) fun _ _ _ _ => trivial
    exact Prog.ensures_within (J := OnFiles fun tree => tree.node root = some .directory)
      (fun _ _ => rfl) (fun workspace _ hworkspace _ => hworkspace) h
      (materializeProjectSecrets_keeps (FileTree.keptBySteps_directory root) manifest h)

/-- Nothing behind `create_dir` removes the directory. -/
theorem fillWorkspace_stands (hgit : env.git.KeepsDirectory) (h : Stands root host) :
    (fillWorkspace env path root manifest execution secretPolicy).Ensures (Stands root)
      (fun _ _ => True) host := by
  unfold fillWorkspace
  apply Prog.ensures_bind h (initializeRepository_stands hgit h)
  intro _ initialized hinitialized _
  apply Prog.ensures_bind hinitialized (materializeRunnerSidecars_stands hgit hinitialized)
  intro sidecars applied happlied _
  exact Prog.ensures_bind happlied (materializeRunnerSecrets_stands happlied)
    fun _ _ _ _ => trivial

/-! ## Making the directory -/

theorem exec_onFiles {α : Type} (program : Prog FileTree DevRelayError α) (n : Nat) :
    (onFiles program).exec fault n host =
      ((program.exec fault n host.tree).1,
        { host with tree := (program.exec fault n host.tree).2 }) := by
  unfold onFiles
  rw [Prog.exec_within]
  · exact fun _ _ => rfl
  · exact fun _ => rfl
  · exact fun _ _ _ => rfl

/-- A program that is stopped at once changes nothing. -/
theorem exec_stopped {σ ε α : Type} (program : Prog σ ε α) (e : ε) (s : σ) :
    (program.exec (fun _ => some e) 0 s).2 = s := by
  cases program with
  | done a => rfl
  | fail e => rfl
  | stmt write next => rfl

theorem onlyParents_refl (currentDir : Location) (path : String) (host : RunnerHost) :
    OnlyParents currentDir path host host where
  tree := ⟨fun _ => some (.io ""), 0, (exec_stopped _ _ _).symm⟩
  repository := rfl
  sidecarFiles := rfl
  secretFiles := rfl

/-- What follows the directories above the workspace. -/
def makeWorkspace (currentDir : Location) (path : String) : Preparing Location := do
  let made ← Prog.update (fun host => { host with
    tree := makeNewDirectory currentDir path host.tree })
    fun host => newDirectory? currentDir path host.tree
  Prog.orFail made (.io ("cannot create " ++ path))

theorem createWorkspaceDirectory_eq (currentDir : Location) (path : String) :
    createWorkspaceDirectory currentDir path =
      onFiles (createParents currentDir path) >>= fun _ => makeWorkspace currentDir path := rfl

/-- The directory is made, or nothing is. -/
theorem makeWorkspace_exec (n : Nat) (host : RunnerHost) :
    (∃ root, (makeWorkspace currentDir path).exec fault n host =
        (.ok root, { host with tree := host.tree.put root .directory }) ∧
        newDirectory? currentDir path host.tree = some root) ∨
      ∃ e, (makeWorkspace currentDir path).exec fault n host = (.error e, host) := by
  unfold makeWorkspace
  cases hfault : fault n with
  | some e => exact Or.inr ⟨e, Prog.exec_stmt_stopped hfault _ _ _⟩
  | none =>
    rw [Prog.exec_update_bind hfault]
    unfold makeNewDirectory
    cases hnew : newDirectory? currentDir path host.tree with
    | none => exact Or.inr ⟨_, rfl⟩
    | some root => exact Or.inl ⟨root, rfl, rfl⟩

theorem node_of_newDirectory? {tree : FileTree}
    (h : newDirectory? currentDir path tree = some root) : tree.node root = none := by
  unfold newDirectory? at h
  split at h
  · cases h
  · split at h
    · obtain ⟨parent, -, hparent⟩ := Option.bind_eq_some_iff.mp h
      split at hparent
      · rename_i hnone
        cases hparent
        exact hnone
      · cases hparent
    · cases h

/-- A directory that was not made leaves some of the directories above it. -/
theorem createWorkspaceDirectory_error {e : DevRelayError}
    (h : (createWorkspaceDirectory currentDir path).exec fault 0 host = (.error e, host')) :
    host' = { host with tree := ((createParents currentDir path).exec fault 0 host.tree).2 } := by
  rw [createWorkspaceDirectory_eq, Prog.exec_bind, exec_onFiles] at h
  cases hparents : (createParents currentDir path).exec fault 0 host.tree with
  | mk result tree =>
    rw [hparents] at h
    cases result with
    | error stopped =>
      cases h
      rfl
    | ok =>
      rcases makeWorkspace_exec (0 + (onFiles (createParents currentDir path)).ran fault 0 host)
          { host with tree } with ⟨root, hmade, -⟩ | ⟨refused, hmade⟩
      · cases hmade.symm.trans h
      · cases hmade.symm.trans h
        rfl

/-- One that was made stands where nothing was when the directories above it were there. -/
theorem createWorkspaceDirectory_ok
    (h : (createWorkspaceDirectory currentDir path).exec fault 0 host = (.ok root, host')) :
    Stands root host' ∧ ((createParents currentDir path).run host.tree).2.node root = none := by
  rw [createWorkspaceDirectory_eq, Prog.exec_bind, exec_onFiles] at h
  cases hparents : (createParents currentDir path).exec fault 0 host.tree with
  | mk result tree =>
    rw [hparents] at h
    cases result with
    | error stopped => cases h
    | ok =>
      rcases makeWorkspace_exec (0 + (onFiles (createParents currentDir path)).ran fault 0 host)
          { host with tree } with ⟨place, hmade, hnew⟩ | ⟨refused, hmade⟩
      · cases hmade.symm.trans h
        rw [Prog.run_of_exec_ok hparents]
        exact ⟨FileTree.node_put_self tree root .directory, node_of_newDirectory? hnew⟩
      · cases hmade.symm.trans h

theorem createParents_again (currentDir : Location) (path : String) (fault : Fault DevRelayError)
    (n : Nat) (tree : FileTree) :
    (createParents currentDir path).run ((createParents currentDir path).exec fault n tree).2 =
      (createParents currentDir path).run tree := FileTree.createDirAll_resume _ n

theorem grown_createParents (currentDir : Location) (path : String) (tree : FileTree) :
    FileTree.Grown tree ((createParents currentDir path).run tree).2 :=
  FileTree.grown_createDirAll _ 0

/-- With some of the directories above it there, the directory is made as without them. -/
theorem createWorkspaceDirectory_again (n : Nat) :
    (createWorkspaceDirectory currentDir path).run
        { host with tree := ((createParents currentDir path).exec fault n host.tree).2 } =
      (createWorkspaceDirectory currentDir path).run host := by
  have hagain := createParents_again currentDir path fault n host.tree
  unfold Prog.run at hagain
  rw [createWorkspaceDirectory_eq, Prog.run_bind, Prog.run_bind]
  unfold Prog.run
  rw [exec_onFiles, exec_onFiles, hagain]

/-! ## When a failed call leaves nothing -/

section Calls

variable {environment : TaskRunnerEnvironmentState} {e : DevRelayError} {made : RunnerHost}

theorem prepare_refused (hcheck : checkTaskExecution manifest execution options = .error e)
    (n : Nat) :
    (prepareTaskRunnerWorkspace env manifest execution options secretPolicy).exec fault n host =
      (.error e, host) := by
  unfold prepareTaskRunnerWorkspace
  rw [hcheck]
  rfl

/-- What a call does behind its checks. -/
def prepareChecked (env : RunnerEnv) (manifest : Manifest) (execution : TaskExecutionSnapshot)
    (options : TaskRunnerWorkspaceOptions) (secretPolicy : TaskRunnerSecretPolicy)
    (environment : TaskRunnerEnvironmentState) (root : Location) : Preparing TaskRunnerWorkspace :=
  fillWorkspace env (workspacePath env manifest options) root manifest execution secretPolicy >>=
    fun filled => pure {
      taskRunId := options.taskRunId
      projectId := manifest.projectId
      taskName := execution.definition.taskName
      path := workspacePath env manifest options
      snapshotId := execution.metadata.snapshotId
      canonicalSession := false
      environment
      sidecars := filled.1.1
      secrets := filled.2
      verification := filled.1.2
      deleteOnCleanup := options.deleteOnCleanup }

theorem prepare_eq (hcheck : checkTaskExecution manifest execution options = .ok environment) :
    prepareTaskRunnerWorkspace env manifest execution options secretPolicy =
      createWorkspaceDirectory env.currentDir (workspacePath env manifest options) >>=
        prepareChecked env manifest execution options secretPolicy environment := by
  unfold prepareTaskRunnerWorkspace
  rw [hcheck]
  rfl

variable (secretPolicy) in
theorem prepare_exec_made
    (hcheck : checkTaskExecution manifest execution options = .ok environment)
    (hmade : (createWorkspaceDirectory env.currentDir (workspacePath env manifest options)).exec
      fault 0 host = (.ok root, made)) :
    (prepareTaskRunnerWorkspace env manifest execution options secretPolicy).exec fault 0 host =
      (prepareChecked env manifest execution options secretPolicy environment root).exec fault
        ((createWorkspaceDirectory env.currentDir (workspacePath env manifest options)).ran fault
          0 host) made := by
  rw [prepare_eq hcheck, Prog.exec_bind, hmade, Nat.zero_add]

/-- It fails exactly if the directory is not filled. -/
theorem prepareChecked_error_iff (n : Nat) (host' : RunnerHost) :
    (prepareChecked env manifest execution options secretPolicy environment root).exec
      fault n made =
        (.error e, host') ↔
      (fillWorkspace env (workspacePath env manifest options) root manifest execution
        secretPolicy).exec fault n made = (.error e, host') := by
  unfold prepareChecked
  rw [Prog.exec_bind]
  rcases (fillWorkspace env (workspacePath env manifest options) root manifest execution
      secretPolicy).exec fault n made with ⟨failure | filled, after⟩
  · simp
  · constructor
    · intro h
      cases h
    · intro h
      cases h

/-- What it then leaves has the directory in it, and a call that can be repeated leaves none. -/
theorem not_onlyParents_of_made (hgit : env.git.KeepsDirectory)
    (hmade : (createWorkspaceDirectory env.currentDir (workspacePath env manifest options)).exec
      fault 0 host = (.ok root, made)) (n : Nat) :
    ¬ OnlyParents env.currentDir (workspacePath env manifest options) host
      ((fillWorkspace env (workspacePath env manifest options) root manifest execution
        secretPolicy).exec fault n made).2 := by
  intro honly
  obtain ⟨hstands, hfree⟩ := createWorkspaceDirectory_ok hmade
  have hfilled : Stands root ((fillWorkspace env (workspacePath env manifest options) root manifest
      execution secretPolicy).exec fault n made).2 :=
    Prog.exec_ensures fault n _ made hstands (fillWorkspace_stands hgit hstands)
  obtain ⟨stop, k, htree⟩ := honly.tree
  unfold Stands at hfilled
  rw [htree] at hfilled
  have hsome := (grown_createParents env.currentDir (workspacePath env manifest options)
    _).node_of_some hfilled
  rw [createParents_again, hfree] at hsome
  cases hsome

end Calls

/-- A failed preparation leaves nothing and can be repeated exactly if it fails before its
directory is made: nothing is taken back behind `create_dir`. -/
theorem prepare_atomic_iff (env : RunnerEnv) (manifest : Manifest)
    (execution : TaskExecutionSnapshot) (options : TaskRunnerWorkspaceOptions)
    (secretPolicy : TaskRunnerSecretPolicy) (hgit : env.git.KeepsDirectory)
    (fault : Fault DevRelayError) (host : RunnerHost) :
    LeavesNothing env manifest execution options secretPolicy fault host ↔
      FillsUp env manifest execution options secretPolicy fault host := by
  constructor
  · intro hleaves environment root made hcheck hmade e hfill
    have hexec := prepare_exec_made secretPolicy hcheck hmade
    rw [(prepareChecked_error_iff _ _).mpr (Prod.ext hfill rfl)] at hexec
    exact not_onlyParents_of_made hgit hmade _ (hleaves e _ hexec).1
  · intro hfills e host' hexec
    cases hcheck : checkTaskExecution manifest execution options with
    | error refused =>
      rw [prepare_refused hcheck] at hexec
      cases hexec
      exact ⟨onlyParents_refl _ _ host, rfl⟩
    | ok environment =>
      cases hmade : (createWorkspaceDirectory env.currentDir
          (workspacePath env manifest options)).exec fault 0 host with
      | mk result made =>
        cases result with
        | error failure =>
          have hstopped := createWorkspaceDirectory_error hmade
          rw [prepare_eq hcheck, Prog.exec_bind, hmade] at hexec
          cases hexec
          subst hstopped
          refine ⟨⟨⟨fault, 0, rfl⟩, rfl, rfl, rfl⟩, ?_⟩
          rw [prepare_eq hcheck, Prog.run_bind, Prog.run_bind, createWorkspaceDirectory_again]
        | ok root =>
          rw [prepare_exec_made secretPolicy hcheck hmade, prepareChecked_error_iff] at hexec
          exact absurd (congrArg Prod.fst hexec)
            (hfills environment root made hcheck hmade e)

/-! ## A sidecar and no store

The snapshot of the task has a sidecar, and the call is made without the store of its chunks.
-/

/-- `git init` makes the `.git` directory; the rest of Git is not reached. -/
noncomputable def demoGit : RunnerGit where
  init root tree := (true, tree.put (root ++ [".git"]) .directory)
  initial := plainRepository numberedObjects (.branch "runner") .empty .empty
  workTree _ _ tree := tree

theorem demoGit_keepsDirectory : demoGit.KeepsDirectory where
  init root tree h := by
    have hne : root ≠ root ++ [".git"] := by simp
    exact (FileTree.node_put_of_ne hne).trans h
  workTree _ _ _ h := h

noncomputable def demoEnv : RunnerEnv where
  git := demoGit
  apply := {
    objects := numberedObjects
    add := globPaths
    digest := zeroDigest
    lfsObjects := fun _ => .ok ()
    reparsePoints := .ok ()
    pathsSupported := fun _ => .ok ()
    materializationSupported := fun _ => .ok ()
    holds := fun _ => true
    missingBlobs := fun _ => .ok ()
    injected := none
    fault := noFault }
  lfsObjectsOrSidecars _ := .ok ()
  source := plainRepository numberedObjects (.branch "main") .empty .empty
  casStore := none
  reads _ := []
  projectDataDir projectId := "/" ++ projectId
  currentDir := []

def demoManifest : Manifest := { plainManifest with
  environment := some ⟨.singleton "dev" { kind := .native, targets := ["*"], command := [] }⟩ }

def demoDefinition : TaskDefinition where
  projectId := "12345678"
  taskName := "build"
  profileName := "dev"
  profileKind := .native
  command := ["make"]
  platforms := []
  cpu := none
  memoryMib := none
  diskMib := none
  interactive := false
  cache := none
  outputs := []
  features := []
  sandbox := none
  commandDefinitionHash := ""

def demoSidecar : SnapshotSidecar where
  logicalPath := "data.bin"
  fileMode := "100644"
  classification := "large_file"
  sizeBytes := 1
  chunkSizeBytes := 1
  rootHash := ""
  casManifestId := ""

def demoExecution : TaskExecutionSnapshot where
  definition := demoDefinition
  metadata := {
    schemaVersion := snapshotSchemaVersion
    snapshotId := "s1_0123456789abcdef01234567"
    projectId := "12345678"
    projectName := "demo"
    sessionId := none
    parentSnapshotId := none
    childSnapshots := []
    branch := some "main"
    headOid := ""
    indexTreeOid := ""
    indexCommitOid := ""
    workTreeOid := ""
    workCommitOid := ""
    includedUntracked := []
    excluded := []
    sidecars := [demoSidecar]
    stateHash := ""
    createdAtUnixSeconds := 0 }

def demoOptions : TaskRunnerWorkspaceOptions where
  taskRunId := "run"
  environmentContext := ⟨"linux-x86_64", [.native], []⟩
  deleteOnCleanup := true

/-- The device has the directories at these locations, and no file. -/
def directories (locations : List Location) : RunnerHost where
  tree := {
    node := fun location => if location ∈ [] :: locations then some .directory else none
    fold := id }
  repository := none
  sidecarFiles := []
  secretFiles := []

/-- The first step of the call. -/
noncomputable def demoDirectory : Preparing Location :=
  createWorkspaceDirectory demoEnv.currentDir (workspacePath demoEnv demoManifest demoOptions)

/-- The run was prepared before: its directory is there. -/
def preparedBefore : RunnerHost :=
  directories [["12345678"], ["12345678", "runner-workspaces"],
    ["12345678", "runner-workspaces", "run"]]

theorem preparedBefore_refused : (demoDirectory.exec noFault 0 preparedBefore).1.isOk = false := by
  decide +kernel

theorem prepare_again_leaves_nothing :
    LeavesNothing demoEnv demoManifest demoExecution demoOptions .notPermitted noFault
      preparedBefore :=
  (prepare_atomic_iff demoEnv demoManifest demoExecution demoOptions .notPermitted
    demoGit_keepsDirectory noFault preparedBefore).mpr
      fun _ _ _ _ hmade _ _ => by
        have hrefused := preparedBefore_refused
        unfold demoDirectory at hrefused
        rw [hmade] at hrefused
        cases hrefused

def demoRoot : Location := ["12345678", "runner-workspaces", "run"]

noncomputable def demoMade : RunnerHost := (demoDirectory.exec noFault 0 (directories [])).2

theorem demo_made : demoDirectory.exec noFault 0 (directories []) = (.ok demoRoot, demoMade) := by
  have hroot : (demoDirectory.exec noFault 0 (directories [])).1 = .ok demoRoot := by
    decide +kernel
  unfold demoMade
  rw [← hroot]

theorem demo_checked : (checkTaskExecution demoManifest demoExecution demoOptions).isOk = true := by
  decide

theorem demo_not_filled (n : Nat) : ((fillWorkspace demoEnv
    (workspacePath demoEnv demoManifest demoOptions) demoRoot demoManifest demoExecution
      .notPermitted).exec noFault n demoMade).1.isOk = false := by
  rw [Prog.exec_noFault n 0]
  decide +kernel

theorem missing_store_leaves_the_workspace :
    ¬ ∀ (env : RunnerEnv) (manifest : Manifest) (execution : TaskExecutionSnapshot)
      (options : TaskRunnerWorkspaceOptions) (secretPolicy : TaskRunnerSecretPolicy),
      env.git.KeepsDirectory → ∀ (fault : Fault DevRelayError) (host : RunnerHost),
        LeavesNothing env manifest execution options secretPolicy fault host := by
  intro hall
  have hleaves := hall demoEnv demoManifest demoExecution demoOptions .notPermitted
    demoGit_keepsDirectory noFault (directories [])
  have hmade := demo_made
  have hchecked := demo_checked
  unfold demoDirectory at hmade
  cases hcheck : checkTaskExecution demoManifest demoExecution demoOptions with
  | error e =>
    rw [hcheck] at hchecked
    cases hchecked
  | ok environment =>
    have hexec := prepare_exec_made .notPermitted hcheck hmade
    generalize (createWorkspaceDirectory demoEnv.currentDir
      (workspacePath demoEnv demoManifest demoOptions)).ran noFault 0 (directories []) = n at hexec
    have hfailed := demo_not_filled n
    cases hfill : (fillWorkspace demoEnv (workspacePath demoEnv demoManifest demoOptions)
        demoRoot demoManifest demoExecution .notPermitted).exec noFault n demoMade with
    | mk result after =>
      rw [hfill] at hfailed
      cases result with
      | ok filled => cases hfailed
      | error e =>
        rw [(prepareChecked_error_iff _ _).mpr hfill] at hexec
        apply not_onlyParents_of_made demoGit_keepsDirectory hmade n
        rw [hfill]
        exact (hleaves e _ hexec).1

end DevRelay.Runner
