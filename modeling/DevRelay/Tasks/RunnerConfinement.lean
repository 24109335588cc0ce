import DevRelay.Lib.LinkWays
import DevRelay.Tasks.RunnerAtomicity
import DevRelay.Tasks.RunnerExecution

/-!
# Where a task runs

The working directory is checked as a text, and then only for being a directory, links followed.
So a link in the runner workspace takes a command out of it.
-/

namespace DevRelay.Runner

open DevRelay.Lib DevRelay.Core

section Law

variable (env : ExecutionEnv) (manifest : Manifest) (workspace : TaskRunnerWorkspace)
  (definition : TaskDefinition) (options : TaskExecutionOptions)

/-- The path leads to the runner workspace or below it. -/
def LeadsInside (path : String) : Prop :=
  ∀ root location, env.tree.locate env.currentDir (steps workspace.path) = some root →
    env.tree.locate env.currentDir (steps path) = some location → root <+: location

/-- A command is started inside only; where none is, an error is returned, or the report of a
backend that is a placeholder. -/
structure RunsInside (outcome : Except DevRelayError TaskExecutionResult × Option StartedCommand) :
    Prop where
  started : ∀ command, outcome.2 = some command → LeadsInside env workspace command.cwd
  refused : outcome.2 = none → (∃ e, outcome.1 = .error e) ∨
    taskExecutionBackend definition ≠ .host ∧
      ∃ result, outcome.1 = .ok result ∧ result.state = .failed

/-- The command of the task in this directory. -/
def commandIn (path program : String) (args : List String) : StartedCommand :=
  ⟨path, program, args, (taskExecutionEnvironment workspace options.environment).entries⟩

/-- A configured directory passes the check of its text and is there, and the command of the task
can be started in it. -/
def StartsIn (configured : String) : Prop :=
  configuredDirectory manifest definition options = some configured ∧
    (Journal.isBlank configured || Artifacts.leavesDirectory configured) = false ∧
    isDir env (join workspace.path configured) = true ∧
    taskExecutionBackend definition = .host ∧
    ∃ program args process, definition.command = program :: args ∧
      env.spawn (commandIn workspace options (join workspace.path configured) program args) =
        .ok process

/-- The last link that the names of the path meet, if they meet one, leads to a place from which
the names behind it end in the workspace or below. -/
def LinksLeadBack (configured : String) : Prop :=
  ∀ root names, env.tree.locate env.currentDir (steps workspace.path) = some root →
    Plain (steps configured) names → ∀ place behind,
      env.tree.LastLink root names place behind → root <+: place ++ behind.map env.tree.fold

end Law

section

variable {env : ExecutionEnv} {manifest : Manifest} {workspace : TaskRunnerWorkspace}
  {definition : TaskDefinition} {options : TaskExecutionOptions}

/-- What a call has done when it has started a command. -/
theorem executeTask_started_iff {command : StartedCommand} :
    (executeTaskInRunnerWorkspace env manifest workspace definition options).2 = some command ↔
      ∃ path program args process,
        resolveTaskWorkingDirectory env manifest workspace definition options = .ok path ∧
        taskExecutionBackend definition = .host ∧ definition.command = program :: args ∧
        command = commandIn workspace options path program args ∧
        env.spawn command = .ok process := by
  unfold executeTaskInRunnerWorkspace
  cases hpath : resolveTaskWorkingDirectory env manifest workspace definition options with
  | error e => simp
  | ok path =>
    dsimp only
    by_cases hbackend : taskExecutionBackend definition = .host
    · rw [if_neg (not_not.mpr hbackend)]
      cases hcommand : definition.command with
      | nil => simp
      | cons program args =>
        dsimp only
        cases hspawn : env.spawn (commandIn workspace options path program args) with
        | error e =>
          unfold commandIn at hspawn
          rw [hspawn]
          constructor
          · intro h
            cases h
          · rintro ⟨_, _, _, process, hsame, -, hsplit, rfl, hok⟩
            cases hsame
            cases hsplit
            unfold commandIn at hok
            rw [hspawn] at hok
            cases hok
        | ok process =>
          have hraw := hspawn
          unfold commandIn at hraw
          rw [hraw]
          constructor
          · intro h
            cases h
            exact ⟨path, program, args, process, rfl, hbackend, rfl, rfl, hspawn⟩
          · rintro ⟨_, _, _, _, hsame, -, hsplit, rfl, -⟩
            cases hsame
            cases hsplit
            rfl
    · rw [if_pos hbackend]
      constructor
      · intro h
        cases h
      · rintro ⟨_, _, _, _, -, hhost, -⟩
        exact absurd hhost hbackend

/-- Where nothing was started there is no result but that of a placeholder. -/
theorem executeTask_refused
    (h : (executeTaskInRunnerWorkspace env manifest workspace definition options).2 = none) :
    (∃ e, (executeTaskInRunnerWorkspace env manifest workspace definition options).1 =
        .error e) ∨
      taskExecutionBackend definition ≠ .host ∧ ∃ result,
        (executeTaskInRunnerWorkspace env manifest workspace definition options).1 =
          .ok result ∧ result.state = .failed := by
  unfold executeTaskInRunnerWorkspace at h ⊢
  cases hpath : resolveTaskWorkingDirectory env manifest workspace definition options with
  | error e => exact Or.inl ⟨e, rfl⟩
  | ok path =>
    rw [hpath] at h
    dsimp only at h ⊢
    by_cases hbackend : taskExecutionBackend definition = .host
    · rw [if_neg (not_not.mpr hbackend)] at h ⊢
      cases hcommand : definition.command with
      | nil => exact Or.inl ⟨_, rfl⟩
      | cons program args =>
        rw [hcommand] at h
        dsimp only at h ⊢
        cases hspawn : env.spawn ⟨path, program, args,
            (taskExecutionEnvironment workspace options.environment).entries⟩ with
        | error e => exact Or.inl ⟨e, rfl⟩
        | ok process =>
          rw [hspawn] at h
          cases h
    · rw [if_pos hbackend]
      unfold placeholderExecutionResult
      dsimp only
      cases env.onLog [] ⟨.stderr, (taskExecutionBackend definition).debug ++
          " runner is a placeholder and cannot execute tasks yet"⟩ with
      | error e => exact Or.inl ⟨e, rfl⟩
      | ok _ => exact Or.inr ⟨hbackend, _, rfl, rfl⟩

/-- A text that passes the check is a path of names. -/
theorem plain_of_checked {configured : String}
    (h : (Journal.isBlank configured || Artifacts.leavesDirectory configured) = false) :
    isAbsolute configured = false ∧ ∃ names, Plain (steps configured) names := by
  rw [Bool.or_eq_false_iff, Artifacts.leavesDirectory, Bool.or_eq_false_iff] at h
  obtain ⟨-, habsolute, hcomponents⟩ := h
  refine ⟨habsolute, exists_plain ?_⟩
  intro component hcomponent
  obtain ⟨hmem, hcur⟩ := List.mem_filter.mp hcomponent
  have hinner := List.any_eq_false.mp hcomponents component hmem
  cases component with
  | rootDir => simp at hinner
  | parentDir => simp at hinner
  | curDir => simp at hcur
  | normal name => exact ⟨name, rfl⟩

/-- A directory that was checked is inside exactly if its links lead back. -/
theorem leadsInside_iff {configured : String}
    (hchecked : (Journal.isBlank configured || Artifacts.leavesDirectory configured) = false)
    (hdir : isDir env (join workspace.path configured) = true) :
    LeadsInside env workspace (join workspace.path configured) ↔
      LinksLeadBack env workspace configured := by
  obtain ⟨habsolute, names, hnames⟩ := plain_of_checked hchecked
  have hthere := of_decide_eq_true hdir
  obtain ⟨location, hlocation, -⟩ := Option.bind_eq_some_iff.mp hthere
  have hsplit := hlocation
  rw [steps_join habsolute] at hsplit
  obtain ⟨root, hroot, hbelow⟩ := FileTree.locate_append hsplit
  rw [hnames] at hbelow
  unfold LeadsInside LinksLeadBack
  constructor
  · intro hinside other others hother hothers
    rw [hroot] at hother
    cases hother
    rw [← plain_injective hnames hothers]
    exact (FileTree.below_iff hbelow).mp (hinside root location hroot hlocation)
  · intro hback other place hother hplace
    rw [hroot] at hother
    cases hother
    rw [hlocation] at hplace
    cases hplace
    exact (FileTree.below_iff hbelow).mpr (hback root names hroot hnames)

/-- The directory of a task is the workspace, or one that was configured and checked. -/
theorem resolve_eq_ok {path : String} :
    resolveTaskWorkingDirectory env manifest workspace definition options = .ok path ↔
      (configuredDirectory manifest definition options = none ∧ path = workspace.path) ∨
        ∃ configured, configuredDirectory manifest definition options = some configured ∧
          (Journal.isBlank configured || Artifacts.leavesDirectory configured) = false ∧
          isDir env (join workspace.path configured) = true ∧
          path = join workspace.path configured := by
  unfold resolveTaskWorkingDirectory
  cases configuredDirectory manifest definition options with
  | none =>
    constructor
    · intro h
      cases h
      exact Or.inl ⟨rfl, rfl⟩
    · rintro (⟨-, rfl⟩ | ⟨_, hsome, -⟩)
      · rfl
      · cases hsome
  | some configured =>
    dsimp only
    constructor
    · intro h
      split_ifs at h with hleaves hdir
      cases h
      exact Or.inr ⟨configured, rfl, eq_false_of_ne_true hleaves, hdir, rfl⟩
    · rintro (⟨hnone, -⟩ | ⟨other, hsome, hchecked, hdir, rfl⟩)
      · cases hnone
      · cases hsome
        rw [if_neg (by rw [hchecked]; decide), if_pos hdir]

end

/-- An execution stays in its workspace exactly if, where it starts a command in a configured
directory, the last link on the way to that directory leads back. -/
theorem runs_inside_iff (env : ExecutionEnv) (manifest : Manifest)
    (workspace : TaskRunnerWorkspace) (definition : TaskDefinition)
    (options : TaskExecutionOptions) :
    RunsInside env workspace definition
        (executeTaskInRunnerWorkspace env manifest workspace definition options) ↔
      ∀ configured, StartsIn env manifest workspace definition options configured →
        LinksLeadBack env workspace configured := by
  constructor
  · rintro hinside configured ⟨hconfigured, hchecked, hdir, hhost, program, args, process,
      hcommand, hspawn⟩
    apply (leadsInside_iff hchecked hdir).mp
    apply hinside.started (commandIn workspace options (join workspace.path configured) program
      args)
    exact executeTask_started_iff.mpr ⟨_, program, args, process,
      resolve_eq_ok.mpr (Or.inr ⟨configured, hconfigured, hchecked, hdir, rfl⟩), hhost, hcommand,
      rfl, hspawn⟩
  · intro hback
    refine ⟨?_, executeTask_refused⟩
    intro command hstarted
    obtain ⟨path, program, args, process, hpath, hhost, hcommand, rfl, hspawn⟩ :=
      executeTask_started_iff.mp hstarted
    rcases resolve_eq_ok.mp hpath with ⟨-, rfl⟩ | ⟨configured, hconfigured, hchecked, hdir, rfl⟩
    · intro root location hroot hlocation
      change env.tree.locate env.currentDir (steps workspace.path) = some location at hlocation
      rw [hroot] at hlocation
      cases hlocation
      exact List.prefix_refl root
    · exact (leadsInside_iff hchecked hdir).mpr (hback configured
        ⟨hconfigured, hchecked, hdir, hhost, program, args, process, hcommand, hspawn⟩)

/-! ## A link in the snapshot

The workspace has a link to a directory of the device, and the task is to run in it.
-/

def demoWorkspace : TaskRunnerWorkspace where
  taskRunId := "run"
  projectId := "12345678"
  taskName := "build"
  path := "/ws"
  snapshotId := "s1_0123456789abcdef01234567"
  canonicalSession := false
  environment := ⟨"dev", .native, "host", true, []⟩
  sidecars := .notRequired
  secrets := .skippedNotPermitted []
  verification := ⟨"", "", "", "", [], []⟩
  deleteOnCleanup := true

def linkedTree : FileTree where
  node location :=
    if location = ["ws", "out"] then some (.symlink "/etc")
    else if location = [] ∨ location = ["ws"] ∨ location = ["etc"] then some .directory
    else none
  fold := id

/-- Every command starts, and ends at once. -/
def linkedEnv : ExecutionEnv where
  tree := linkedTree
  currentDir := []
  spawn _ := .ok ⟨[], [], [], .ok (some 0, false)⟩
  onLog _ _ := .ok ()
  elapsedMillis := 0

def linkedOptions : TaskExecutionOptions := ⟨some "out", .empty⟩

theorem linked_started :
    (executeTaskInRunnerWorkspace linkedEnv demoManifest demoWorkspace demoDefinition
      linkedOptions).2 = some ⟨"/ws/out", "make", [], []⟩ := by
  decide

theorem command_runs_behind_a_link :
    ¬∀ (env : ExecutionEnv) (manifest : Manifest) (workspace : TaskRunnerWorkspace)
      (definition : TaskDefinition) (options : TaskExecutionOptions),
      RunsInside env workspace definition
        (executeTaskInRunnerWorkspace env manifest workspace definition options) := by
  intro hall
  have hinside := (hall linkedEnv demoManifest demoWorkspace demoDefinition linkedOptions).started
    _ linked_started
  have hroot : linkedTree.locate [] (steps "/ws") = some ["ws"] := by decide
  have hplace : linkedTree.locate [] (steps "/ws/out") = some ["etc"] := by decide
  have hprefixed : ["ws"] <+: ["etc"] := hinside ["ws"] ["etc"] hroot hplace
  revert hprefixed
  decide

end DevRelay.Runner
