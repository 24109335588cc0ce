import DevRelay.Manifest.TrustBinding
import DevRelay.Tasks.DefinitionReading

/-!
# What the definition hash binds

A definition is bound when no other definition feeds the same bytes.  Two values and
one value with a zero character between them are the same text, a tag can be found
again in a value, and a working directory called `none` is written as a missing one.
The bound definitions are those that escape all three.
-/

namespace DevRelay.Core

open DevRelay.Lib

/-- A task of a validated manifest with the profile it selects. -/
structure SelectedTask where
  manifest : Manifest
  valid : manifest.validate = .ok ()
  taskName : String
  task : TaskConfig
  profile : EnvironmentProfile
  found : manifest.tasks.find? taskName = some task
  selected : profileForTask manifest taskName task = .ok profile

/-- The definitions agree up to the order of the set-like lists. -/
structure SameDefinition (task : TaskConfig) (profile : EnvironmentProfile)
    (task' : TaskConfig) (profile' : EnvironmentProfile) : Prop where
  command : task.command = task'.command
  platforms : task.platforms.Perm task'.platforms
  cpu : task.cpu = task'.cpu
  memoryMib : task.memoryMib = task'.memoryMib
  diskMib : task.diskMib = task'.diskMib
  interactive : task.interactive = task'.interactive
  cache : task.cache = task'.cache
  outputs : task.outputs.Perm task'.outputs
  features : task.features.Perm task'.features
  sandbox : task.sandbox = task'.sandbox
  kind : profile.kind = profile'.kind
  targets : profile.targets.Perm profile'.targets
  profileCommand : profile.command = profile'.command
  fingerprintFiles : profile.fingerprintFiles.Perm profile'.fingerprintFiles
  healthcheck : profile.healthcheck = profile'.healthcheck
  workingDirectory : profile.workingDirectory = profile'.workingDirectory
  timeoutSeconds : profile.timeoutSeconds = profile'.timeoutSeconds

namespace SelectedTask

/-- The bytes fed to the hasher for the definition hash. -/
def stream (self : SelectedTask) : ByteArray :=
  taskCommandDefinitionStream self.manifest.projectId self.taskName self.task self.profile

theorem wellFormed (self : SelectedTask) :
    WellFormed self.manifest.projectId self.task self.profile := by
  obtain ⟨hheader, hprofiles, -, htasks⟩ := Manifest.validate_eq_ok.mp self.valid
  have hid : 8 ≤ self.manifest.projectId.utf8ByteSize := by
    unfold Manifest.validateHeader at hheader
    simp only [bind_eq_ok, require_eq_ok, decide_eq_true_eq] at hheader
    exact hheader.2.1
  have htask := htasks (self.taskName, self.task)
    (SortedMap.mem_entries_of_find? self.found)
  obtain ⟨hname, -, hcommand, hplatforms, houtputs, hfeatures, hhints⟩ :=
    validateTask_eq_ok.mp htask
  have hselected := self.selected
  unfold profileForTask at hselected
  have hprofile : (self.task.profile, self.profile) ∈ self.manifest.profiles := by
    cases henv : self.manifest.environment with
    | none =>
      rw [henv] at hselected
      cases hselected
    | some environment =>
      rw [henv, Option.bind_some] at hselected
      cases hfind : environment.profiles.find? self.task.profile with
      | none =>
        rw [hfind] at hselected
        cases hselected
      | some profile =>
        rw [hfind] at hselected
        cases hselected
        rw [Manifest.profiles, henv]
        exact SortedMap.mem_entries_of_find? hfind
  obtain ⟨htargets, hprofileCommand, hfiles, hcheck⟩ :=
    validateProfile_eq_ok.mp (hprofiles _ hprofile)
  exact ⟨hid, hname, hcommand, hplatforms, houtputs, hfeatures, hhints, htargets,
    hprofileCommand, hfiles, hcheck⟩

/-- Every well-formed definition is the one task of a valid manifest. -/
theorem exists_of_wellFormed {projectId : String} {task : TaskConfig}
    {profile : EnvironmentProfile} (h : WellFormed projectId task profile) (taskName : String) :
    ∃ other : SelectedTask, other.manifest.projectId = projectId ∧
      other.taskName = taskName ∧ other.task = task ∧ other.profile = profile := by
  let manifest : Manifest :=
    { Manifest.singleProfile ["run"] none with
      projectId := projectId
      environment := some ⟨.singleton task.profile profile⟩
      tasks := .singleton taskName task }
  have hfind : (SortedMap.singleton task.profile profile).find? task.profile =
      some profile := by simp [SortedMap.find?, SortedMap.singleton]
  have hvalid : manifest.validate = .ok () := by
    refine Manifest.validate_eq_ok.mpr ⟨?_, ?_, ?_, ?_⟩
    · have hid : decide (8 ≤ projectId.utf8ByteSize) = true := decide_eq_true h.projectId
      have hplain : (Manifest.singleProfile ["run"] none).validateHeader = .ok () := by decide
      unfold Manifest.validateHeader at hplain ⊢
      simp only [bind_eq_ok, require_eq_ok] at hplain ⊢
      exact ⟨hplain.1, hid, hplain.2.2⟩
    · intro entry hentry
      rw [List.mem_singleton.mp hentry]
      exact validateProfile_eq_ok.mpr
        ⟨h.targets, h.profileCommand, h.fingerprintFiles, h.healthcheck⟩
    · intro entry hentry
      cases hentry
    · intro entry hentry
      rw [List.mem_singleton.mp hentry]
      refine validateTask_eq_ok.mpr ⟨h.profileName, ?_, h.taskCommand, h.platforms, h.outputs,
        h.features, h.hints⟩
      simp [validateTaskProfile, manifest, SortedMap.containsKey]
  have hselected : profileForTask manifest taskName task = .ok profile := by
    unfold profileForTask
    simp only [manifest, Option.bind_some, hfind]
  have hfound : manifest.tasks.find? taskName = some task := by
    simp [manifest, SortedMap.find?, SortedMap.singleton]
  exact ⟨⟨manifest, hvalid, taskName, task, profile, hfound, hselected⟩, rfl, rfl, rfl, rfl⟩

theorem stream_eq_iff {d d' : SelectedTask} :
    d.stream = d'.stream ↔
      spell (headerOf d.manifest.projectId d.taskName d.task.profile)
          (definitionParts d.task d.profile) =
        spell (headerOf d'.manifest.projectId d'.taskName d'.task.profile)
          (definitionParts d'.task d'.profile) := by
  rw [stream, stream, taskCommandDefinitionStream_eq, taskCommandDefinitionStream_eq,
    framedText_eq_iff, spell_definitionParts, spell_definitionParts]

end SelectedTask

/-! ## Unambiguous definitions -/

def checkTag : Word := ⟨"profile.healthcheck".toList, by decide⟩

def noCheckTag : Word := ⟨"profile.healthcheck.none".toList, by decide⟩

/-- Every list holds one value at most, which cannot be cut; there is a working directory
that is not called `none`; the files and the arguments of the health check do not contain
its tags; and no separator is found at a second place in the lists beside it. -/
structure Unambiguous (projectId taskName : String) (task : TaskConfig)
    (profile : EnvironmentProfile) : Prop where
  command : Undivided CutsCommand task.command
  platforms : Undivided CutsValues task.platforms
  outputs : Undivided CutsValues task.outputs
  features : Undivided CutsValues task.features
  targets : Undivided CutsValues profile.targets
  profileCommand : Undivided CutsCommand profile.command
  fingerprintFiles : Undivided CutsFiles profile.fingerprintFiles
  healthcheck : ∀ check ∈ profile.healthcheck, Undivided CutsCommand check
  noTagInFiles : checkTag ∉ words profile.fingerprintFiles
  noTagAtEnd : ∀ check ∈ profile.healthcheck, (words check).getLast? ≠ some noCheckTag
  workingDirectory : ∃ dir, profile.workingDirectory = some dir ∧ dir ≠ "none"
  steady : Steady HeaderWords definitionSlots (headerOf projectId taskName task.profile)
    (definitionParts task profile)

theorem words_checkFields_none : words (checkFields none) = [noCheckTag] :=
  words_of_notMem (by decide)

theorem words_checkFields_some (check : List String) :
    words (checkFields (some check)) = checkTag :: words check := by
  rw [checkFields, words_cons, words_of_notMem (by decide)]
  rfl

theorem words_ne_nil_of_check {check : List String} (h : check ≠ [] ∧ "" ∉ check) :
    words check ≠ [] := fun hnil => h.1 (words_eq_nil hnil)

theorem mem_words_sorted {values : List String} {p : Word} :
    p ∈ words (sorted values) ↔ p ∈ words values :=
  ((List.perm_insertionSort (· ≤ ·) values).flatMap_right _).mem_iff

/-- A health check that cannot be cut holds its tag at no place where another health check
could start. -/
theorem notMem_checkTag {check : List String} (h : Undivided CutsCommand check)
    {u : List Word} {check' : List String} (hvalid' : check' ≠ [] ∧ "" ∉ check')
    (heq : words check = u ++ checkTag :: words check') : False := by
  have hne' := words_ne_nil_of_check hvalid'
  have hsplit : words check = (u ++ [checkTag]) ++ words check' := by
    rw [heq, List.append_assoc]
    rfl
  have hleft : u ++ [checkTag] ≠ [] := List.append_ne_nil_of_right_ne_nil u (by simp)
  obtain ⟨hlength, hundivided⟩ := h
  match check, hlength with
  | [], _ =>
    rw [words_nil] at heq
    exact absurd heq.symm (by simp)
  | [v], _ =>
    refine hundivided (unwords (u ++ [checkTag])) (unwords (words check')) ?_ ⟨?_, ?_⟩
    · rw [← unwords_append hleft hne', ← hsplit, unwords_words]
      exact List.mem_singleton_self v
    · exact unwords_ne_empty (List.mem_append_right u (List.mem_singleton_self checkTag))
        (by decide)
    · obtain ⟨first, rest, rfl⟩ := List.exists_cons_of_ne_nil hvalid'.1
      obtain ⟨t, ht⟩ := exists_unwords_cons first rest
      intro hempty
      rw [ht, String.append_eq_empty_iff] at hempty
      rw [hempty.1] at hvalid'
      exact hvalid'.2 List.mem_cons_self

/-- The files and the health check are read back. -/
theorem files_eq {files files' : List String} {healthcheck healthcheck' : Option (List String)}
    (hfiles : Undivided CutsFiles files) (htag : checkTag ∉ words files)
    (hcheck : ∀ check ∈ healthcheck, Undivided CutsCommand check)
    (hlast : ∀ check ∈ healthcheck, (words check).getLast? ≠ some noCheckTag)
    (hvalid : ∀ check ∈ healthcheck, check ≠ [] ∧ "" ∉ check)
    (hfiles' : files'.Nodup) (hvalid' : ∀ check ∈ healthcheck', check ≠ [] ∧ "" ∉ check)
    (heq : words (sorted files ++ checkFields healthcheck) =
      words (sorted files' ++ checkFields healthcheck')) :
    files.Perm files' ∧ healthcheck = healthcheck' := by
  have hperm : words (sorted files) = words (sorted files') → files.Perm files' := by
    intro hwords
    exact perm_of_sorted_eq (eq_of_undivided (sorted_undivided hfiles)
      (fun _ _ _ hcons => cutsFiles_of_sorted hfiles' hcons) hwords)
  have hnotag : checkTag ∉ words (sorted files) := fun hmem => htag (mem_words_sorted.mp hmem)
  rw [words_append, words_append] at heq
  cases healthcheck with
  | none =>
    rw [words_checkFields_none] at heq
    cases healthcheck' with
    | none =>
      rw [words_checkFields_none] at heq
      exact ⟨hperm (List.append_cancel_right heq), rfl⟩
    | some check' =>
      rw [words_checkFields_some] at heq
      have hmem : checkTag ∈ words (sorted files) ++ [noCheckTag] := by
        rw [heq]
        exact List.mem_append_right _ List.mem_cons_self
      rcases List.mem_append.mp hmem with hmem | hmem
      · exact absurd hmem hnotag
      · exact absurd (congrArg Piece.word (List.mem_singleton.mp hmem)) (by decide)
  | some check =>
    rw [words_checkFields_some] at heq
    cases healthcheck' with
    | none =>
      rw [words_checkFields_none] at heq
      have hne := words_ne_nil_of_check (hvalid check rfl)
      obtain ⟨init, last, hwords⟩ := List.eq_nil_or_concat (words check) |>.resolve_left hne
      rw [List.concat_eq_append] at hwords
      refine absurd ?_ (hlast check rfl)
      rw [hwords, ← List.cons_append, ← List.append_assoc] at heq
      have hend := (List.cons.inj (List.append_inj' heq rfl).2).1
      rw [hwords, List.getLast?_concat, hend]
    | some check' =>
      rw [words_checkFields_some] at heq
      rcases append_terminator_cases hnotag heq with ⟨hsame, hrest⟩ | ⟨u, -, hrest⟩
      · have hchecks := command_eq (hcheck check rfl) (hvalid' check' rfl).2 hrest
        exact ⟨hperm hsame.symm, by rw [hchecks]⟩
      · exact (notMem_checkTag (hcheck check rfl) (hvalid' check' rfl) hrest).elim

theorem hints_eq {task task' : TaskConfig} (h : hintFields task = hintFields task') :
    task.cpu = task'.cpu ∧ task.memoryMib = task'.memoryMib ∧ task.diskMib = task'.diskMib ∧
      task.interactive = task'.interactive ∧ task.cache = task'.cache := by
  simp only [hintFields, List.cons.injEq, true_and, and_true] at h
  obtain ⟨hcpu, hmemory, hdisk, hinteractive, hcache⟩ := h
  have hbool : task.interactive = task'.interactive := by
    revert hinteractive
    cases task.interactive <;> cases task'.interactive <;> decide
  exact ⟨optionText_injective toString_u64_ne_none toString_u64_injective hcpu,
    optionText_injective toString_u64_ne_none toString_u64_injective hmemory,
    optionText_injective toString_u64_ne_none toString_u64_injective hdisk, hbool,
    optionText_injective debug_cache_ne_none debug_cache_injective hcache⟩

theorem kind_eq {sandbox sandbox' : Option TaskSandbox} {kind kind' : EnvironmentKind}
    (h : kindFields sandbox kind = kindFields sandbox' kind') :
    sandbox = sandbox' ∧ kind = kind' := by
  simp only [kindFields, List.cons.injEq, true_and, and_true] at h
  exact ⟨optionText_injective debug_sandbox_ne_none debug_sandbox_injective h.1,
    debug_kind_injective _ _ h.2⟩

/-- The words after the tag of the working directory. -/
theorem end_eq {dir dir' : Option String} {timeout timeout' : Option UInt64}
    (h : words [optionText id dir, "profile.timeout_seconds", optionText toString timeout] =
      words [optionText id dir', "profile.timeout_seconds", optionText toString timeout']) :
    optionText id dir = optionText id dir' ∧ timeout = timeout' := by
  have hfields : ∀ t : Option UInt64,
      WordFields ["profile.timeout_seconds", optionText toString t] := by
    intro t f hf
    rcases List.mem_cons.mp hf with rfl | hf
    · decide
    · rw [List.mem_singleton.mp hf]
      exact (rendered_u64 t).1
  rw [words_cons, words_cons (optionText id dir')] at h
  obtain ⟨hdir, hrest⟩ := List.append_inj' h (by
    rw [length_words (hfields timeout), length_words (hfields timeout')]
    rfl)
  have htimeout := eq_of_words_eq (hfields timeout) (hfields timeout') hrest
  simp only [List.cons.injEq, true_and, and_true] at htimeout
  exact ⟨words_singleton_injective hdir,
    optionText_injective toString_u64_ne_none toString_u64_injective htimeout⟩

theorem tagged_definitionSlots : ∀ slot ∈ definitionSlots,
    ∃ tag, tag ∈ definitionTags ∧ ∀ s, slot.sep.Is s → tag ∈ s := by
  intro slot hslot
  simp only [definitionSlots, List.mem_cons, List.not_mem_nil, or_false] at hslot
  rcases hslot with rfl | rfl | rfl | rfl | rfl | rfl | rfl | rfl
  · exact ⟨_, by simp [definitionTags], mem_of_tag⟩
  · exact ⟨_, by simp [definitionTags], mem_of_tag⟩
  · exact ⟨_, by simp [definitionTags], mem_of_hints⟩
  · exact ⟨_, by simp [definitionTags], mem_of_tag⟩
  · exact ⟨_, by simp [definitionTags], mem_of_kind⟩
  · exact ⟨_, by simp [definitionTags], mem_of_tag⟩
  · exact ⟨_, by simp [definitionTags], mem_of_tag⟩
  · exact ⟨_, by simp [definitionTags], mem_of_tag⟩

/-- Lists without the tags leave the separators in their places. -/
theorem steady_of_tags_notMem {projectId taskName : String} {task : TaskConfig}
    {profile : EnvironmentProfile} (hvalid : WellFormed projectId task profile)
    (hheader : ∀ tag ∈ definitionTags, tag ∉ headerOf projectId taskName task.profile)
    (hlists : ∀ part ∈ definitionParts task profile, ∀ tag ∈ definitionTags, tag ∉ part.2) :
    Steady HeaderWords definitionSlots (headerOf projectId taskName task.profile)
      (definitionParts task profile) :=
  steady_of_notMem (reads_of_wellFormed hvalid taskName) tagged_definitionSlots hheader hlists

theorem undivided_of_notMem {cut : String → String → Prop} {values : List String}
    (hlength : values.length ≤ 1) (h : ∀ v ∈ values, '\x00' ∉ v.toList) :
    Undivided cut values := by
  refine ⟨hlength, fun x y hmem => ?_⟩
  refine absurd ?_ (h _ hmem)
  rw [String.toList_append, String.toList_append]
  exact List.mem_append_left _ (List.mem_append_right _ (by decide))

/-! ## Bound definitions -/

/-- No other definition of a validated manifest feeds the same bytes. -/
def SelectedTask.Bound (d : SelectedTask) : Prop :=
  ∀ d' : SelectedTask, ¬SameDefinition d.task d.profile d'.task d'.profile →
    d.stream ≠ d'.stream

def SelectedTask.IsUnambiguous (d : SelectedTask) : Prop :=
  Unambiguous d.manifest.projectId d.taskName d.task d.profile

namespace SelectedTask

variable {d : SelectedTask}

theorem bound_of_unambiguous (h : d.IsUnambiguous) : d.Bound := by
  intro d' hdiffer heq
  have hvalid := d.wellFormed
  have hvalid' := d'.wellFormed
  obtain ⟨-, hparts⟩ := reads_unique (reads_of_wellFormed hvalid d.taskName)
    (reads_of_wellFormed hvalid' d'.taskName) h.steady (stream_eq_iff.mp heq)
  simp only [definitionParts, List.cons.injEq, Prod.mk.injEq, true_and, and_true] at hparts
  obtain ⟨hcommand, hplatforms, ⟨hhints, houtputs⟩, hfeatures, ⟨hkinds, htargets⟩,
    hprofileCommand, hfiles, hend⟩ := hparts
  obtain ⟨hcpu, hmemory, hdisk, hinteractive, hcache⟩ := hints_eq
    (eq_of_words_eq (wordFields_hintFields _) (wordFields_hintFields _) hhints)
  obtain ⟨hsandbox, hkind⟩ := kind_eq
    (eq_of_words_eq (wordFields_kindFields _ _) (wordFields_kindFields _ _) hkinds)
  obtain ⟨hfilesPerm, hcheck⟩ := files_eq h.fingerprintFiles h.noTagInFiles h.healthcheck
    h.noTagAtEnd hvalid.healthcheck hvalid'.fingerprintFiles hvalid'.healthcheck hfiles
  obtain ⟨hdir, htimeout⟩ := end_eq hend
  have hworking : d.profile.workingDirectory = d'.profile.workingDirectory := by
    obtain ⟨dir, hsome, hne⟩ := h.workingDirectory
    rw [hsome] at hdir ⊢
    cases hdir' : d'.profile.workingDirectory with
    | none =>
      rw [hdir'] at hdir
      exact absurd hdir hne
    | some dir' =>
      rw [hdir'] at hdir
      change dir = dir' at hdir
      rw [hdir]
  exact hdiffer
    { command := command_eq h.command hvalid'.taskCommand.2 hcommand
      platforms := values_perm h.platforms hvalid'.platforms.1 hvalid'.platforms.2 hplatforms
      cpu := hcpu
      memoryMib := hmemory
      diskMib := hdisk
      interactive := hinteractive
      cache := hcache
      outputs := values_perm h.outputs hvalid'.outputs.1 hvalid'.outputs.2 houtputs
      features := values_perm h.features hvalid'.features.1 hvalid'.features.2 hfeatures
      sandbox := hsandbox
      kind := hkind
      targets := values_perm h.targets hvalid'.targets.1.2 hvalid'.targets.2 htargets
      profileCommand :=
        command_eq h.profileCommand hvalid'.profileCommand.2 hprofileCommand
      fingerprintFiles := hfilesPerm
      healthcheck := hcheck
      workingDirectory := hworking
      timeoutSeconds := htimeout }

/-- A well-formed definition with the same words is the same definition. -/
theorem Bound.same (h : d.Bound) {projectId taskName : String} {task : TaskConfig}
    {profile : EnvironmentProfile} (hvalid : WellFormed projectId task profile)
    (hwords : spell (headerOf d.manifest.projectId d.taskName d.task.profile)
        (definitionParts d.task d.profile) =
      spell (headerOf projectId taskName task.profile) (definitionParts task profile)) :
    SameDefinition d.task d.profile task profile := by
  obtain ⟨d', hid, hname, htask, hprofile⟩ := exists_of_wellFormed hvalid taskName
  by_contra hdiffer
  refine h d' ?_ (stream_eq_iff.mpr ?_)
  · rw [htask, hprofile]
    exact hdiffer
  · rw [hid, hname, htask, hprofile]
    exact hwords

/-- The same for a definition in the same place of the same manifest. -/
theorem Bound.same_of_parts (h : d.Bound) (task : TaskConfig) (profile : EnvironmentProfile)
    (hvalid : WellFormed d.manifest.projectId task profile) (hname : task.profile = d.task.profile)
    (hparts : definitionParts task profile = definitionParts d.task d.profile) :
    SameDefinition d.task d.profile task profile := by
  have hwords : spell (headerOf d.manifest.projectId d.taskName d.task.profile)
        (definitionParts d.task d.profile) =
      spell (headerOf d.manifest.projectId d.taskName task.profile)
        (definitionParts task profile) := by
    rw [hparts, hname]
  exact h.same hvalid hwords

theorem undivided_lists_of_bound (h : d.Bound) :
    Undivided CutsCommand d.task.command ∧ Undivided CutsValues d.task.platforms ∧
      Undivided CutsValues d.task.outputs ∧ Undivided CutsValues d.task.features ∧
      Undivided CutsValues d.profile.targets ∧ Undivided CutsCommand d.profile.command ∧
      Undivided CutsFiles d.profile.fingerprintFiles := by
  have hvalid := d.wellFormed
  have hless : ∀ x y, CutsValues x y → x < y := fun x y hxy => hxy.2
  have hfirst : ∀ x y, CutsValues x y → x ≠ "" := fun x y hxy => hxy.1
  refine ⟨?_, ?_, ?_, ?_, ?_, ?_, ?_⟩
  · by_contra hdivided
    obtain ⟨values, hvalues, hwords, hne⟩ := exists_other_command hvalid.taskCommand hdivided
    have hsame := h.same_of_parts { d.task with command := values } d.profile
      { hvalid with taskCommand := hvalues } rfl (by simp only [definitionParts, hwords]; rfl)
    exact hne hsame.command.symm
  · by_contra hdivided
    obtain ⟨values, -, hnodup, hwords, hne, hempty⟩ := exists_other_values hless hdivided
    have hsame := h.same_of_parts { d.task with platforms := values } d.profile
      { hvalid with platforms := ⟨hempty hfirst hvalid.platforms.1, hnodup⟩ } rfl
      (by simp only [definitionParts, hwords]; rfl)
    exact hne hsame.platforms.symm
  · by_contra hdivided
    obtain ⟨values, -, hnodup, hwords, hne, hempty⟩ := exists_other_values hless hdivided
    have hsame := h.same_of_parts { d.task with outputs := values } d.profile
      { hvalid with outputs := ⟨hempty hfirst hvalid.outputs.1, hnodup⟩ } rfl
      (by simp only [definitionParts, hwords]; rfl)
    exact hne hsame.outputs.symm
  · by_contra hdivided
    obtain ⟨values, -, hnodup, hwords, hne, hempty⟩ := exists_other_values hless hdivided
    have hsame := h.same_of_parts { d.task with features := values } d.profile
      { hvalid with features := ⟨hempty hfirst hvalid.features.1, hnodup⟩ } rfl
      (by simp only [definitionParts, hwords]; rfl)
    exact hne hsame.features.symm
  · by_contra hdivided
    obtain ⟨values, hnil, hnodup, hwords, hne, hempty⟩ := exists_other_values hless hdivided
    have hsame := h.same_of_parts d.task { d.profile with targets := values }
      { hvalid with targets := ⟨⟨hnil, hempty hfirst hvalid.targets.1.2⟩, hnodup⟩ } rfl
      (by simp only [definitionParts, hwords])
    exact hne hsame.targets.symm
  · by_contra hdivided
    obtain ⟨values, hvalues, hwords, hne⟩ :=
      exists_other_command hvalid.profileCommand hdivided
    have hsame := h.same_of_parts d.task { d.profile with command := values }
      { hvalid with profileCommand := hvalues } rfl (by simp only [definitionParts, hwords])
    exact hne hsame.profileCommand.symm
  · by_contra hdivided
    obtain ⟨values, -, hnodup, hwords, hne, -⟩ :=
      @exists_other_values CutsFiles (fun _ _ hxy => hxy) _ hdivided
    have hsame := h.same_of_parts d.task { d.profile with fingerprintFiles := values }
      { hvalid with fingerprintFiles := hnodup } rfl
      (by simp only [definitionParts, words_append, hwords])
    exact hne hsame.fingerprintFiles.symm

theorem undivided_check_of_bound (h : d.Bound) {check : List String}
    (hsome : d.profile.healthcheck = some check) : Undivided CutsCommand check := by
  have hvalid := d.wellFormed
  by_contra hdivided
  obtain ⟨values, hvalues, hwords, hne⟩ :=
    exists_other_command (hvalid.healthcheck check hsome) hdivided
  have hother : ∀ other ∈ some values, other ≠ [] ∧ "" ∉ other := by
    rintro other ⟨⟩
    exact hvalues
  have hsame := h.same_of_parts d.task { d.profile with healthcheck := some values }
    { hvalid with healthcheck := hother } rfl
    (by simp only [definitionParts, words_append, hsome, words_checkFields_some, hwords])
  have heq := hsame.healthcheck
  rw [hsome] at heq
  exact hne (Option.some.inj heq).symm

/-- Every text is the text of some fingerprint files. -/
theorem exists_files (u : List Word) :
    ∃ files : List String, files.Nodup ∧ words (sorted files) = u := by
  by_cases hu : u = []
  · exact ⟨[], List.nodup_nil, hu.symm⟩
  · exact ⟨[unwords u], List.nodup_singleton _, words_unwords hu⟩

theorem noTagInFiles_of_bound (h : d.Bound) : checkTag ∉ words d.profile.fingerprintFiles := by
  have hvalid := d.wellFormed
  intro hmem
  obtain ⟨u, v, hwords⟩ := List.append_of_mem (mem_words_sorted.mpr hmem)
  obtain ⟨files, hnodup, hfiles⟩ := exists_files u
  have hvisible : ∃ p ∈ v ++ words (checkFields d.profile.healthcheck), p.word ≠ [] := by
    cases d.profile.healthcheck with
    | none =>
      refine ⟨noCheckTag, List.mem_append_right v ?_, by decide⟩
      rw [words_checkFields_none]
      exact List.mem_singleton_self _
    | some check =>
      refine ⟨checkTag, List.mem_append_right v ?_, by decide⟩
      rw [words_checkFields_some]
      exact List.mem_cons_self
  obtain ⟨p, hp, hpne⟩ := hvisible
  have hnonempty := unwords_ne_empty hp hpne
  have hother : ∀ other ∈ some [unwords (v ++ words (checkFields d.profile.healthcheck))],
      other ≠ [] ∧ "" ∉ other := by
    rintro other ⟨⟩
    exact ⟨List.cons_ne_nil _ _, fun hempty => hnonempty (List.mem_singleton.mp hempty).symm⟩
  have hparts : words (sorted files ++
        checkFields (some [unwords (v ++ words (checkFields d.profile.healthcheck))])) =
      words (sorted d.profile.fingerprintFiles ++ checkFields d.profile.healthcheck) := by
    rw [words_append, words_append, words_checkFields_some,
      words_unwords (List.ne_nil_of_mem hp), hfiles, hwords, List.append_assoc]
    rfl
  have hsame := h.same_of_parts d.task
    { d.profile with
      fingerprintFiles := files
      healthcheck := some [unwords (v ++ words (checkFields d.profile.healthcheck))] }
    { hvalid with fingerprintFiles := hnodup, healthcheck := hother } rfl
    (by simp only [definitionParts, hparts])
  have hsorted := congrArg words (sorted_eq_of_perm hsame.fingerprintFiles)
  change words (sorted d.profile.fingerprintFiles) = words (sorted files) at hsorted
  rw [hwords, hfiles] at hsorted
  exact absurd (List.append_right_eq_self.mp hsorted) (List.cons_ne_nil _ _)

theorem noTagAtEnd_of_bound (h : d.Bound) {check : List String}
    (hsome : d.profile.healthcheck = some check) :
    (words check).getLast? ≠ some noCheckTag := by
  have hvalid := d.wellFormed
  intro hlast
  obtain ⟨u, hu⟩ := List.getLast?_eq_some_iff.mp hlast
  obtain ⟨files, hnodup, hfiles⟩ :=
    exists_files (words (sorted d.profile.fingerprintFiles) ++ checkTag :: u)
  have hparts : words (sorted files ++ checkFields none) =
      words (sorted d.profile.fingerprintFiles ++ checkFields d.profile.healthcheck) := by
    rw [hsome, words_append, words_append, words_checkFields_some, words_checkFields_none,
      hfiles, hu, List.append_assoc]
    rfl
  have hother : ∀ other ∈ (none : Option (List String)), other ≠ [] ∧ "" ∉ other := by
    intro other hmem
    cases hmem
  have hsame := h.same_of_parts d.task
    { d.profile with fingerprintFiles := files, healthcheck := none }
    { hvalid with fingerprintFiles := hnodup, healthcheck := hother } rfl
    (by simp only [definitionParts, hparts])
  have heq := hsame.healthcheck
  rw [hsome] at heq
  cases heq

theorem workingDirectory_of_bound (h : d.Bound) :
    ∃ dir, d.profile.workingDirectory = some dir ∧ dir ≠ "none" := by
  have hvalid := d.wellFormed
  -- a missing directory and one called `none` have the same text
  have hsame : ∀ dir, optionText id dir = optionText id d.profile.workingDirectory →
      d.profile.workingDirectory = dir := by
    intro dir hdir
    exact (h.same_of_parts d.task { d.profile with workingDirectory := dir }
      { hvalid with } rfl (by simp only [definitionParts, hdir])).workingDirectory
  cases hdir : d.profile.workingDirectory with
  | none =>
    have heq := hsame (some "none") (by rw [hdir]; rfl)
    rw [hdir] at heq
    cases heq
  | some dir =>
    refine ⟨dir, rfl, ?_⟩
    rintro rfl
    have heq := hsame none (by rw [hdir]; rfl)
    rw [hdir] at heq
    cases heq

theorem steady_of_bound (h : d.Bound) :
    Steady HeaderWords definitionSlots
      (headerOf d.manifest.projectId d.taskName d.task.profile)
      (definitionParts d.task d.profile) := by
  by_contra hsteady
  obtain ⟨x, parts, hreads, hspell, hne⟩ :=
    exists_reads_of_not_steady (reads_of_wellFormed d.wellFormed d.taskName) hsteady
  obtain ⟨projectId, taskName, task, profile, hvalid, rfl, rfl⟩ := wellFormed_of_reads hreads
  have hsame := h.same hvalid hspell.symm
  refine hne ?_
  simp only [definitionParts, List.map_cons, List.map_nil, hsame.command,
    sorted_eq_of_perm hsame.platforms, sorted_eq_of_perm hsame.outputs,
    sorted_eq_of_perm hsame.features, sorted_eq_of_perm hsame.targets, hsame.profileCommand,
    sorted_eq_of_perm hsame.fingerprintFiles, hsame.healthcheck, hsame.workingDirectory,
    hsame.timeoutSeconds]

theorem unambiguous_of_bound (h : d.Bound) : d.IsUnambiguous := by
  obtain ⟨hcommand, hplatforms, houtputs, hfeatures, htargets, hprofileCommand, hfiles⟩ :=
    undivided_lists_of_bound h
  exact
    { command := hcommand
      platforms := hplatforms
      outputs := houtputs
      features := hfeatures
      targets := htargets
      profileCommand := hprofileCommand
      fingerprintFiles := hfiles
      healthcheck := fun _ hsome => undivided_check_of_bound h hsome
      noTagInFiles := noTagInFiles_of_bound h
      noTagAtEnd := fun _ hsome => noTagAtEnd_of_bound h hsome
      workingDirectory := workingDirectory_of_bound h
      steady := steady_of_bound h }

end SelectedTask

end DevRelay.Core
