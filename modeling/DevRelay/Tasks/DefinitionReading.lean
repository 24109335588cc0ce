import DevRelay.Tasks.DefinitionWords

/-!
# The readings of a task definition's stream

The lists of a definition between its tags.  The well-formed definitions are exactly
the readings of their words.
-/

namespace DevRelay.Core

open DevRelay.Lib

/-- What the validation of a manifest says about a task and its profile. -/
structure WellFormed (projectId : String) (task : TaskConfig) (profile : EnvironmentProfile) :
    Prop where
  projectId : 8 ≤ projectId.utf8ByteSize
  profileName : task.profile ≠ ""
  taskCommand : task.command ≠ [] ∧ "" ∉ task.command
  platforms : "" ∉ task.platforms ∧ task.platforms.Nodup
  outputs : "" ∉ task.outputs ∧ task.outputs.Nodup
  features : "" ∉ task.features ∧ task.features.Nodup
  hints : ResourceHintsOk task.cpu task.memoryMib
  targets : (profile.targets ≠ [] ∧ "" ∉ profile.targets) ∧ profile.targets.Nodup
  profileCommand : profile.command ≠ [] ∧ "" ∉ profile.command
  fingerprintFiles : profile.fingerprintFiles.Nodup
  healthcheck : ∀ check ∈ profile.healthcheck, check ≠ [] ∧ "" ∉ check

/-! ## The texts between the tags -/

def HeaderWords (x : List Word) : Prop :=
  ∃ projectId taskName profileName : String, 8 ≤ projectId.utf8ByteSize ∧
    profileName ≠ "" ∧
    x = words ["devrelay.task-command.v1", projectId, taskName, profileName]

/-- The words of a command. -/
def CommandWords (x : List Word) : Prop :=
  ∃ values : List String, (values ≠ [] ∧ "" ∉ values) ∧ x = words values

/-- The words of an optional list. -/
def ValueWords (x : List Word) : Prop :=
  ∃ values : List String, ("" ∉ values ∧ values.Nodup) ∧ x = words (sorted values)

def TargetWords (x : List Word) : Prop :=
  ∃ values : List String, ((values ≠ [] ∧ "" ∉ values) ∧ values.Nodup) ∧
    x = words (sorted values)

/-- The words of the fingerprint files and of the health check. -/
def FileWords (x : List Word) : Prop :=
  ∃ (files : List String) (healthcheck : Option (List String)), files.Nodup ∧
    (∀ check ∈ healthcheck, check ≠ [] ∧ "" ∉ check) ∧
    x = words (sorted files ++ checkFields healthcheck)

/-- The words after the tag of the working directory. -/
def EndWords (x : List Word) : Prop :=
  ∃ (workingDirectory : Option String) (timeoutSeconds : Option UInt64),
    x = words [optionText id workingDirectory, "profile.timeout_seconds",
      optionText toString timeoutSeconds]

/-! ## The separators -/

theorem wordFields_hintFields (task : TaskConfig) : WordFields (hintFields task) := by
  intro f hf
  simp only [hintFields, List.mem_cons, List.not_mem_nil, or_false] at hf
  rcases hf with rfl | rfl | rfl | rfl | rfl | rfl | rfl | rfl | rfl | rfl | rfl
  · decide
  · exact (rendered_u64 task.cpu).1
  · decide
  · exact (rendered_u64 task.memoryMib).1
  · decide
  · exact (rendered_u64 task.diskMib).1
  · decide
  · exact (rendered_interactive task.interactive).1
  · decide
  · exact (rendered_cache task.cache).1
  · decide

theorem wordFields_kindFields (sandbox : Option TaskSandbox) (kind : EnvironmentKind) :
    WordFields (kindFields sandbox kind) := by
  intro f hf
  simp only [kindFields, List.mem_cons, List.not_mem_nil, or_false] at hf
  rcases hf with rfl | rfl | rfl | rfl | rfl
  · decide
  · exact (rendered_sandbox sandbox).1
  · decide
  · exact (rendered_kind kind).1
  · decide

/-- The separators that start with the field `tag`: the texts of some lists of fields of one
length, in which the tag comes first and not again. -/
def fieldSeparator (tag : String) (htag : '\x00' ∉ tag.toList) (size : ℕ)
    (Tail : List String → Prop) (htail : ∀ fields, Tail fields →
      WordFields fields ∧ fields.length = size ∧ tag ∉ fields) : Separator Word :=
  Separator.tagged ⟨tag.toList, htag⟩ size (fun r => ∃ fields, Tail fields ∧ r = words fields)
    (by
      rintro r ⟨fields, hfields, rfl⟩
      rw [length_words (htail fields hfields).1, (htail fields hfields).2.1])
    (by
      rintro r ⟨fields, hfields, rfl⟩ hmem
      obtain ⟨f, hf, heq⟩ := mem_words (htail fields hfields).1 hmem
      change tag.toList = f.toList at heq
      rw [String.toList_inj.mp heq] at htail
      exact (htail fields hfields).2.2 hf)

theorem fieldSeparator_is {tag : String} {htag : '\x00' ∉ tag.toList} {size : ℕ}
    {Tail : List String → Prop} {htail : ∀ fields, Tail fields →
      WordFields fields ∧ fields.length = size ∧ tag ∉ fields} {s : List Word} :
    (fieldSeparator tag htag size Tail htail).Is s ↔
      ∃ fields, Tail fields ∧ s = words (tag :: fields) := by
  constructor
  · rintro ⟨r, ⟨fields, hfields, rfl⟩, rfl⟩
    refine ⟨fields, hfields, ?_⟩
    rw [words_cons, words_of_notMem htag]
    rfl
  · rintro ⟨fields, hfields, rfl⟩
    refine ⟨words fields, ⟨fields, hfields, rfl⟩, ?_⟩
    rw [words_cons, words_of_notMem htag]
    rfl

/-- A single tag. -/
def tagSeparator (tag : String) (htag : '\x00' ∉ tag.toList) : Separator Word :=
  fieldSeparator tag htag 0 (fun fields => fields = []) (by
    rintro fields rfl
    exact ⟨fun f hf => absurd hf List.not_mem_nil, rfl, List.not_mem_nil⟩)

theorem tagSeparator_is {tag : String} {htag : '\x00' ∉ tag.toList} {s : List Word} :
    (tagSeparator tag htag).Is s ↔ s = words [tag] := by
  rw [tagSeparator, fieldSeparator_is]
  constructor
  · rintro ⟨fields, rfl, hs⟩
    exact hs
  · intro hs
    exact ⟨[], rfl, hs⟩

/-- The resource hints, the interactivity and the cache mode, with their tags. -/
def hintSeparator : Separator Word :=
  fieldSeparator "task.cpu" (by decide) 10
    (fun fields => ∃ task : TaskConfig, ResourceHintsOk task.cpu task.memoryMib ∧
      fields = (hintFields task).tail) (by
    rintro fields ⟨task, -, rfl⟩
    refine ⟨fun f hf => wordFields_hintFields task f (List.mem_of_mem_tail hf), rfl, ?_⟩
    intro hmem
    simp only [hintFields, List.tail_cons, List.mem_cons, List.not_mem_nil, or_false] at hmem
    have hdot : '.' ∈ "task.cpu".toList := by decide
    rcases hmem with h | h | h | h | h | h | h | h | h | h
    · exact (rendered_u64 task.cpu).2 (h ▸ hdot)
    · exact absurd h (by decide)
    · exact (rendered_u64 task.memoryMib).2 (h ▸ hdot)
    · exact absurd h (by decide)
    · exact (rendered_u64 task.diskMib).2 (h ▸ hdot)
    · exact absurd h (by decide)
    · exact (rendered_interactive task.interactive).2 (h ▸ hdot)
    · exact absurd h (by decide)
    · exact (rendered_cache task.cache).2 (h ▸ hdot)
    · exact absurd h (by decide))

theorem hintSeparator_is {s : List Word} :
    hintSeparator.Is s ↔ ∃ task : TaskConfig, ResourceHintsOk task.cpu task.memoryMib ∧
      s = words (hintFields task) := by
  rw [hintSeparator, fieldSeparator_is]
  constructor
  · rintro ⟨fields, ⟨task, htask, rfl⟩, hs⟩
    exact ⟨task, htask, hs⟩
  · rintro ⟨task, htask, hs⟩
    exact ⟨_, ⟨task, htask, rfl⟩, hs⟩

/-- The sandbox and the kind of the profile, with their tags. -/
def kindSeparator : Separator Word :=
  fieldSeparator "task.sandbox" (by decide) 4
    (fun fields => ∃ sandbox kind, fields = (kindFields sandbox kind).tail) (by
    rintro fields ⟨sandbox, kind, rfl⟩
    refine ⟨fun f hf => wordFields_kindFields sandbox kind f (List.mem_of_mem_tail hf), rfl, ?_⟩
    intro hmem
    simp only [kindFields, List.tail_cons, List.mem_cons, List.not_mem_nil, or_false] at hmem
    have hdot : '.' ∈ "task.sandbox".toList := by decide
    rcases hmem with h | h | h | h
    · exact (rendered_sandbox sandbox).2 (h ▸ hdot)
    · exact absurd h (by decide)
    · exact (rendered_kind kind).2 (h ▸ hdot)
    · exact absurd h (by decide))

theorem kindSeparator_is {s : List Word} :
    kindSeparator.Is s ↔ ∃ sandbox kind, s = words (kindFields sandbox kind) := by
  rw [kindSeparator, fieldSeparator_is]
  constructor
  · rintro ⟨fields, ⟨sandbox, kind, rfl⟩, hs⟩
    exact ⟨sandbox, kind, hs⟩
  · rintro ⟨sandbox, kind, hs⟩
    exact ⟨_, ⟨sandbox, kind, rfl⟩, hs⟩

/-! ## The slots -/

theorem mem_words_cons {tag : String} (htag : '\x00' ∉ tag.toList) (fields : List String) :
    ⟨tag.toList, htag⟩ ∈ words (tag :: fields) := by
  rw [words_cons, words_of_notMem htag]
  exact List.mem_cons_self

theorem mem_of_tag {tag : String} {htag : '\x00' ∉ tag.toList} (s : List Word)
    (hs : (tagSeparator tag htag).Is s) : ⟨tag.toList, htag⟩ ∈ s := by
  rw [tagSeparator_is.mp hs]
  exact mem_words_cons htag []

theorem mem_of_hints (s : List Word) (hs : hintSeparator.Is s) :
    ⟨"task.cpu".toList, by decide⟩ ∈ s := by
  obtain ⟨task, -, rfl⟩ := hintSeparator_is.mp hs
  exact mem_words_cons _ _

theorem mem_of_kind (s : List Word) (hs : kindSeparator.Is s) :
    ⟨"task.sandbox".toList, by decide⟩ ∈ s := by
  obtain ⟨sandbox, kind, rfl⟩ := kindSeparator_is.mp hs
  exact mem_words_cons _ _

/-- A text with a word that is not empty. -/
def Visible (s : List Word) : Prop := ∃ p ∈ s, p.word ≠ []

/-- Such a text is the text of one value, whatever stands around it. -/
theorem exists_value_around {s : List Word} (hs : Visible s) (w x : List Word) :
    ∃ v, v ≠ "" ∧ words [v] = w ++ (s ++ x) := by
  obtain ⟨p, hp, hne⟩ := hs
  have hmem : p ∈ w ++ (s ++ x) := List.mem_append_right w (List.mem_append_left x hp)
  exact ⟨unwords _, unwords_ne_empty hmem hne, words_unwords (List.ne_nil_of_mem hmem)⟩

/-- A separator that starts with a tag and the list after it. -/
def visibleSlot (sep : Separator Word) (V : List Word → Prop) (hsep : ∀ s, sep.Is s → Visible s)
    (habsorb : ∀ w s x, Visible s → V x → V (w ++ (s ++ x))) : Slot Word where
  sep := sep
  Valid := V
  absorbs w s x hs hx := habsorb w s x (hsep s hs) hx

theorem visible_of_tag {tag : String} {htag : '\x00' ∉ tag.toList} (hne : tag.toList ≠ [])
    (s : List Word) (hs : (tagSeparator tag htag).Is s) : Visible s :=
  ⟨_, mem_of_tag s hs, hne⟩

theorem visible_of_hints (s : List Word) (hs : hintSeparator.Is s) : Visible s :=
  ⟨_, mem_of_hints s hs, by decide⟩

theorem visible_of_kind (s : List Word) (hs : kindSeparator.Is s) : Visible s :=
  ⟨_, mem_of_kind s hs, by decide⟩

theorem commandWords_absorbs (w s x : List Word) (hs : Visible s) (_ : CommandWords x) :
    CommandWords (w ++ (s ++ x)) := by
  obtain ⟨v, hv, hwords⟩ := exists_value_around hs w x
  exact ⟨[v], ⟨List.cons_ne_nil v [], by simpa using hv.symm⟩, hwords.symm⟩

theorem valueWords_absorbs (w s x : List Word) (hs : Visible s) (_ : ValueWords x) :
    ValueWords (w ++ (s ++ x)) := by
  obtain ⟨v, hv, hwords⟩ := exists_value_around hs w x
  exact ⟨[v], ⟨by simpa using hv.symm, List.nodup_singleton v⟩, hwords.symm⟩

theorem targetWords_absorbs (w s x : List Word) (hs : Visible s) (_ : TargetWords x) :
    TargetWords (w ++ (s ++ x)) := by
  obtain ⟨v, hv, hwords⟩ := exists_value_around hs w x
  exact ⟨[v], ⟨⟨List.cons_ne_nil v [], by simpa using hv.symm⟩, List.nodup_singleton v⟩,
    hwords.symm⟩

theorem fileWords_absorbs (w s x : List Word) (hs : Visible s) (hx : FileWords x) :
    FileWords (w ++ (s ++ x)) := by
  obtain ⟨files, healthcheck, -, hcheck, rfl⟩ := hx
  obtain ⟨v, -, hwords⟩ := exists_value_around hs w (words (sorted files))
  refine ⟨[v], healthcheck, List.nodup_singleton v, hcheck, ?_⟩
  rw [sorted_singleton, words_append, words_append, hwords]
  simp only [List.append_assoc]

theorem endWords_absorbs (w s x : List Word) (hs : Visible s) (hx : EndWords x) :
    EndWords (w ++ (s ++ x)) := by
  obtain ⟨workingDirectory, timeoutSeconds, rfl⟩ := hx
  obtain ⟨v, -, hwords⟩ :=
    exists_value_around hs w (words [optionText id workingDirectory])
  refine ⟨some v, timeoutSeconds, ?_⟩
  rw [words_cons (optionText id workingDirectory), words_cons (optionText id (some v))]
  change _ = words [v] ++ _
  rw [hwords]
  simp only [List.append_assoc]

/-- The separators of a definition with the lists after them. -/
def definitionSlots : List (Slot Word) :=
  [visibleSlot (tagSeparator "task.command" (by decide)) CommandWords
      (visible_of_tag (by decide)) commandWords_absorbs,
    visibleSlot (tagSeparator "task.platforms" (by decide)) ValueWords
      (visible_of_tag (by decide)) valueWords_absorbs,
    visibleSlot hintSeparator ValueWords visible_of_hints valueWords_absorbs,
    visibleSlot (tagSeparator "task.features" (by decide)) ValueWords
      (visible_of_tag (by decide)) valueWords_absorbs,
    visibleSlot kindSeparator TargetWords visible_of_kind targetWords_absorbs,
    visibleSlot (tagSeparator "profile.command" (by decide)) CommandWords
      (visible_of_tag (by decide)) commandWords_absorbs,
    visibleSlot (tagSeparator "profile.fingerprint_files" (by decide)) FileWords
      (visible_of_tag (by decide)) fileWords_absorbs,
    visibleSlot (tagSeparator "profile.working_directory" (by decide)) EndWords
      (visible_of_tag (by decide)) endWords_absorbs]

/-- The tags with which the separators start. -/
def definitionTags : List Word :=
  [⟨"task.command".toList, by decide⟩, ⟨"task.platforms".toList, by decide⟩,
    ⟨"task.cpu".toList, by decide⟩, ⟨"task.features".toList, by decide⟩,
    ⟨"task.sandbox".toList, by decide⟩, ⟨"profile.command".toList, by decide⟩,
    ⟨"profile.fingerprint_files".toList, by decide⟩,
    ⟨"profile.working_directory".toList, by decide⟩]

/-! ## Definitions as readings -/

def headerOf (projectId taskName profileName : String) : List Word :=
  words ["devrelay.task-command.v1", projectId, taskName, profileName]

/-- The separators of a definition and its lists. -/
def definitionParts (task : TaskConfig) (profile : EnvironmentProfile) :
    List (List Word × List Word) :=
  [(words ["task.command"], words task.command),
    (words ["task.platforms"], words (sorted task.platforms)),
    (words (hintFields task), words (sorted task.outputs)),
    (words ["task.features"], words (sorted task.features)),
    (words (kindFields task.sandbox profile.kind), words (sorted profile.targets)),
    (words ["profile.command"], words profile.command),
    (words ["profile.fingerprint_files"],
      words (sorted profile.fingerprintFiles ++ checkFields profile.healthcheck)),
    (words ["profile.working_directory"],
      words [optionText id profile.workingDirectory, "profile.timeout_seconds",
        optionText toString profile.timeoutSeconds])]

theorem spell_definitionParts (projectId taskName : String) (task : TaskConfig)
    (profile : EnvironmentProfile) :
    spell (headerOf projectId taskName task.profile) (definitionParts task profile) =
      words (definitionFields projectId taskName task profile) := by
  unfold definitionFields
  simp only [words_append, spell, definitionParts, headerOf]

variable {projectId : String} {task : TaskConfig} {profile : EnvironmentProfile}

theorem reads_of_wellFormed (h : WellFormed projectId task profile) (taskName : String) :
    Reads HeaderWords definitionSlots (headerOf projectId taskName task.profile)
      (definitionParts task profile) := by
  refine ⟨⟨projectId, taskName, task.profile, h.projectId, h.profileName, rfl⟩,
    tagSeparator_is.mpr rfl, ⟨task.command, h.taskCommand, rfl⟩,
    tagSeparator_is.mpr rfl, ⟨task.platforms, h.platforms, rfl⟩,
    hintSeparator_is.mpr ⟨task, h.hints, rfl⟩, ⟨task.outputs, h.outputs, rfl⟩,
    tagSeparator_is.mpr rfl, ⟨task.features, h.features, rfl⟩,
    kindSeparator_is.mpr ⟨task.sandbox, profile.kind, rfl⟩, ⟨profile.targets, h.targets, rfl⟩,
    tagSeparator_is.mpr rfl, ⟨profile.command, h.profileCommand, rfl⟩,
    tagSeparator_is.mpr rfl,
    ⟨profile.fingerprintFiles, profile.healthcheck, h.fingerprintFiles, h.healthcheck, rfl⟩,
    tagSeparator_is.mpr rfl, profile.workingDirectory, profile.timeoutSeconds, rfl⟩

/-- Every reading is the reading of a well-formed definition. -/
theorem wellFormed_of_reads {x : List Word} {parts : List (List Word × List Word)}
    (h : Reads HeaderWords definitionSlots x parts) :
    ∃ projectId taskName task profile, WellFormed projectId task profile ∧
      x = headerOf projectId taskName task.profile ∧ parts = definitionParts task profile := by
  obtain ⟨s₁, x₁, parts, rfl, ⟨projectId, taskName, profileName, hid, hname, hx⟩, hs₁, h⟩ :=
    h.of_cons
  obtain ⟨s₂, x₂, parts, rfl, ⟨command, hcommand, hx₁⟩, hs₂, h⟩ := h.of_cons
  obtain ⟨s₃, x₃, parts, rfl, ⟨platforms, hplatforms, hx₂⟩, hs₃, h⟩ := h.of_cons
  obtain ⟨s₄, x₄, parts, rfl, ⟨outputs, houtputs, hx₃⟩, hs₄, h⟩ := h.of_cons
  obtain ⟨s₅, x₅, parts, rfl, ⟨features, hfeatures, hx₄⟩, hs₅, h⟩ := h.of_cons
  obtain ⟨s₆, x₆, parts, rfl, ⟨targets, htargets, hx₅⟩, hs₆, h⟩ := h.of_cons
  obtain ⟨s₇, x₇, parts, rfl, ⟨profileCommand, hprofileCommand, hx₆⟩, hs₇, h⟩ := h.of_cons
  obtain ⟨s₈, x₈, parts, rfl, ⟨files, healthcheck, hfiles, hcheck, hx₇⟩, hs₈, h⟩ := h.of_cons
  obtain ⟨⟨workingDirectory, timeoutSeconds, hx₈⟩, rfl⟩ := h.of_nil
  obtain ⟨hinted, hhints, hs₃⟩ := hintSeparator_is.mp hs₃
  obtain ⟨sandbox, kind, hs₅⟩ := kindSeparator_is.mp hs₅
  refine ⟨projectId, taskName, { hinted with
      profile := profileName
      command := command
      platforms := platforms
      outputs := outputs
      features := features
      sandbox := sandbox },
    { kind := kind
      targets := targets
      command := profileCommand
      fingerprintFiles := files
      healthcheck := healthcheck
      workingDirectory := workingDirectory
      timeoutSeconds := timeoutSeconds },
    ⟨hid, hname, hcommand, hplatforms, houtputs, hfeatures, hhints, htargets,
      hprofileCommand, hfiles, hcheck⟩, hx, ?_⟩
  rw [tagSeparator_is.mp hs₁, tagSeparator_is.mp hs₂, hs₃, tagSeparator_is.mp hs₄, hs₅,
    tagSeparator_is.mp hs₆, tagSeparator_is.mp hs₇, tagSeparator_is.mp hs₈,
    hx₁, hx₂, hx₃, hx₄, hx₅, hx₆, hx₇, hx₈]
  rfl

end DevRelay.Core
