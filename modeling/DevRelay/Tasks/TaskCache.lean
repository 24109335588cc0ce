import DevRelay.Core.SnapshotSchema
import DevRelay.Tasks.DefinitionBinding

/-!
# The task result cache

Keys, entries and lookups of `task_cache.rs`.  A key is made of the definition hash and
of the inputs of an execution; a lookup gives an entry only when it was stored under
the same parts.  So a result can only be shared by definitions with the same hash.
-/

namespace DevRelay.Core

open DevRelay.Lib

structure TaskResultCacheSidecarInput where
  logicalPath : String
  fileMode : String
  classification : String
  sizeBytes : UInt64
  chunkSizeBytes : UInt64
  rootHash : String
  casManifestId : String
  deriving DecidableEq

structure TaskResultCacheKeyParts where
  schema : String
  projectId : String
  taskName : String
  commandDefinitionHash : String
  platformKey : String
  environmentFingerprint : String
  inputStateHash : String
  inputHeadOid : String
  inputIndexTreeOid : String
  inputWorkTreeOid : String
  sidecars : List TaskResultCacheSidecarInput
  outputs : List String
  deriving DecidableEq

structure TaskResultCacheKey where
  key : String
  parts : TaskResultCacheKeyParts
  deriving DecidableEq

structure TaskResultCacheEligibility where
  read : Bool
  write : Bool

/-- The fields of an artifact index that the cache reads. -/
structure TaskArtifactIndex where
  taskRunId : String
  projectId : String
  taskName : String
  platformKey : String
  commandDefinitionHash : String
  deriving DecidableEq

structure TaskResultCacheEntry where
  key : String
  keyParts : TaskResultCacheKeyParts
  projectId : String
  taskName : String
  taskRunId : String
  artifactIndex : TaskArtifactIndex
  createdAtUnixSeconds : UInt64
  deriving DecidableEq

structure TaskExecutionSnapshot where
  definition : TaskDefinition
  metadata : SnapshotMetadata

/-- The JSON writer and reader of the cache's records, and the digest. -/
structure CacheFormat where
  blake3 : Blake3
  partsToVec : TaskResultCacheKeyParts → ByteArray
  entryToVecPretty : TaskResultCacheEntry → String
  entryFromStr : String → Except String TaskResultCacheEntry

/-- The files below the home, by their paths. -/
abbrev CacheFiles : Type := SortedMap String String

variable (format : CacheFormat)

def validateNonEmpty (field value : String) : Except DevRelayError Unit :=
  require (!value.toList.all isSpace)
    (.config ("task result cache " ++ field ++ " must not be empty"))

def hashCacheKeyParts (parts : TaskResultCacheKeyParts) : String :=
  "tc_" ++ String.ofList ((format.blake3.hex (format.partsToVec parts)).toList.take 32)

def sidecarInput (sidecar : SnapshotSidecar) : TaskResultCacheSidecarInput where
  logicalPath := sidecar.logicalPath
  fileMode := sidecar.fileMode
  classification := sidecar.classification
  sizeBytes := sidecar.sizeBytes
  chunkSizeBytes := sidecar.chunkSizeBytes
  rootHash := sidecar.rootHash
  casManifestId := sidecar.casManifestId

/-- The order of the sidecars in a key. -/
def sidecarLe (left right : TaskResultCacheSidecarInput) : Prop :=
  left.logicalPath < right.logicalPath ∨
    (left.logicalPath = right.logicalPath ∧ left.casManifestId ≤ right.casManifestId)

instance (left right : TaskResultCacheSidecarInput) : Decidable (sidecarLe left right) :=
  inferInstanceAs (Decidable (_ ∨ _))

def taskResultCacheKey (execution : TaskExecutionSnapshot)
    (platformKey environmentFingerprint : String) :
    Except DevRelayError TaskResultCacheKey := do
  validateNonEmpty "platform_key" platformKey
  validateNonEmpty "environment_fingerprint" environmentFingerprint
  execution.metadata.validate
  let parts : TaskResultCacheKeyParts :=
    { schema := "devrelay.task-result-cache.v1"
      projectId := execution.definition.projectId
      taskName := execution.definition.taskName
      commandDefinitionHash := execution.definition.commandDefinitionHash
      platformKey := platformKey
      environmentFingerprint := environmentFingerprint
      inputStateHash := execution.metadata.stateHash
      inputHeadOid := execution.metadata.headOid
      inputIndexTreeOid := execution.metadata.indexTreeOid
      inputWorkTreeOid := execution.metadata.workTreeOid
      sidecars := (execution.metadata.sidecars.map sidecarInput).insertionSort sidecarLe
      outputs := execution.definition.outputs }
  return { key := hashCacheKeyParts format parts, parts := parts }

def validateTaskResultCacheKey (key : String) : Except DevRelayError Unit :=
  match "tc_".toList.isPrefixOf? key.toList with
  | none => .error (.config ("invalid task result cache key " ++ debugString key))
  | some hex =>
    require (hex.length = 32 && hex.all isAsciiHexdigit)
      (.config ("invalid task result cache key " ++ debugString key))

/-- `projectDataDir` is the directory of a project below the home. -/
def taskResultCacheEntryPath (projectDataDir : String → String) (projectId key : String) :
    Except DevRelayError String := do
  validateTaskResultCacheKey key
  return projectDataDir projectId ++ "/task-result-cache/" ++ key ++ ".json"

/-- The loop over `(field, actual, expected)`. -/
def requireMatches : List (String × String × String) → Except DevRelayError Unit :=
  checkEach fun entry =>
    require (entry.2.1 = entry.2.2)
      (.config ("task result cache artifact index " ++ entry.1 ++ " " ++
        debugString entry.2.1 ++ " does not match key " ++ debugString entry.2.2))

def validateCacheResultMatchesKey (key : TaskResultCacheKey)
    (artifactIndex : TaskArtifactIndex) : Except DevRelayError Unit :=
  requireMatches [
    ("project_id", artifactIndex.projectId, key.parts.projectId),
    ("task_name", artifactIndex.taskName, key.parts.taskName),
    ("platform_key", artifactIndex.platformKey, key.parts.platformKey),
    ("command_definition_hash", artifactIndex.commandDefinitionHash,
      key.parts.commandDefinitionHash)]

/-- The entry that is stored, and the files with it. -/
def storeTaskResultCache (projectDataDir : String → String) (files : CacheFiles)
    (key : TaskResultCacheKey) (artifactIndex : TaskArtifactIndex)
    (eligibility : TaskResultCacheEligibility) (now : UInt64) :
    Except DevRelayError (Option TaskResultCacheEntry × CacheFiles) := do
  if !eligibility.write then
    return (none, files)
  validateCacheResultMatchesKey key artifactIndex
  let path ← taskResultCacheEntryPath projectDataDir key.parts.projectId key.key
  let entry : TaskResultCacheEntry :=
    { key := key.key
      keyParts := key.parts
      projectId := key.parts.projectId
      taskName := key.parts.taskName
      taskRunId := artifactIndex.taskRunId
      artifactIndex := artifactIndex
      createdAtUnixSeconds := now }
  return (some entry, files.insert path (format.entryToVecPretty entry))

def lookupTaskResultCache (projectDataDir : String → String) (files : CacheFiles)
    (key : TaskResultCacheKey) (eligibility : TaskResultCacheEligibility) :
    Except DevRelayError (Option TaskResultCacheEntry) := do
  if !eligibility.read then
    return none
  let path ← taskResultCacheEntryPath projectDataDir key.parts.projectId key.key
  match files.find? path with
  | none => return none
  | some raw =>
    match format.entryFromStr raw with
    | .error err => throw (.json err)
    | .ok entry =>
      if entry.key ≠ key.key ∨ entry.keyParts ≠ key.parts then
        throw (.config ("task result cache entry " ++ key.key ++
          " does not match requested key"))
      validateCacheResultMatchesKey key entry.artifactIndex
      return some entry

variable {format}

/-! ## What a key and an entry are made of -/

theorem key_of_taskResultCacheKey {execution : TaskExecutionSnapshot}
    {platformKey environmentFingerprint : String} {key : TaskResultCacheKey}
    (h : taskResultCacheKey format execution platformKey environmentFingerprint = .ok key) :
    key.parts.commandDefinitionHash = execution.definition.commandDefinitionHash := by
  unfold taskResultCacheKey at h
  obtain ⟨-, -, h⟩ := bind_eq_ok_iff.mp h
  obtain ⟨-, -, h⟩ := bind_eq_ok_iff.mp h
  obtain ⟨-, -, h⟩ := bind_eq_ok_iff.mp h
  cases h
  rfl

theorem keyParts_of_store {projectDataDir : String → String} {files files' : CacheFiles}
    {key : TaskResultCacheKey} {artifactIndex : TaskArtifactIndex}
    {eligibility : TaskResultCacheEligibility} {now : UInt64} {entry : TaskResultCacheEntry}
    (h : storeTaskResultCache format projectDataDir files key artifactIndex eligibility now =
      .ok (some entry, files')) : entry.keyParts = key.parts := by
  unfold storeTaskResultCache at h
  split at h
  · cases h
  · obtain ⟨-, -, h⟩ := bind_eq_ok_iff.mp h
    obtain ⟨path, -, h⟩ := bind_eq_ok_iff.mp h
    cases h
    rfl

/-- A hit is an entry that was stored under the parts of the key. -/
theorem keyParts_of_lookup {projectDataDir : String → String} {files : CacheFiles}
    {key : TaskResultCacheKey} {eligibility : TaskResultCacheEligibility}
    {entry : TaskResultCacheEntry}
    (h : lookupTaskResultCache format projectDataDir files key eligibility =
      .ok (some entry)) : entry.keyParts = key.parts := by
  unfold lookupTaskResultCache at h
  split at h
  · cases h
  · obtain ⟨path, -, h⟩ := bind_eq_ok_iff.mp h
    split at h
    · cases h
    · rename_i raw _
      split at h
      · cases h
      · rename_i found _
        split at h
        · cases h
        · rename_i hmatch
          obtain ⟨-, -, h⟩ := bind_eq_ok_iff.mp h
          cases h
          push Not at hmatch
          exact hmatch.2

/-! ## Results of other tasks -/

/-- The key of an execution of the task. -/
def SelectedTask.HasKey (format : CacheFormat) (d : SelectedTask) (key : TaskResultCacheKey) :
    Prop :=
  ∃ definition metadata platformKey environmentFingerprint,
    taskDefinition format.blake3 d.manifest d.taskName = .ok definition ∧
      taskResultCacheKey format ⟨definition, metadata⟩ platformKey environmentFingerprint =
        .ok key

/-- No lookup for the one task gives an entry that was stored for the other. -/
def NeverShared (format : CacheFormat) (d d' : SelectedTask) : Prop :=
  ∀ (projectDataDir : String → String) (key key' : TaskResultCacheKey)
    (artifactIndex : TaskArtifactIndex) (eligibility eligibility' : TaskResultCacheEligibility)
    (before after files : CacheFiles) (now : UInt64) (stored hit : TaskResultCacheEntry),
    d.HasKey format key → d'.HasKey format key' →
    storeTaskResultCache format projectDataDir before key' artifactIndex eligibility' now =
      .ok (some stored, after) →
    lookupTaskResultCache format projectDataDir files key eligibility = .ok (some hit) →
    hit ≠ stored

theorem taskDefinition_hash {blake3 : Blake3} {d : SelectedTask} {definition : TaskDefinition}
    (h : taskDefinition blake3 d.manifest d.taskName = .ok definition) :
    definition.commandDefinitionHash = blake3.hex d.stream := by
  unfold taskDefinition at h
  rw [d.found] at h
  obtain ⟨profile, hprofile, h⟩ := bind_eq_ok_iff.mp h
  rw [d.selected] at hprofile
  cases hprofile
  cases h
  rfl

theorem hash_of_hasKey {format : CacheFormat} {d : SelectedTask} {key : TaskResultCacheKey}
    (h : d.HasKey format key) :
    key.parts.commandDefinitionHash = format.blake3.hex d.stream := by
  obtain ⟨definition, metadata, platformKey, environmentFingerprint, hdefinition, hkey⟩ := h
  rw [key_of_taskResultCacheKey hkey, taskDefinition_hash hdefinition]

/-- Tasks with different streams share no result when the hash does not confuse them. -/
theorem neverShared_of_stream_ne {format : CacheFormat} {d d' : SelectedTask}
    (hfree : format.blake3.hex d.stream = format.blake3.hex d'.stream → d.stream = d'.stream)
    (hne : d.stream ≠ d'.stream) : NeverShared format d d' := by
  rintro projectDataDir key key' artifactIndex eligibility eligibility' before after files now
    stored hit hkey hkey' hstore hlookup rfl
  have hparts : key.parts = key'.parts := by
    rw [← keyParts_of_lookup hlookup, keyParts_of_store hstore]
  refine hne (hfree ?_)
  rw [← hash_of_hasKey hkey, ← hash_of_hasKey hkey', hparts]

/-- Every other definition feeds other bytes, and so shares no result, exactly when the
definition is unambiguous. -/
theorem definition_separated_iff (d : SelectedTask) :
    (∀ d' : SelectedTask, ¬SameDefinition d.task d.profile d'.task d'.profile →
      d.stream ≠ d'.stream ∧ ∀ format : CacheFormat,
        (format.blake3.hex d.stream = format.blake3.hex d'.stream → d.stream = d'.stream) →
          NeverShared format d d') ↔ d.IsUnambiguous := by
  constructor
  · intro h
    exact SelectedTask.unambiguous_of_bound fun d' hdiffer => (h d' hdiffer).1
  · intro h d' hdiffer
    have hne := SelectedTask.bound_of_unambiguous h d' hdiffer
    exact ⟨hne, fun format hfree => neverShared_of_stream_ne hfree hne⟩

/-- A manifest with one task and the given working directory of its profile. -/
def directoryManifest (dir : Option String) : Manifest :=
  { Manifest.singleProfile ["run"] none with
    environment := some ⟨.singleton "dev"
      { kind := .script, targets := ["local"], command := ["run"], workingDirectory := dir }⟩
    tasks := .singleton "build" { profile := "dev", command := ["make"] } }

theorem directoryManifest_valid (dir : Option String) :
    (directoryManifest dir).validate = .ok () := rfl

def directoryTask (dir : Option String) : SelectedTask where
  manifest := directoryManifest dir
  valid := directoryManifest_valid dir
  taskName := "build"
  task := { profile := "dev", command := ["make"] }
  profile := { kind := .script, targets := ["local"], command := ["run"],
               workingDirectory := dir }
  found := rfl
  selected := rfl

example : (directoryTask (some "src")).IsUnambiguous where
  command := undivided_of_notMem (by decide) (by decide)
  platforms := undivided_of_notMem (by decide) (by decide)
  outputs := undivided_of_notMem (by decide) (by decide)
  features := undivided_of_notMem (by decide) (by decide)
  targets := undivided_of_notMem (by decide) (by decide)
  profileCommand := undivided_of_notMem (by decide) (by decide)
  fingerprintFiles := undivided_of_notMem (by decide) (by decide)
  healthcheck := by
    intro check hsome
    cases hsome
  noTagInFiles := by decide
  noTagAtEnd := by
    intro check hsome
    cases hsome
  workingDirectory := ⟨"src", rfl, by decide⟩
  steady := steady_of_tags_notMem (directoryTask (some "src")).wellFormed (by decide) (by decide)

/-- A working directory called `none` and a missing one: the same bytes, and so the same
keys. -/
theorem missing_directory_shares_results :
    ¬SameDefinition (directoryTask none).task (directoryTask none).profile
        (directoryTask (some "none")).task (directoryTask (some "none")).profile ∧
      (directoryTask none).stream = (directoryTask (some "none")).stream ∧
      ∀ (format : CacheFormat) (key : TaskResultCacheKey),
        (directoryTask none).HasKey format key ↔
          (directoryTask (some "none")).HasKey format key := by
  have hstream : (directoryTask none).stream = (directoryTask (some "none")).stream :=
    SelectedTask.stream_eq_iff.mpr rfl
  have hdefinition : ∀ blake3 : Blake3,
      taskDefinition blake3 (directoryTask none).manifest (directoryTask none).taskName =
        taskDefinition blake3 (directoryTask (some "none")).manifest
          (directoryTask (some "none")).taskName := fun _ => rfl
  refine ⟨fun hsame => ?_, hstream, fun format key => ?_⟩
  · cases hsame.workingDirectory
  · unfold SelectedTask.HasKey
    rw [hdefinition]

end DevRelay.Core
