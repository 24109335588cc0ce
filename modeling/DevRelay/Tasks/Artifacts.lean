import DevRelay.Lib.TextBytes
import DevRelay.Lib.NamedTree
import DevRelay.Lib.UnixPath
import DevRelay.Tasks.TaskCache
import DevRelay.Upload.SelfRepair

/-!
# Task artifacts

`task_artifacts.rs`: the files of a runner workspace that an output pattern matches are put
into the content-addressed store, and an index of them is sorted by path.  The path of a file
is read as text for the index, and its backslashes are made slashes; the text is a path again
when the artifact is pulled.
-/

namespace DevRelay.Artifacts

open DevRelay.Lib DevRelay.Core DevRelay.Upload

/-! ## The workspace -/

/-- The names that a file system admits. -/
def isFileName (bytes : List UInt8) : Bool :=
  !bytes.isEmpty && bytes ≠ [0x2E] && bytes ≠ [0x2E, 0x2E] && !bytes.contains 0x2F &&
    !bytes.contains 0

structure FileName where
  bytes : List UInt8
  admitted : isFileName bytes = true
  deriving DecidableEq

/-- What an entry is that is not a directory. -/
inductive FileKind where
  | regular (content : ByteArray)
  | other

/-- A workspace: no two entries of a directory have the same name. -/
structure WorkspaceTree where
  entries : NamedEntries FileName FileKind
  distinct : ((entries.nodes []).map Prod.fst).Nodup

abbrev WorkspaceFile := List FileName × ByteArray

def regularFile? : List FileName × FileKind → Option WorkspaceFile
  | (path, .regular content) => some (path, content)
  | (_, .other) => none

/-- The order of paths: name by name, a name by its bytes. -/
def pathLe (first second : WorkspaceFile) : Prop :=
  first.1.map FileName.bytes ≤ second.1.map FileName.bytes

instance (first second : WorkspaceFile) : Decidable (pathLe first second) :=
  inferInstanceAs (Decidable (_ ≤ _))

def collectWorkspaceFiles (root : WorkspaceTree) : List WorkspaceFile :=
  ((root.entries.leaves []).filterMap regularFile?).insertionSort pathLe

/-- A path below the workspace, as the file system has it. -/
def pathBytes (path : List FileName) : List UInt8 :=
  [0x2F].intercalate (path.map FileName.bytes)

def workspaceRelativePath (path : List FileName) : String :=
  String.ofList ((fromUtf8Lossy (pathBytes path)).map fun c => if c = '\\' then '/' else c)

/-! ## Capture -/

structure TaskArtifactEntry where
  path : String
  sizeBytes : UInt64
  chunkHash : String
  casManifestId : String
  casRootId : String
  deriving DecidableEq

structure TaskArtifactIndex extends Core.TaskArtifactIndex where
  outputs : List String
  entries : List TaskArtifactEntry
  missingOutputs : List String
  createdAtUnixSeconds : UInt64
  deriving DecidableEq

structure TaskArtifactCaptureSummary where
  taskRunId : String
  capturedCount : Nat
  missingOutputs : List String
  totalBytes : UInt64
  indexPath : String
  index : TaskArtifactIndex

/-- What a capture has from outside.  `glob` compiles a pattern, which then tests the bytes of
a path. -/
structure CaptureEnv where
  blake3 : Blake3
  glob : String → Except DevRelayError (List UInt8 → Bool)
  platformKey : String
  projectDataDir : String → String
  unixNowSeconds : UInt64

def isTaskRunIdChar (c : Char) : Bool :=
  ('a' ≤ c && c ≤ 'z') || ('A' ≤ c && c ≤ 'Z') || ('0' ≤ c && c ≤ '9') || c = '_' || c = '-' ||
    c = '.'

def validateTaskRunId (taskRunId : String) : Except DevRelayError Unit :=
  require (!(taskRunId.isEmpty || taskRunId.utf8ByteSize > 128 ||
      taskRunId.toList.any fun c => !isTaskRunIdChar c))
    (.config ("invalid task run id " ++ debugString taskRunId))

/-- The path has a way out of the directory it is joined to. -/
def leavesDirectory (path : String) : Bool :=
  isAbsolute path || (components path).any fun component =>
    component = .parentDir || component = .rootDir

def safeRelativePath (path : String) : Except DevRelayError Unit :=
  require (!(path.toList.all isSpace || leavesDirectory path))
    (.config ("artifact path must stay inside the runner workspace: " ++ debugString path))

def validateOutputPatterns (outputs : List String) : Except DevRelayError Unit :=
  checkEach safeRelativePath outputs

def buildOutputGlobs (env : CaptureEnv) (outputs : List String) :
    Except DevRelayError (List (List UInt8 → Bool)) :=
  outputs.mapM env.glob

def matchingPatternIndexes (globs : List (List UInt8 → Bool)) (relative : String) : List Nat :=
  globs.zipIdx.filterMap fun glob => if glob.1 (utf8 relative) then some glob.2 else none

def artifactRootId (taskRunId : String) (index : Nat) : String :=
  "artifact-" ++ taskRunId ++ "-" ++ toString index

def taskArtifactIndexPath (env : CaptureEnv) (projectId taskRunId : String) : String :=
  join (join (env.projectDataDir projectId) "artifacts") (taskRunId ++ ".json")

/-- The variables of the loop over the files, with the store. -/
structure Capturing where
  store : CasStore
  matchedPatterns : List Bool
  entries : List TaskArtifactEntry
  totalBytes : UInt64

def captureFile (env : CaptureEnv) (taskRunId : String) (globs : List (List UInt8 → Bool))
    (state : Capturing) (file : WorkspaceFile) : Except DevRelayError Capturing :=
  let relative := workspaceRelativePath file.1
  let matching := matchingPatternIndexes globs relative
  if matching.isEmpty then .ok state
  else do
    let chunkHash := CasChunkHash.fromBytes env.blake3 file.2
    let (_, store) ← state.store.uploadChunk env.blake3 file.2 chunkHash
    let (manifest, store) ← store.createManifest env.blake3 env.unixNowSeconds [chunkHash]
    let rootId := artifactRootId taskRunId state.entries.length
    let (_, store) ←
      store.addReachabilityRoot env.blake3 env.unixNowSeconds rootId manifest.manifestId
    return {
      store
      matchedPatterns := matching.foldl (fun flags index => flags.set index true)
        state.matchedPatterns
      entries := state.entries ++ [{
        path := relative
        sizeBytes := UInt64.ofNat file.2.size
        chunkHash := chunkHash.value
        casManifestId := manifest.manifestId
        casRootId := rootId }]
      totalBytes := saturatingAdd state.totalBytes (UInt64.ofNat file.2.size) }

def captureFiles (env : CaptureEnv) (taskRunId : String) (globs : List (List UInt8 → Bool))
    (state : Capturing) (files : List WorkspaceFile) : Except DevRelayError Capturing :=
  files.foldlM (captureFile env taskRunId globs) state

def captureTaskArtifacts (env : CaptureEnv) (taskRunId : String) (workspace : WorkspaceTree)
    (definition : TaskDefinition) (store : CasStore) :
    Except DevRelayError (TaskArtifactCaptureSummary × CasStore) := do
  validateTaskRunId taskRunId
  validateOutputPatterns definition.outputs
  let globs ← buildOutputGlobs env definition.outputs
  let captured ← captureFiles env taskRunId globs
    { store, matchedPatterns := definition.outputs.map fun _ => false, entries := [],
      totalBytes := 0 }
    (collectWorkspaceFiles workspace)
  let entries := captured.entries.insertionSort fun left right => left.path ≤ right.path
  let missingOutputs := (definition.outputs.zip captured.matchedPatterns).filterMap
    fun output => if output.2 then none else some output.1
  return ({
    taskRunId
    capturedCount := entries.length
    missingOutputs
    totalBytes := captured.totalBytes
    indexPath := taskArtifactIndexPath env definition.projectId taskRunId
    index := {
      taskRunId
      projectId := definition.projectId
      taskName := definition.taskName
      platformKey := env.platformKey
      commandDefinitionHash := definition.commandDefinitionHash
      outputs := definition.outputs
      entries
      missingOutputs
      createdAtUnixSeconds := env.unixNowSeconds } }, captured.store)

/-! ## Pull -/

structure TaskArtifactPullResult where
  path : String
  destination : String
  sizeBytes : UInt64

/-- The files below the destination. -/
abbrev Destination := Places FileName ByteArray

def fileName? (name : String) : Option FileName :=
  if h : isFileName (utf8 name) = true then some ⟨utf8 name, h⟩ else none

def componentName? : Component → Option FileName
  | .normal name => fileName? name
  | _ => none

/-- The names on the way to a file.  A path that ends in a separator or a `.` is not one. -/
def destinationNames? (path : String) : Option (List FileName) :=
  match (path.toList.splitOn '/').getLast?.bind partComponent? with
  | none => none
  | some _ => (steps path).mapM componentName?

def orIo {α : Type} (path : String) : Option α → Except DevRelayError α
  | none => .error (.io ("cannot write " ++ path))
  | some value => .ok value

def pullTaskArtifact (blake3 : Blake3) (index : TaskArtifactIndex) (artifactPath : String)
    (store : CasStore) (destinationRoot : String) (destination : Destination) :
    Except DevRelayError (TaskArtifactPullResult × Destination) :=
  match index.entries.find? fun entry => entry.path = artifactPath with
  | none => .error (.config ("unknown artifact path " ++ debugString artifactPath))
  | some entry => do
    safeRelativePath entry.path
    let names ← orIo entry.path (destinationNames? entry.path)
    let made ← orIo entry.path (Places.makeDirs? [] names.dropLast destination)
    let bytes ← fetchContent blake3 store entry.casManifestId
    let written ← orIo entry.path (Places.writeLeaf? names bytes made)
    return ({
      path := entry.path
      destination := join destinationRoot entry.path
      sizeBytes := UInt64.ofNat bytes.size }, written)

structure TaskResultCacheRestore where
  restored : List TaskArtifactPullResult
  totalBytes : UInt64

/-- The loop of `restore_task_result_cache_hit`, for one entry. -/
def restoreEntry (blake3 : Blake3) (index : TaskArtifactIndex) (store : CasStore)
    (destinationRoot : String) (state : TaskResultCacheRestore × Destination)
    (artifact : TaskArtifactEntry) :
    Except DevRelayError (TaskResultCacheRestore × Destination) := do
  let (pull, destination) ←
    pullTaskArtifact blake3 index artifact.path store destinationRoot state.2
  return ({
    restored := state.1.restored ++ [pull]
    totalBytes := saturatingAdd state.1.totalBytes pull.sizeBytes }, destination)

def restoreEntries (blake3 : Blake3) (index : TaskArtifactIndex) (store : CasStore)
    (destinationRoot : String) (state : TaskResultCacheRestore × Destination)
    (entries : List TaskArtifactEntry) :
    Except DevRelayError (TaskResultCacheRestore × Destination) :=
  entries.foldlM (restoreEntry blake3 index store destinationRoot) state

/-- `restore_task_result_cache_hit`, for the artifact index of the hit. -/
def restoreTaskResultCacheHit (blake3 : Blake3) (index : TaskArtifactIndex) (store : CasStore)
    (destinationRoot : String) (destination : Destination) :
    Except DevRelayError (TaskResultCacheRestore × Destination) :=
  restoreEntries blake3 index store destinationRoot
    ({ restored := [], totalBytes := 0 }, destination) index.entries

end DevRelay.Artifacts
