import DevRelay.Snapshot.Capture
import DevRelay.Snapshot.Store

/-!
# Checkpoints with dirty submodules

`checkpoint_with_dirty_submodules` of `snapshot_store.rs`, with the child
projects of `submodule.rs` and the default session of `storage.rs`.  A dirty
submodule is checkpointed into the store of a project of its own, and the
snapshot of the parent links to it.  The statements of one checkpoint therefore
run over a home, which has a store for every project.
-/

namespace DevRelay.Snapshot

open DevRelay.Lib DevRelay.Core DevRelay.Storage DevRelay.Retention DevRelay.Git

/-! ## Submodules and their projects -/

inductive SubmoduleStatus where
  | clean
  | missing
  | headMismatch
  | dirty
  deriving DecidableEq, Repr

structure SubmoduleState where
  path : String
  status : SubmoduleStatus
  deriving DecidableEq, Repr

def submoduleChildSnapshotRelationship : String := "git-submodule"

/-- The longest run of whole characters that fits. -/
def truncateChars : List Char → Nat → List Char
  | [], _ => []
  | c :: rest, maxBytes =>
    if c.utf8Size ≤ maxBytes then c :: truncateChars rest (maxBytes - c.utf8Size) else []

def truncateToBytes (value : String) (maxBytes : Nat) : String :=
  if value.utf8ByteSize ≤ maxBytes then value
  else String.ofList (truncateChars value.toList maxBytes)

/-- `&digest[..n]` of the hexadecimal digest. -/
def digestFront (digest : Blake3) (seed : String) (n : Nat) : String :=
  String.ofList ((digest.hex seed.toByteArray).toList.take n)

def dirtySubmoduleChildProjectId (digest : Blake3) (parentProjectId submodulePath : String) :
    String :=
  let front := parentProjectId.map fun ch =>
    if ch.isAlphanum || ch = '-' || ch = '_' then ch else '_'
  let front := if front.isEmpty then "project" else front
  truncateToBytes front 40 ++ "_sub_" ++
    digestFront digest (parentProjectId ++ "\x00" ++ submodulePath) 16

def dirtySubmoduleChildProjectName (digest : Blake3) (parentName submodulePath : String) : String :=
  let full := parentName ++ " submodule " ++ submodulePath
  if full.utf8ByteSize ≤ 128 then full
  else
    let back := " submodule " ++ digestFront digest submodulePath 8
    truncateToBytes parentName (128 - back.utf8ByteSize) ++ back

def dirtySubmoduleChildManifest (digest : Blake3) (parent : Manifest) (submodulePath : String) :
    Manifest :=
  { parent with
    projectId := dirtySubmoduleChildProjectId digest parent.projectId submodulePath
    name := dirtySubmoduleChildProjectName digest parent.name submodulePath }

/-! ## The default session -/

structure SessionEnv where
  /-- `generate_session_id()` -/
  sessionId : String
  /-- `unix_now_seconds()` -/
  now : UInt64

/-- `ORDER BY created_at_unix_seconds ASC, session_id ASC` -/
def sessionLe (left right : SessionRow) : Bool :=
  decide (left.createdAtUnixSeconds < right.createdAtUnixSeconds) ||
    (left.createdAtUnixSeconds = right.createdAtUnixSeconds &&
      decide (left.sessionId ≤ right.sessionId))

/-- The oldest session of the project without a parent. -/
def rootSession (projectId : String) (db : MetadataDb) : Option StoredSession :=
  ((db.sessions.rows.filter fun row =>
    row.projectId = projectId && row.parentSessionId.isNone).insertionSort
      fun a b => sessionLe a b).head?.map storedSessionFromRow

def getSession (sessionId : String) (db : MetadataDb) : Option StoredSession :=
  (db.sessions.lookup sessionId).map storedSessionFromRow

/-- `insert_session` for a session without a workspace. -/
def insertSession (env : SessionEnv) (projectId name : String) (parentSessionId : Option String)
    (state : SessionState) : Sql StoredSession := do
  Prog.attempt (insertSessionRow? {
      sessionId := env.sessionId
      projectId := projectId
      activeWorkspaceId := none
      state := state.asStr
      name := some name
      parentSessionId := parentSessionId
      archivedAtUnixSeconds := none
      createdAtUnixSeconds := asI64 env.now
      updatedAtUnixSeconds := asI64 env.now }) constraintError
  let session ← Prog.query (getSession env.sessionId)
  Prog.orFail session (.config "session insert disappeared")

/-- `ensure_default_session` with `None` for the workspace. -/
def ensureDefaultSession (env : SessionEnv) (projectId displayName : String) :
    Sql StoredSession := do
  Prog.write (insertProjectOrIgnore projectId)
  -- the update of the display name, a column that nothing here reads
  Prog.write id
  let session ← Prog.query (rootSession projectId)
  match session with
  | some session => pure session
  | none => insertSession env projectId displayName none .active

/-- Statements over the database of a store. -/
def inDb {α : Type} (p : Sql α) : Checkpointing α :=
  p.within SnapshotStore.db fun db store => { store with db }

/-! ## The home -/

/-- The stores of the projects, each opened for its own project. -/
structure SnapshotHome where
  store : String → SnapshotStore

namespace SnapshotHome

def setStore (projectId : String) (store : SnapshotStore) (home : SnapshotHome) : SnapshotHome :=
  ⟨Function.update home.store projectId store⟩

@[simp] theorem store_setStore_self (projectId : String) (store : SnapshotStore)
    (home : SnapshotHome) : (home.setStore projectId store).store projectId = store :=
  Function.update_self _ _ _

theorem store_setStore_of_ne {projectId other : String} (h : other ≠ projectId)
    (store : SnapshotStore) (home : SnapshotHome) :
    (home.setStore projectId store).store other = home.store other :=
  Function.update_of_ne h _ _

@[simp] theorem setStore_setStore (projectId : String) (store other : SnapshotStore)
    (home : SnapshotHome) :
    (home.setStore projectId other).setStore projectId store = home.setStore projectId store := by
  unfold setStore
  rw [Function.update_idem]

@[simp] theorem setStore_self (projectId : String) (home : SnapshotHome) :
    home.setStore projectId (home.store projectId) = home := by
  unfold setStore
  rw [Function.update_eq_self]

end SnapshotHome

abbrev HomeProg := Prog SnapshotHome DevRelayError

/-- Statements over the store of one project. -/
def inStore {α : Type} (projectId : String) (p : Checkpointing α) : HomeProg α :=
  p.within (fun home => home.store projectId) fun store home => home.setStore projectId store

/-! ## The checkpoint -/

/-- Metadata as `create_snapshot` returns it: without a parent and without children. -/
structure CreatedSnapshot where
  metadata : SnapshotMetadata
  parentless : metadata.parentSnapshotId = none
  childless : metadata.childSnapshots = []

/-- What a capture returns is such metadata. -/
theorem exists_createdSnapshot (env : CaptureEnv) (manifest : Manifest) (repo : Git.Repository) :
    ∃ created : Except DevRelayError CreatedSnapshot,
      created.map CreatedSnapshot.metadata = captureSnapshot env manifest repo := by
  cases hcapture : captureSnapshot env manifest repo with
  | error e => exact ⟨.error e, rfl⟩
  | ok metadata =>
    obtain ⟨classified, -, rfl⟩ := captureSnapshot_eq_ok.mp hcapture
    exact ⟨.ok ⟨_, rfl, rfl⟩, rfl⟩

/-- A submodule that `inspect_submodules` reports, with what its checkpoint finds. -/
structure SubmoduleVisit where
  state : SubmoduleState
  /-- `create_snapshot` of the submodule under its manifest -/
  created : Manifest → Except DevRelayError CreatedSnapshot
  session : SessionEnv
  /-- the unix epoch and the fault of the transaction; its store injects none -/
  unixEpoch : UInt64
  txFault : Fault DevRelayError

def SubmoduleVisit.checkpointEnv (visit : SubmoduleVisit) : CheckpointEnv where
  unixEpoch := visit.unixEpoch
  injected := none
  fault := noFault
  txFault := visit.txFault

def checkpointChildSubmoduleSnapshot (digest : Blake3) (visit : SubmoduleVisit)
    (manifest : Manifest) (session : StoredSession) (pinned : Bool) :
    Checkpointing StoredSnapshot := do
  let created ← Prog.ofExcept (visit.created manifest)
  let metadata := withStateHash digest { created.metadata with sessionId := session.sessionId }
  Prog.ofExcept metadata.validate
  storeSnapshot visit.checkpointEnv metadata pinned
    (some ("dirty submodule " ++ visit.state.path))

def childLink (visit : SubmoduleVisit) (childSession : StoredSession)
    (childStored : StoredSnapshot) : SnapshotChildSnapshot where
  relationship := submoduleChildSnapshotRelationship
  path := visit.state.path
  projectId := childStored.projectId
  sessionId := childSession.sessionId
  snapshotId := childStored.snapshotId
  stateHash := childStored.metadata.stateHash

/-- The body of the loop over the dirty submodules. -/
def checkpointDirtySubmoduleChild (digest : Blake3) (manifest : Manifest) (pinned : Bool)
    (visit : SubmoduleVisit) : HomeProg (SnapshotChildSnapshot × StoredSnapshot) := do
  let childManifest := dirtySubmoduleChildManifest digest manifest visit.state.path
  -- `SnapshotStore::open`
  Prog.write id
  let childSession ← inStore childManifest.projectId
    (inDb (ensureDefaultSession visit.session childManifest.projectId childManifest.name))
  let childStored ← inStore childManifest.projectId
    (checkpointChildSubmoduleSnapshot digest visit childManifest childSession pinned)
  pure (childLink visit childSession childStored, childStored)

def checkpointDirtySubmodules (digest : Blake3) (manifest : Manifest) (pinned : Bool) :
    List SubmoduleVisit → List SnapshotChildSnapshot → List StoredSnapshot →
      HomeProg (List SnapshotChildSnapshot × List StoredSnapshot)
  | [], childLinks, children => pure (childLinks, children)
  | visit :: rest, childLinks, children => do
    let (link, stored) ← checkpointDirtySubmoduleChild digest manifest pinned visit
    checkpointDirtySubmodules digest manifest pinned rest (childLinks ++ [link])
      (children ++ [stored])

/-- `submodules` is the result of `inspect_submodules`. -/
def checkpointDirtySubmoduleChildren (digest : Blake3) (manifest : Manifest) (pinned : Bool)
    (submodules : Except DevRelayError (List SubmoduleVisit)) :
    HomeProg (List SnapshotChildSnapshot × List StoredSnapshot) := do
  let visits ← Prog.ofExcept submodules
  checkpointDirtySubmodules digest manifest pinned
    (visits.filter fun visit => visit.state.status = .dirty) [] []

def childLinkLe (left right : SnapshotChildSnapshot) : Bool :=
  lexLe [left.path, left.projectId, left.sessionId, left.snapshotId]
    [right.path, right.projectId, right.sessionId, right.snapshotId]

structure SnapshotCheckpointWithChildren where
  parent : StoredSnapshot
  children : List StoredSnapshot
  deriving DecidableEq, Repr

/-- What a checkpoint with submodules finds outside the home. -/
structure SubmoduleCheckpointEnv where
  digest : Blake3
  submodules : Except DevRelayError (List SubmoduleVisit)
  /-- `create_snapshot` of the parent, behind the checkpoints of the children -/
  created : Except DevRelayError CreatedSnapshot
  parent : CheckpointEnv

def checkpointWithDirtySubmodules (env : SubmoduleCheckpointEnv) (projectId : String)
    (manifest : Manifest) (pinned : Bool) (label : Option String) :
    HomeProg SnapshotCheckpointWithChildren := do
  let (childLinks, children) ←
    checkpointDirtySubmoduleChildren env.digest manifest pinned env.submodules
  let created ← Prog.ofExcept env.created
  let metadata := withStateHash env.digest { created.metadata with
    childSnapshots := childLinks.insertionSort fun a b => childLinkLe a b }
  Prog.ofExcept metadata.validate
  let parent ← inStore projectId (storeSnapshot env.parent metadata pinned label)
  pure ⟨parent, children⟩

end DevRelay.Snapshot
