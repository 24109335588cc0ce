import DevRelay.Retention.Prune
import DevRelay.Storage.Publish

/-!
# Storing checkpoints

`store_snapshot` and `checkpoint_if_changed` of `snapshot_store.rs`: import the
references of a snapshot, insert its row, delete the references in the source.
Every statement can be the last one, so a checkpoint that fails may have stored
its snapshot.
-/

namespace DevRelay.Snapshot

open DevRelay.Lib DevRelay.Core DevRelay.Storage DevRelay.Retention

inductive SnapshotStoreFaultPoint where
  | afterSnapshotObjectImport
  | duringMetadataTransaction
  | afterSourceIndexRefDelete
  deriving DecidableEq, Repr

def SnapshotStoreFaultPoint.asStr : SnapshotStoreFaultPoint → String
  | afterSnapshotObjectImport => "after-snapshot-object-import"
  | duringMetadataTransaction => "during-metadata-transaction"
  | afterSourceIndexRefDelete => "after-source-index-ref-delete"

def injectFault {σ : Type} (configured : Option SnapshotStoreFaultPoint)
    (fault : SnapshotStoreFaultPoint) : Prog σ DevRelayError Unit :=
  Prog.ensure (configured ≠ some fault) (.config ("injected fault at " ++ fault.asStr))

/-- What a checkpoint finds outside the store. -/
structure CheckpointEnv where
  /-- `unixepoch()`, the default of the time columns -/
  unixEpoch : UInt64
  /-- `SnapshotStore::fault` -/
  injected : Option SnapshotStoreFaultPoint
  /-- the statements that fail: git commands and queries -/
  fault : Fault DevRelayError
  /-- the statements of the metadata transaction that fail -/
  txFault : Fault DevRelayError

inductive SnapshotCheckpointResult where
  | created (snapshot : StoredSnapshot)
  | unchanged (snapshotId stateHash : String)
  deriving DecidableEq, Repr

/-! ## The metadata transaction -/

/-- `INSERT OR IGNORE INTO projects` -/
def insertProjectOrIgnore (projectId : String) (db : MetadataDb) : MetadataDb :=
  match db.projects.insert? projectId with
  | some projects => { db with projects }
  | none => db

/-- `INSERT OR IGNORE INTO sessions (session_id, project_id, state)`; the foreign key
is not ignored. -/
def insertForkSessionOrIgnore? (env : CheckpointEnv) (sessionId projectId : String)
    (db : MetadataDb) : Option MetadataDb :=
  if (db.projects.lookup projectId).isSome then
    match db.sessions.insert? {
        sessionId := sessionId
        projectId := projectId
        activeWorkspaceId := none
        state := "fork"
        name := none
        parentSessionId := none
        archivedAtUnixSeconds := none
        createdAtUnixSeconds := asI64 env.unixEpoch
        updatedAtUnixSeconds := asI64 env.unixEpoch } with
    | some sessions => some { db with sessions }
    | none => some db
  else
    none

def ensureForkSession (env : CheckpointEnv) (metadata : SnapshotMetadata) : Sql Unit :=
  match metadata.sessionId with
  | some sessionId =>
    Prog.attempt (insertForkSessionOrIgnore? env sessionId metadata.projectId)
      constraintError
  | none => pure ()

def checkpointRow (metadata : SnapshotMetadata) (pinned : Bool) (label : Option String)
    (sequenceNumber : Int) : SnapshotRow where
  snapshotId := metadata.snapshotId
  projectId := metadata.projectId
  sessionId := metadata.sessionId
  parentSnapshotId := metadata.parentSnapshotId
  sequenceNumber := sequenceNumber
  pinned := pinned
  label := label
  metadata := metadata
  createdAtUnixSeconds := asI64 metadata.createdAtUnixSeconds

def checkpointStored (metadata : SnapshotMetadata) (pinned : Bool) (label : Option String)
    (sequenceNumber : Int) : StoredSnapshot where
  snapshotId := metadata.snapshotId
  projectId := metadata.projectId
  sessionId := metadata.sessionId
  parentSnapshotId := metadata.parentSnapshotId
  sequenceNumber := sequenceNumber
  pinned := pinned
  label := label
  metadata := metadata
  createdAtUnixSeconds := metadata.createdAtUnixSeconds

def insertSnapshotBody (env : CheckpointEnv) (metadata : SnapshotMetadata) (pinned : Bool)
    (label : Option String) : Sql (Ending (Except DevRelayError StoredSnapshot)) := do
  Prog.write (insertProjectOrIgnore metadata.projectId)
  -- the update of the display name, a column that nothing here reads
  Prog.write id
  injectFault env.injected .duringMetadataTransaction
  ensureForkSession env metadata
  let sequenceNumber ← Prog.query (MetadataDb.nextSequenceNumber metadata.projectId)
  Prog.attempt (insertSnapshotRow? (checkpointRow metadata pinned label sequenceNumber))
    constraintError
  Prog.commitWith (.ok (checkpointStored metadata pinned label sequenceNumber))

def insertSnapshot (env : CheckpointEnv) (metadata : SnapshotMetadata) (pinned : Bool)
    (label : Option String) (store : SnapshotStore) :
    Except DevRelayError (StoredSnapshot × SnapshotStore) :=
  match (insertSnapshotBody env metadata pinned label).transaction env.txFault store.db with
  | (.ok stored, db) => .ok (stored, { store with db })
  | (.error e, _) => .error e

/-! ## The checkpoint -/

abbrev Checkpointing := Prog SnapshotStore DevRelayError

/-- `git fetch` of the two references from the source, as one command. -/
def importSnapshotRefs (metadata : SnapshotMetadata) : Checkpointing Unit := do
  Prog.ofExcept metadata.validate
  Prog.write fun store => { store with
    refs := store.refs.union [metadata.indexRef, metadata.workRef] }

/-- The deletions happen in the source repository; here they only can fail. -/
def removeSourceSnapshotRefs (injected : Option SnapshotStoreFaultPoint) : Checkpointing Unit := do
  Prog.write id
  injectFault injected .afterSourceIndexRefDelete
  Prog.write id

/-- The latest snapshot becomes the parent of one that names none. -/
def withParent (metadata : SnapshotMetadata) : Checkpointing SnapshotMetadata :=
  match metadata.parentSnapshotId with
  | some _ => pure metadata
  | none => do
    let latest ← Prog.query SnapshotStore.latestSnapshotId
    pure { metadata with parentSnapshotId := latest }

def storeSnapshot (env : CheckpointEnv) (metadata : SnapshotMetadata) (pinned : Bool)
    (label : Option String) : Checkpointing StoredSnapshot := do
  let projectId ← Prog.query SnapshotStore.projectId
  Prog.ensure (metadata.projectId = projectId)
    (.config ("snapshot project_id " ++ metadata.projectId ++
      " does not match store project_id " ++ projectId))
  Prog.ofExcept metadata.validate
  importSnapshotRefs metadata
  injectFault env.injected .afterSnapshotObjectImport
  let metadata ← withParent metadata
  let stored ← Prog.call (insertSnapshot env metadata pinned label)
  removeSourceSnapshotRefs env.injected
  pure stored

/-- `created` is the result of `create_snapshot`. -/
def checkpoint (env : CheckpointEnv) (created : Except DevRelayError SnapshotMetadata)
    (pinned : Bool) (label : Option String) : Checkpointing StoredSnapshot := do
  let metadata ← Prog.ofExcept created
  storeSnapshot env metadata pinned label

/-- The latest snapshot, if it has the state hash of the new one. -/
def sameState (metadata : SnapshotMetadata) (latest : Option StoredSnapshot) :
    Option StoredSnapshot :=
  latest.filter fun latest => latest.metadata.stateHash = metadata.stateHash

def checkpointIfChanged (env : CheckpointEnv)
    (created : Except DevRelayError SnapshotMetadata) (pinned : Bool)
    (label : Option String) : Checkpointing SnapshotCheckpointResult := do
  let metadata ← Prog.ofExcept created
  let latest ← Prog.query SnapshotStore.latestSnapshot
  match sameState metadata latest with
  | some latest =>
    removeSourceSnapshotRefs none
    pure (.unchanged latest.snapshotId metadata.stateHash)
  | none =>
    let stored ← storeSnapshot env metadata pinned label
    pure (.created stored)

end DevRelay.Snapshot

/-!
## What a checkpoint writes

The store of a checkpoint that stops somewhere is the one it began with, the
one with the references of the snapshot, or the one with its row too.  An
invariant of the store is owed for these three.
-/

namespace DevRelay.Snapshot

open DevRelay.Lib DevRelay.Core DevRelay.Storage DevRelay.Retention

variable {db db' : MetadataDb} {store t u : SnapshotStore} {env : CheckpointEnv}
  {metadata : SnapshotMetadata} {pinned : Bool} {label : Option String}

/-! ## The row -/

theorem nextSequenceNumber_congr (h : db'.snapshots = db.snapshots) (p : String) :
    db'.nextSequenceNumber p = db.nextSequenceNumber p := by
  unfold MetadataDb.nextSequenceNumber
  rw [h]

theorem insertProjectOrIgnore_snapshots (projectId : String) (db : MetadataDb) :
    (insertProjectOrIgnore projectId db).snapshots = db.snapshots := by
  unfold insertProjectOrIgnore
  split
  · rfl
  · rfl

theorem run_ensureForkSession_bind_ok {α : Type} {env : CheckpointEnv}
    {metadata : SnapshotMetadata} {k : Unit → Sql α} {b : α}
    (h : (ensureForkSession env metadata >>= k).run db = (.ok b, db')) :
    ∃ u, u.snapshots = db.snapshots ∧ (k ()).run u = (.ok b, db') := by
  unfold ensureForkSession at h
  split at h
  · obtain ⟨u, hinsert, hk⟩ := (Prog.run_attempt_bind_ok _ _ _ _ _ _).mp h
    refine ⟨u, ?_, hk⟩
    unfold insertForkSessionOrIgnore? at hinsert
    split at hinsert
    · split at hinsert
      · cases hinsert
        rfl
      · cases hinsert
        rfl
    · cases hinsert
  · exact ⟨db, rfl, h⟩

theorem run_insertSnapshotBody_ok {ending : Ending (Except DevRelayError StoredSnapshot)}
    (h : (insertSnapshotBody env metadata pinned label).run db = (.ok ending, db')) :
    ending = .committed (.ok (checkpointStored metadata pinned label
        (db.nextSequenceNumber metadata.projectId))) ∧
      db.snapshots.insert? (checkpointRow metadata pinned label
        (db.nextSequenceNumber metadata.projectId)) = some db'.snapshots := by
  simp only [insertSnapshotBody, injectFault, Prog.run_write_bind, Prog.run_ensure_bind_ok] at h
  obtain ⟨-, h⟩ := h
  obtain ⟨u, hu, h⟩ := run_ensureForkSession_bind_ok h
  have hsnapshots : u.snapshots = db.snapshots :=
    hu.trans (insertProjectOrIgnore_snapshots metadata.projectId db)
  have hnumber := nextSequenceNumber_congr hsnapshots metadata.projectId
  simp only [Prog.run_query_bind, Prog.run_attempt_bind_ok, Prog.run_commitWith_ok] at h
  obtain ⟨v, hinsert, hending, rfl⟩ := h
  obtain ⟨snapshots, htable, rfl⟩ := insertSnapshotRow?_eq_some hinsert
  rw [hsnapshots, hnumber] at htable
  rw [hnumber] at hending
  exact ⟨hending.symm, htable⟩

/-- The row of the snapshot is inserted under the next number, and that is all. -/
theorem insertSnapshot_eq_ok {stored : StoredSnapshot}
    (h : insertSnapshot env metadata pinned label t = .ok (stored, u)) :
    u.projectId = t.projectId ∧ u.refs = t.refs ∧
      t.db.snapshots.insert? (checkpointRow metadata pinned label
        (t.db.nextSequenceNumber metadata.projectId)) = some u.db.snapshots ∧
      stored = checkpointStored metadata pinned label
        (t.db.nextSequenceNumber metadata.projectId) := by
  unfold insertSnapshot at h
  rcases Prog.transaction_cases env.txFault (insertSnapshotBody env metadata pinned label)
      t.db with ⟨e, heq⟩ | ⟨r, hrun, heq⟩ | ⟨r, db, hrun, heq⟩
  · rw [heq] at h
    cases h
  · cases (run_insertSnapshotBody_ok hrun).1
  · obtain ⟨hending, hinsert⟩ := run_insertSnapshotBody_ok hrun
    cases hending
    rw [heq] at h
    cases h
    exact ⟨rfl, rfl, hinsert, rfl⟩

/-! ## The checkpoint -/

theorem injectFault_ensures {I : SnapshotStore → Prop} {configured : Option SnapshotStoreFaultPoint}
    {fault : SnapshotStoreFaultPoint} :
    (injectFault configured fault).Ensures I (fun _ u => u = t) t := by
  unfold injectFault Prog.ensure
  split
  · rfl
  · trivial

theorem removeSourceSnapshotRefs_ensures {I : SnapshotStore → Prop}
    {injected : Option SnapshotStoreFaultPoint} (h : I t) :
    (removeSourceSnapshotRefs injected).Ensures I (fun _ u => u = t) t := by
  unfold removeSourceSnapshotRefs
  apply Prog.ensures_write_bind h
  apply Prog.ensures_bind h injectFault_ensures
  rintro _ u - rfl
  exact ⟨h, rfl⟩

/-- The store with the references of a snapshot. -/
def withRefs (store : SnapshotStore) (metadata : SnapshotMetadata) : SnapshotStore :=
  { store with refs := store.refs.union [metadata.indexRef, metadata.workRef] }

/-- What is owed for a snapshot that is stored: its row is in the store that is left. -/
theorem storeSnapshot_ensures {I : SnapshotStore → Prop}
    {Q : StoredSnapshot → SnapshotStore → Prop} (hself : I store)
    (himported : I (withRefs store metadata))
    (hinserted : metadata.projectId = store.projectId → ∀ stored u, insertSnapshot env
      { metadata with
          parentSnapshotId := metadata.parentSnapshotId <|> store.latestSnapshotId }
      pinned label (withRefs store metadata) = .ok (stored, u) → I u ∧ Q stored u) :
    (storeSnapshot env metadata pinned label).Ensures I Q store := by
  unfold storeSnapshot
  apply Prog.ensures_query_bind hself
  apply Prog.ensures_ensure_bind
  intro hproject
  apply Prog.ensures_ofExcept_bind
  intro _ _
  apply Prog.ensures_bind (R := fun _ u => u = withRefs store metadata) hself
  · unfold importSnapshotRefs
    apply Prog.ensures_ofExcept_bind
    intro _ _
    exact ⟨himported, rfl⟩
  · rintro _ u hu rfl
    apply Prog.ensures_bind hu injectFault_ensures
    rintro _ v - rfl
    apply Prog.ensures_bind (R := fun m w => w = withRefs store metadata ∧
      m = { metadata with
        parentSnapshotId := metadata.parentSnapshotId <|> store.latestSnapshotId }) hu
    · unfold withParent
      split
      · rename_i parent hparent
        have hkept : (metadata.parentSnapshotId <|> store.latestSnapshotId) =
            metadata.parentSnapshotId := by
          rw [hparent]
          rfl
        exact Prog.ensures_pure ⟨rfl, by rw [hkept]⟩
      · rename_i hparent
        apply Prog.ensures_query_bind hu
        have hlatest : (metadata.parentSnapshotId <|> store.latestSnapshotId) =
            store.latestSnapshotId := by
          rw [hparent]
          rfl
        exact Prog.ensures_pure ⟨rfl, by rw [hlatest]; rfl⟩
    · rintro _ w hw ⟨rfl, rfl⟩
      apply Prog.ensures_call_bind hw
      intro stored u hinsert
      obtain ⟨hdone, hstored⟩ := hinserted hproject stored u hinsert
      refine ⟨hdone, ?_⟩
      apply Prog.ensures_bind hdone (removeSourceSnapshotRefs_ensures hdone)
      rintro _ v - rfl
      exact Prog.ensures_pure hstored

theorem storeSnapshot_ensures_of {I : SnapshotStore → Prop} (hself : I store)
    (himported : I (withRefs store metadata))
    (hinserted : metadata.projectId = store.projectId → ∀ parent stored u, insertSnapshot env
      { metadata with parentSnapshotId := parent } pinned label (withRefs store metadata) =
        .ok (stored, u) → I u) :
    (storeSnapshot env metadata pinned label).Ensures I (fun _ _ => True) store := by
  apply storeSnapshot_ensures hself himported
  intro hproject stored u hinsert
  exact ⟨hinserted hproject _ stored u hinsert, trivial⟩

variable {created : Except DevRelayError SnapshotMetadata} {I : SnapshotStore → Prop}

theorem checkpoint_ensures_of (hself : I store)
    (himported : ∀ metadata, I (withRefs store metadata))
    (hinserted : ∀ metadata : SnapshotMetadata, metadata.projectId = store.projectId →
      ∀ parent stored u, insertSnapshot env { metadata with parentSnapshotId := parent } pinned
        label (withRefs store metadata) = .ok (stored, u) → I u) :
    (checkpoint env created pinned label).Ensures I (fun _ _ => True) store := by
  unfold checkpoint
  apply Prog.ensures_ofExcept_bind
  intro metadata _
  exact storeSnapshot_ensures_of hself (himported metadata) (hinserted metadata)

theorem checkpointIfChanged_ensures_of (hself : I store)
    (himported : ∀ metadata, I (withRefs store metadata))
    (hinserted : ∀ metadata : SnapshotMetadata, metadata.projectId = store.projectId →
      ∀ parent stored u, insertSnapshot env { metadata with parentSnapshotId := parent } pinned
        label (withRefs store metadata) = .ok (stored, u) → I u) :
    (checkpointIfChanged env created pinned label).Ensures I (fun _ _ => True) store := by
  unfold checkpointIfChanged
  apply Prog.ensures_ofExcept_bind
  intro metadata _
  apply Prog.ensures_query_bind hself
  split
  · apply Prog.ensures_bind hself (removeSourceSnapshotRefs_ensures hself)
    intro _ _ _ _
    exact Prog.ensures_pure trivial
  · apply Prog.ensures_bind hself
      (storeSnapshot_ensures_of hself (himported metadata) (hinserted metadata))
    intro _ _ _ _
    exact Prog.ensures_pure trivial

end DevRelay.Snapshot
