import DevRelay.Background.Debounce
import DevRelay.Storage.Schema

/-!
# The background checkpoint manager

`background_checkpoint.rs`: what is known of each workspace from the changes that
were observed and the checkpoints that were taken.  A success is recorded for the
generation of its request, which need not be the last one that was observed.
-/

namespace DevRelay.Background

open DevRelay.Lib DevRelay.Core

structure BackgroundWorkspace where
  projectId : String
  workspaceId : String
  deviceId : Option String
  deriving DecidableEq, Repr

structure WorkspaceCheckpointState where
  dirty : Bool := false
  lastObservedGeneration : Option UInt64 := none
  lastCheckpointGeneration : Option UInt64 := none
  lastSnapshotId : Option String := none
  lastStateHash : Option String := none
  repeatedFailures : UInt32 := 0
  deriving DecidableEq, Repr

inductive ProtectionStatus where
  | dirty
  | «protected»
  | unchanged
  | failed
  deriving DecidableEq, Repr

structure ProtectionStatusEvent where
  projectId : String
  workspaceId : String
  deviceId : Option String
  status : ProtectionStatus
  sourceGeneration : UInt64
  snapshotId : Option String
  stateHash : Option String
  repeatedFailures : UInt32
  userVisible : Bool
  detail : Option String
  deriving DecidableEq, Repr

inductive SnapshotCheckpointResult where
  | created (snapshot : Storage.StoredSnapshot)
  | unchanged (snapshotId stateHash : String)
  deriving DecidableEq, Repr

inductive BackgroundCheckpointOutcome where
  | created (snapshotId stateHash : String)
  | unchanged (snapshotId stateHash : String)
  | failed (error : String)
  deriving DecidableEq, Repr

structure BackgroundCheckpointReport where
  projectId : String
  workspaceId : String
  sourceGeneration : UInt64
  outcome : BackgroundCheckpointOutcome
  snapshot : Option Storage.StoredSnapshot
  event : ProtectionStatusEvent
  deriving DecidableEq, Repr

def protectionStatusEvent (workspace : BackgroundWorkspace) (status : ProtectionStatus)
    (sourceGeneration : UInt64) (snapshotId stateHash : Option String)
    (repeatedFailures : UInt32) (userVisible : Bool) (detail : Option String) :
    ProtectionStatusEvent where
  projectId := workspace.projectId
  workspaceId := workspace.workspaceId
  deviceId := workspace.deviceId
  status := status
  sourceGeneration := sourceGeneration
  snapshotId := snapshotId
  stateHash := stateHash
  repeatedFailures := repeatedFailures
  userVisible := userVisible
  detail := detail

/-! ## One workspace -/

namespace WorkspaceCheckpointState

/-- `last_observed_generation.unwrap_or_default().max(source_generation)` -/
def observed (state : WorkspaceCheckpointState) (sourceGeneration : UInt64) : UInt64 :=
  max (state.lastObservedGeneration.getD 0) sourceGeneration

def markDirty (state : WorkspaceCheckpointState) (sourceGeneration : UInt64) :
    WorkspaceCheckpointState :=
  { state with
    dirty := true
    lastObservedGeneration := some (state.observed sourceGeneration) }

def recordSuccess (state : WorkspaceCheckpointState) (sourceGeneration : UInt64)
    (snapshotId stateHash : String) : WorkspaceCheckpointState where
  dirty := false
  lastObservedGeneration := some (state.observed sourceGeneration)
  lastCheckpointGeneration := some sourceGeneration
  lastSnapshotId := some snapshotId
  lastStateHash := some stateHash
  repeatedFailures := 0

/-- `repeated_failures.saturating_add(1)` -/
def nextFailures (failures : UInt32) : UInt32 :=
  if failures.toNat + 1 < 2 ^ 32 then failures + 1 else failures

def recordFailure (state : WorkspaceCheckpointState) (sourceGeneration : UInt64) :
    WorkspaceCheckpointState :=
  { state with
    dirty := true
    lastObservedGeneration := some (state.observed sourceGeneration)
    repeatedFailures := nextFailures state.repeatedFailures }

end WorkspaceCheckpointState

/-! ## The manager -/

structure BackgroundCheckpointManager where
  failureNotificationThreshold : UInt32
  workspaces : SortedMap String WorkspaceCheckpointState

namespace BackgroundCheckpointManager

def withFailureNotificationThreshold (failureNotificationThreshold : UInt32) :
    BackgroundCheckpointManager where
  failureNotificationThreshold := max failureNotificationThreshold 1
  workspaces := .empty

def workspaceState (manager : BackgroundCheckpointManager) (workspaceId : String) :
    Option WorkspaceCheckpointState :=
  manager.workspaces.find? workspaceId

/-- `entry(workspace_id).or_default()`, changed in place. -/
def update (manager : BackgroundCheckpointManager) (workspaceId : String)
    (change : WorkspaceCheckpointState → WorkspaceCheckpointState) :
    BackgroundCheckpointManager :=
  { manager with workspaces := manager.workspaces.modify workspaceId {} change }

/-- The entry of a workspace, as it is after `or_default()`. -/
def entry (manager : BackgroundCheckpointManager) (workspaceId : String) :
    WorkspaceCheckpointState :=
  (manager.workspaceState workspaceId).getD {}

def markDirty (manager : BackgroundCheckpointManager) (workspace : BackgroundWorkspace)
    (sourceGeneration : UInt64) : BackgroundCheckpointManager × ProtectionStatusEvent :=
  (manager.update workspace.workspaceId fun state => state.markDirty sourceGeneration,
    protectionStatusEvent workspace .dirty sourceGeneration none none
      (manager.entry workspace.workspaceId).repeatedFailures false none)

/-- `captured` is what loading the manifest, reading the status and taking the checkpoint
end with. -/
def handleCheckpointInner (workspace : BackgroundWorkspace) (checkpoint : DebouncedCheckpoint)
    (captured : Except DevRelayError SnapshotCheckpointResult) :
    Except DevRelayError SnapshotCheckpointResult :=
  if checkpoint.workspaceId ≠ workspace.workspaceId then
    .error (.config ("debounced checkpoint for workspace " ++ checkpoint.workspaceId ++
      " does not match registered workspace " ++ workspace.workspaceId))
  else
    captured

def recordSuccess (manager : BackgroundCheckpointManager) (workspace : BackgroundWorkspace)
    (sourceGeneration : UInt64) (snapshotId stateHash : String) : BackgroundCheckpointManager :=
  manager.update workspace.workspaceId fun state =>
    state.recordSuccess sourceGeneration snapshotId stateHash

def recordCreated (manager : BackgroundCheckpointManager) (workspace : BackgroundWorkspace)
    (sourceGeneration : UInt64) (snapshot : Storage.StoredSnapshot) :
    BackgroundCheckpointManager × BackgroundCheckpointReport :=
  let snapshotId := snapshot.snapshotId
  let stateHash := snapshot.metadata.stateHash
  (manager.recordSuccess workspace sourceGeneration snapshotId stateHash,
    { projectId := workspace.projectId
      workspaceId := workspace.workspaceId
      sourceGeneration := sourceGeneration
      outcome := .created snapshotId stateHash
      snapshot := some snapshot
      event := protectionStatusEvent workspace .protected sourceGeneration (some snapshotId)
        (some stateHash) 0 false none })

def recordUnchanged (manager : BackgroundCheckpointManager) (workspace : BackgroundWorkspace)
    (sourceGeneration : UInt64) (snapshotId stateHash : String) :
    BackgroundCheckpointManager × BackgroundCheckpointReport :=
  (manager.recordSuccess workspace sourceGeneration snapshotId stateHash,
    { projectId := workspace.projectId
      workspaceId := workspace.workspaceId
      sourceGeneration := sourceGeneration
      outcome := .unchanged snapshotId stateHash
      snapshot := none
      event := protectionStatusEvent workspace .unchanged sourceGeneration (some snapshotId)
        (some stateHash) 0 false none })

/-- `detail` is the text of the error. -/
def recordFailure (manager : BackgroundCheckpointManager) (workspace : BackgroundWorkspace)
    (sourceGeneration : UInt64) (detail : String) :
    BackgroundCheckpointManager × BackgroundCheckpointReport :=
  let repeatedFailures :=
    ((manager.entry workspace.workspaceId).recordFailure sourceGeneration).repeatedFailures
  (manager.update workspace.workspaceId fun state => state.recordFailure sourceGeneration,
    { projectId := workspace.projectId
      workspaceId := workspace.workspaceId
      sourceGeneration := sourceGeneration
      outcome := .failed detail
      snapshot := none
      event := protectionStatusEvent workspace .failed sourceGeneration none none
        repeatedFailures (manager.failureNotificationThreshold ≤ repeatedFailures)
        (some detail) })

def handleCheckpoint (errorText : DevRelayError → String) (manager : BackgroundCheckpointManager)
    (workspace : BackgroundWorkspace) (checkpoint : DebouncedCheckpoint)
    (captured : Except DevRelayError SnapshotCheckpointResult) :
    BackgroundCheckpointManager × BackgroundCheckpointReport :=
  match handleCheckpointInner workspace checkpoint captured with
  | .ok (.created snapshot) => manager.recordCreated workspace checkpoint.sourceGeneration snapshot
  | .ok (.unchanged snapshotId stateHash) =>
    manager.recordUnchanged workspace checkpoint.sourceGeneration snapshotId stateHash
  | .error error => manager.recordFailure workspace checkpoint.sourceGeneration (errorText error)

end BackgroundCheckpointManager

/-! ## Histories -/

/-- One call of the manager. -/
inductive ManagerCall where
  | markDirty (workspace : BackgroundWorkspace) (sourceGeneration : UInt64)
  | handleCheckpoint (workspace : BackgroundWorkspace) (checkpoint : DebouncedCheckpoint)
      (captured : Except DevRelayError SnapshotCheckpointResult)

def BackgroundCheckpointManager.call (errorText : DevRelayError → String)
    (manager : BackgroundCheckpointManager) : ManagerCall → BackgroundCheckpointManager
  | .markDirty workspace sourceGeneration => (manager.markDirty workspace sourceGeneration).1
  | .handleCheckpoint workspace checkpoint captured =>
    (manager.handleCheckpoint errorText workspace checkpoint captured).1

/-- The manager after the first `n` calls. -/
def managerAt (errorText : DevRelayError → String) (threshold : UInt32)
    (calls : List ManagerCall) (n : Nat) : BackgroundCheckpointManager :=
  stateAt (BackgroundCheckpointManager.call errorText)
    (.withFailureNotificationThreshold threshold) calls n

namespace ManagerCall

def workspaceId : ManagerCall → String
  | markDirty workspace _ => workspace.workspaceId
  | handleCheckpoint workspace _ _ => workspace.workspaceId

def sourceGeneration : ManagerCall → UInt64
  | markDirty _ sourceGeneration => sourceGeneration
  | handleCheckpoint _ checkpoint _ => checkpoint.sourceGeneration

/-- A checkpoint that was taken, for the workspace it was asked for. -/
def succeeds : ManagerCall → Bool
  | markDirty _ _ => false
  | handleCheckpoint workspace checkpoint captured =>
    checkpoint.workspaceId = workspace.workspaceId && captured.isOk

end ManagerCall

/-- Everything observed is in the last checkpoint. -/
def WorkspaceCheckpointState.Covered (state : WorkspaceCheckpointState) : Prop :=
  ∀ observed, state.lastObservedGeneration = some observed →
    ∃ checkpoint, state.lastCheckpointGeneration = some checkpoint ∧ observed ≤ checkpoint

/-- A workspace that is not dirty is covered, and its last checkpoint never goes back. -/
structure TracksDirtiness (errorText : DevRelayError → String) (threshold : UInt32)
    (calls : List ManagerCall) : Prop where
  clean : ∀ n workspaceId state,
    (managerAt errorText threshold calls n).workspaceState workspaceId = some state →
      state.dirty = false → state.Covered
  monotone : ∀ m n, m ≤ n → ∀ workspaceId state checkpoint,
    (managerAt errorText threshold calls m).workspaceState workspaceId = some state →
      state.lastCheckpointGeneration = some checkpoint →
        ∃ state' checkpoint',
          (managerAt errorText threshold calls n).workspaceState workspaceId = some state' ∧
            state'.lastCheckpointGeneration = some checkpoint' ∧ checkpoint ≤ checkpoint'

/-- A success is never for an older generation than a call before it. -/
def SuccessesUpToDate (calls : List ManagerCall) : Prop :=
  ∀ i j, (hi : i < calls.length) → (hj : j < i) → calls[i].succeeds = true →
    calls[j].workspaceId = calls[i].workspaceId →
      calls[j].sourceGeneration ≤ calls[i].sourceGeneration

end DevRelay.Background
