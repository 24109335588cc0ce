import DevRelay.Agent.EventLog
import DevRelay.Remote.Handoffs
import Mathlib.Data.List.Sort

/-!
# The handoff handlers of the agent

The handlers of `main.rs` that change handoffs: the local ones, the remote ones,
and the handler of editor events.  Connections are served at the same time, each
on a database handle of its own, so a handler is a thread over the home: the
databases, the event log and the edit counters.  The configuration does not
change while they run.
-/

namespace DevRelay.Agent

open DevRelay.Lib DevRelay.Core DevRelay.Storage DevRelay.Remote

def DEFAULT_HANDOFF_TTL_SECONDS : UInt64 := 600

def MAX_HANDOFF_TTL_SECONDS : UInt64 := 86400

/-! ## Events -/

structure HandoffStateChangedEvent where
  projectId : String
  handoffId : String
  leaseId : String
  previousState : Option HandoffState
  state : HandoffState
  sourceDeviceId : String
  targetDeviceId : String
  expiresAtUnixSeconds : UInt64
  deriving DecidableEq, Repr

def HandoffStateChangedEvent.fromHandoff (handoff : HandoffRecord)
    (previousState : Option HandoffState) : HandoffStateChangedEvent where
  projectId := handoff.projectId
  handoffId := handoff.handoffId
  leaseId := handoff.leaseId
  previousState := previousState
  state := handoff.state
  sourceDeviceId := handoff.sourceDeviceId
  targetDeviceId := handoff.targetDeviceId
  expiresAtUnixSeconds := handoff.expiresAtUnixSeconds

/-- The payload of an event: a change of a handoff, or the JSON text of another
event. -/
inductive AgentEventPayload where
  | handoffStateChanged (event : HandoffStateChangedEvent)
  | other (json : String)
  deriving DecidableEq, Repr

/-- Serialising this event does not fail. -/
def HandoffStateChangedEvent.typedPayload (event : HandoffStateChangedEvent) :
    TypedEventPayload AgentEventPayload where
  eventType := .handoffStateChanged
  toValue := .ok (.handoffStateChanged event)

/-! ## The home and what a step finds -/

structure AgentConfig where
  deviceId : String
  /-- the keys of `project_registry.projects` -/
  projects : List String
  /-- `project_registry.workspace_by_path`, as the id of the project -/
  workspaceByPath : String → Option String

structure AgentWorld where
  /-- `state.database_path`: the devices known to the home and the revocations -/
  devices : List String
  registry : MetadataDb
  /-- the database of each project -/
  projectDb : String → MetadataDb
  events : EventStream AgentEventPayload
  editorSourceGenerations : String → UInt64

def AgentWorld.setProjectDb (self : AgentWorld) (project : String) (db : MetadataDb) : AgentWorld :=
  { self with projectDb := Function.update self.projectDb project db }

structure AgentInput where
  env : Env
  /-- the failure of opening a database -/
  openFault : Option DevRelayError
  /-- the clock of the event log -/
  nowUnixMillis : UInt64
  /-- `path.canonicalize()` -/
  canonicalize : String → Option String
  /-- the certificate of a remote frame -/
  certificateId : String

inductive AgentError where
  | bail (text : String)
  | devRelay (error : DevRelayError)
  deriving DecidableEq, Repr

inductive RpcError where
  | internal (detail : AgentError)
  | invalidRequest (detail : AgentError)
  /-- `remote_rpc_error_from_devrelay` -/
  | fromDevRelay (error : DevRelayError)
  /-- the refusal of a remote request whose revocations could not be read -/
  | revocationState (error : DevRelayError)
  /-- a refusal by `authenticate_remote_control_frame` -/
  | unauthenticated (error : DevRelayError)
  deriving DecidableEq, Repr

def RpcError.ofDevRelay (error : DevRelayError) : RpcError := .internal (.devRelay error)

abbrev AgentThread := Thread AgentInput AgentWorld RpcError

section

variable {α : Type}

/-- Work on the database of a project. -/
def onProject (project : String) (err : DevRelayError → RpcError) (p : SqlThread α) :
    AgentThread α :=
  p.embed AgentInput.env (fun world => world.projectDb project)
    (fun db world => world.setProjectDb project db) err

/-- A read of the device registry. -/
def registryStep (err : DevRelayError → RpcError) (f : AgentWorld → α) : AgentThread α :=
  Thread.observe fun input world =>
    match input.env.readFault with
    | some e => .error (err e)
    | none => .ok (f world)

/-- `MetadataDb::open` -/
def openDb (err : DevRelayError → RpcError) : AgentThread Unit :=
  Thread.observe fun input _ =>
    match input.openFault with
    | some e => .error (err e)
    | none => .ok ()

end

/-! ## Helpers -/

def openRegisteredProjectDb (config : AgentConfig) (err : AgentError → RpcError)
    (projectId : String) : AgentThread Unit := do
  Thread.ofExcept (require (projectId ∈ config.projects)
    (err (.bail ("unknown project " ++ projectId))))
  openDb fun e => err (.devRelay e)

/-- `ensure_device_not_revoked` on the device registry. -/
def ensureDeviceNotRevoked (err : DevRelayError → RpcError)
    (deviceId operation : String) : AgentThread Unit :=
  Thread.observe fun input world =>
    match input.env.readFault with
    | some e => .error (err e)
    | none => ((ensureDeviceNotRevokedConn deviceId operation).run world.registry).1.mapError err

def ensureKnownTargetDevice (err : AgentError → RpcError) (targetDeviceId : String) :
    AgentThread Unit := do
  openDb fun e => err (.devRelay e)
  let known ← registryStep (fun e => err (.devRelay e)) fun world =>
    decide (targetDeviceId ∈ world.devices)
  Thread.ofExcept (require (known = true)
    (err (.bail ("unknown target device " ++ targetDeviceId))))
  ensureDeviceNotRevoked (fun e => err (.devRelay e)) targetDeviceId "begin handoff"

def publishHandoffStateChanged (handoff : HandoffRecord)
    (previousState : Option HandoffState) : AgentThread Unit :=
  if previousState = some handoff.state then
    pure ()
  else
    Thread.atomically fun input world =>
      match world.events.publish input.nowUnixMillis
          (HandoffStateChangedEvent.fromHandoff handoff previousState).typedPayload with
      | (.ok _, events) => (.ok (), { world with events })
      | (.error e, events) => (.error (.internal (.devRelay e)), { world with events })

/-- The state that the event of a call names as the previous one. -/
def readPreviousState (project : String) (err : DevRelayError → RpcError)
    (handoffId : String) : AgentThread (Option HandoffState) :=
  onProject project err (readStep fun db => (db.getHandoff handoffId).map HandoffRecord.state)

/-! ## Local handlers -/

def handleHandoffBegin (config : AgentConfig) (params : HandoffBeginParams) :
    AgentThread HandoffMutationResult := do
  let ttlSeconds := min MAX_HANDOFF_TTL_SECONDS
    (max 1 (params.ttlSeconds.getD DEFAULT_HANDOFF_TTL_SECONDS))
  ensureKnownTargetDevice .internal params.targetDeviceId
  openRegisteredProjectDb config .internal params.project
  let handoff ← onProject params.project .ofDevRelay
    (Thread.atomically fun env => beginHandoff env params.leaseId config.deviceId
      params.targetDeviceId params.sourceGeneration ttlSeconds)
  let result ← onProject params.project .ofDevRelay (handoffMutationResult handoff)
  publishHandoffStateChanged result.handoff none
  pure result

/-- `mutate` is a transaction, or what `commit_handoff` does. -/
def handleHandoffMutation (config : AgentConfig) (project handoffId : String)
    (mutate : SqlThread HandoffRecord) : AgentThread HandoffMutationResult := do
  openRegisteredProjectDb config .internal project
  let previousState ← readPreviousState project .ofDevRelay handoffId
  let handoff ← onProject project .ofDevRelay mutate
  let result ← onProject project .ofDevRelay (handoffMutationResult handoff)
  publishHandoffStateChanged result.handoff previousState
  pure result

def handleHandoffTargetVerify (config : AgentConfig) (params : HandoffIdParams) :
    AgentThread HandoffMutationResult :=
  handleHandoffMutation config params.project params.handoffId
    (Thread.atomically fun env => markHandoffTargetVerified env params.handoffId)

def handleHandoffSourceReady (config : AgentConfig) (params : HandoffIdParams) :
    AgentThread HandoffMutationResult :=
  handleHandoffMutation config params.project params.handoffId
    (Thread.atomically fun env => markHandoffSourceReady env params.handoffId)

def handleHandoffAbort (config : AgentConfig) (params : HandoffIdParams) :
    AgentThread HandoffMutationResult :=
  handleHandoffMutation config params.project params.handoffId
    (Thread.atomically fun env => abortHandoff env params.handoffId)

def handleHandoffCommit (config : AgentConfig) (params : HandoffCommitParams)
    (nowUnixSeconds : UInt64) : AgentThread HandoffMutationResult :=
  handleHandoffMutation config params.project params.handoffId
    (commitHandoffSteps params.handoffId params.observedSourceGeneration nowUnixSeconds none)

def handleHandoffRecover (config : AgentConfig) (params : HandoffRecoverParams)
    (nowUnixSeconds : UInt64) : AgentThread HandoffRecoverResult := do
  openRegisteredProjectDb config .internal params.project
  let previousState ← readPreviousState params.project .ofDevRelay params.handoffId
  let outcome ← onProject params.project .ofDevRelay
    (recoverHandoffSteps params.handoffId params.observedSourceGeneration nowUnixSeconds)
  let handoff ← onProject params.project .ofDevRelay
    (readStep fun db => db.getHandoff params.handoffId)
  match handoff with
  | none =>
    Thread.fail (.internal (.bail ("handoff " ++ params.handoffId ++ " disappeared")))
  | some handoff => do
    let journal ← onProject params.project .ofDevRelay
      (readStep fun db => db.listHandoffJournal params.handoffId)
    publishHandoffStateChanged handoff previousState
    pure { outcome, handoff, journal }

/-! ## Remote handlers -/

/-- What happens to a request before it is dispatched, with the refusal of a
revoked certificate; the other checks of the frame are passed. -/
def processRemoteFrame (actorDeviceId : String) : AgentThread Unit := do
  openDb .revocationState
  Thread.observe fun input world =>
    match input.env.readFault with
    | some e => .error (.revocationState e)
    | none =>
      require (world.registry.getDeviceRevocation actorDeviceId = none)
        (.unauthenticated (.config ("device certificate " ++ input.certificateId ++
          " rejected: device " ++ actorDeviceId ++ " is revoked")))

def handleRemoteHandoffBegin (config : AgentConfig) (actorDeviceId : String)
    (params : HandoffBeginParams) : AgentThread HandoffMutationResult := do
  ensureKnownTargetDevice .invalidRequest params.targetDeviceId
  openRegisteredProjectDb config .invalidRequest params.project
  let result ← onProject params.project .fromDevRelay
    (remoteHandoffBegin actorDeviceId params)
  publishHandoffStateChanged result.handoff none
  pure result

/-- `mutate` is one of the functions of `remote_rpc.rs`. -/
def handleRemoteHandoffMutation (config : AgentConfig) (project handoffId : String)
    (mutate : SqlThread HandoffMutationResult) : AgentThread HandoffMutationResult := do
  openRegisteredProjectDb config .invalidRequest project
  let previousState ← readPreviousState project .fromDevRelay handoffId
  let result ← onProject project .fromDevRelay mutate
  publishHandoffStateChanged result.handoff previousState
  pure result

def handleRemoteHandoffTargetVerify (config : AgentConfig) (actorDeviceId : String)
    (params : HandoffIdParams) : AgentThread HandoffMutationResult :=
  handleRemoteHandoffMutation config params.project params.handoffId
    (remoteHandoffTargetVerify actorDeviceId params)

def handleRemoteHandoffSourceReady (config : AgentConfig) (actorDeviceId : String)
    (params : HandoffIdParams) : AgentThread HandoffMutationResult :=
  handleRemoteHandoffMutation config params.project params.handoffId
    (remoteHandoffSourceReady actorDeviceId params)

def handleRemoteHandoffAbort (config : AgentConfig) (actorDeviceId : String)
    (params : HandoffIdParams) : AgentThread HandoffMutationResult :=
  handleRemoteHandoffMutation config params.project params.handoffId
    (remoteHandoffAbort actorDeviceId params)

def handleRemoteHandoffCommit (config : AgentConfig) (actorDeviceId : String)
    (params : HandoffCommitParams) (nowUnixSeconds : UInt64) :
    AgentThread HandoffMutationResult :=
  handleRemoteHandoffMutation config params.project params.handoffId
    (remoteHandoffCommit actorDeviceId params nowUnixSeconds)

def handleRemoteHandoffRecover (config : AgentConfig) (actorDeviceId : String)
    (params : HandoffRecoverParams) (nowUnixSeconds : UInt64) :
    AgentThread HandoffRecoverResult := do
  openRegisteredProjectDb config .invalidRequest params.project
  let previousState ← readPreviousState params.project .fromDevRelay params.handoffId
  let result ← onProject params.project .fromDevRelay
    (remoteHandoffRecover actorDeviceId params nowUnixSeconds)
  publishHandoffStateChanged result.handoff previousState
  pure result

/-! ## Editor events -/

inductive EditorEventKind where
  | textDocumentChanged
  | textDocumentSaved
  | activeEditorChanged
  deriving DecidableEq, Repr

structure EditorEventRecordParams where
  project : Option String
  workspacePath : Option String
  eventKind : EditorEventKind
  meaningfulEdit : Bool
  deriving DecidableEq, Repr

structure EditorEventRecordResult where
  project : Option String
  sourceGeneration : UInt64
  abortedHandoffs : List HandoffRecord
  deriving DecidableEq, Repr

/-- `str::trim` -/
def trim (text : String) : String :=
  String.ofList (Lib.trim text.toList)

def resolveEditorEventProject (config : AgentConfig) (params : EditorEventRecordParams) :
    AgentThread (Option String) :=
  match params.project, params.workspacePath with
  | some project, _ => do
    let project := trim project
    Thread.ofExcept (require (project ≠ "")
      (.internal (.bail "project must not be empty")))
    Thread.ofExcept (require (project ∈ config.projects)
      (.internal (.bail ("unknown project " ++ project))))
    pure (some project)
  | none, none => pure none
  | none, some path =>
    match config.workspaceByPath path with
    | some project => pure (some project)
    | none =>
      Thread.observe fun input _ =>
        .ok ((input.canonicalize path).bind config.workspaceByPath)

def editorSourceGenerationKey (project workspacePath : Option String) : String :=
  match project, workspacePath with
  | some project, _ => "project:" ++ project
  | none, some workspacePath => "workspace:" ++ workspacePath
  | none, none => "workspace:unknown"

/-- The counter of a key, one higher after a meaningful edit. -/
def bumpSourceGeneration (key : String) (increments : Bool) : AgentThread UInt64 :=
  Thread.atomically fun _ world =>
    let generation := world.editorSourceGenerations key
    let generation := if increments then saturatingAdd generation 1 else generation
    (.ok generation, { world with
      editorSourceGenerations :=
        Function.update world.editorSourceGenerations key generation })

/-- `list_handoffs(Some(project))` -/
def listHandoffs (project : String) (db : MetadataDb) : List HandoffRecord :=
  ((db.handoffs.rows.filter fun r => r.projectId = project).insertionSort
    fun a b => a.handoffId ≤ b.handoffId).map handoffRecordFromRow

/-- What an edit on the source has to stop. -/
def pendingFrom (deviceId : String) (handoff : HandoffRecord) : Bool :=
  !handoff.state.isTerminal && handoff.sourceDeviceId = deviceId

/-- The loop over the listed handoffs. -/
def abortPendingHandoffs (project : String) :
    List HandoffRecord → List HandoffRecord → AgentThread (List HandoffRecord)
  | [], aborted => pure aborted
  | handoff :: pending, aborted => do
    let next ← onProject project .ofDevRelay (Thread.atomically fun env =>
      abortHandoffWithReason env handoff.handoffId
        "source generation changed by editor event")
    publishHandoffStateChanged next (some handoff.state)
    abortPendingHandoffs project pending (aborted ++ [next])

def abortSourceHandoffsAfterEditorEdit (config : AgentConfig) (project : Option String) :
    AgentThread (List HandoffRecord) :=
  match project with
  | none => pure []
  | some project => do
    openRegisteredProjectDb config .internal project
    let handoffs ← onProject project .ofDevRelay (readStep (listHandoffs project))
    abortPendingHandoffs project (handoffs.filter (pendingFrom config.deviceId)) []

def EditorEventRecordParams.incrementsGeneration (params : EditorEventRecordParams) : Bool :=
  params.eventKind = .textDocumentChanged && params.meaningfulEdit

def handleEditorEventRecord (config : AgentConfig) (params : EditorEventRecordParams) :
    AgentThread EditorEventRecordResult := do
  let project ← resolveEditorEventProject config params
  let sourceGeneration ← bumpSourceGeneration
    (editorSourceGenerationKey project params.workspacePath) params.incrementsGeneration
  let abortedHandoffs ←
    (if params.incrementsGeneration then
      abortSourceHandoffsAfterEditorEdit config project
    else
      pure [])
  pure { project, sourceGeneration, abortedHandoffs }

/-! ## Any of them -/

abbrev HandoffMethod := RemoteHandoffMethod

inductive AgentCall where
  | ipc (method : HandoffMethod)
  | remote (actorDeviceId : String) (method : HandoffMethod)
  | editorEvent (params : EditorEventRecordParams)
  deriving DecidableEq, Repr

inductive AgentReply where
  | mutation (result : HandoffMutationResult)
  | recovery (result : HandoffRecoverResult)
  | editorEvent (result : EditorEventRecordResult)
  deriving DecidableEq, Repr

/-- The local handler of a method. -/
def ipcProgram (config : AgentConfig) : HandoffMethod → AgentThread AgentReply
  | .begin params => AgentReply.mutation <$> handleHandoffBegin config params
  | .targetVerify params =>
    AgentReply.mutation <$> handleHandoffTargetVerify config params
  | .sourceReady params => AgentReply.mutation <$> handleHandoffSourceReady config params
  | .commit params now => AgentReply.mutation <$> handleHandoffCommit config params now
  | .abort params => AgentReply.mutation <$> handleHandoffAbort config params
  | .recover params now => AgentReply.recovery <$> handleHandoffRecover config params now

/-- `dispatch_remote_request` -/
def dispatchRemoteRequest (config : AgentConfig) (actor : String) :
    HandoffMethod → AgentThread AgentReply
  | .begin params => AgentReply.mutation <$> handleRemoteHandoffBegin config actor params
  | .targetVerify params =>
    AgentReply.mutation <$> handleRemoteHandoffTargetVerify config actor params
  | .sourceReady params =>
    AgentReply.mutation <$> handleRemoteHandoffSourceReady config actor params
  | .commit params now =>
    AgentReply.mutation <$> handleRemoteHandoffCommit config actor params now
  | .abort params => AgentReply.mutation <$> handleRemoteHandoffAbort config actor params
  | .recover params now =>
    AgentReply.recovery <$> handleRemoteHandoffRecover config actor params now

def AgentCall.program (config : AgentConfig) : AgentCall → AgentThread AgentReply
  | .ipc method => ipcProgram config method
  | .remote actorDeviceId method => do
    processRemoteFrame actorDeviceId
    dispatchRemoteRequest config actorDeviceId method
  | .editorEvent params => AgentReply.editorEvent <$> handleEditorEventRecord config params

/-! ## A home with two devices -/

def emptyStore : MetadataDb where
  projects := .empty
  sessions := .empty
  snapshots := .empty
  leases := .empty
  handoffs := .empty
  handoffJournal := []
  deviceRevocations := .empty
  auditEvents := []

def demoConfig : AgentConfig where
  deviceId := "device-a"
  projects := ["project-1"]
  workspaceByPath _ := none

/-- The first device runs the agent and holds the lease of the project. -/
def demoHome : AgentWorld where
  devices := ["device-a", "device-b"]
  registry := emptyStore
  projectDb := Function.update (fun _ => emptyStore) "project-1" demoStore
  events := .start
  editorSourceGenerations _ := 0

def demoInput (now : UInt64) : AgentInput where
  env := demoEnv now
  openFault := none
  nowUnixMillis := now * 1000
  canonicalize _ := none
  certificateId := "cert-1"

/-- The call with the number `i` arrives and runs for some steps. -/
def demoCall (i : Nat) (call : AgentCall) (steps : Nat) (now : UInt64) :
    List (Move AgentCall AgentInput) :=
  .arrive call :: List.replicate steps (.advance i (demoInput now))

def demoBegin : AgentCall :=
  .ipc (.begin ⟨"project-1", "lease-1", "device-b", "gen-1", some 60⟩)

end DevRelay.Agent
