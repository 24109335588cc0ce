import DevRelay.Lib.Checks
import DevRelay.Storage.JournalCompleteness
import DevRelay.Storage.Stepwise

/-!
# Remote handoff calls

The handoff functions of `remote_rpc.rs`, each on behalf of an authenticated
device.  The record that the actor and the project are checked on is read before
the transaction that changes it, so a call is a thread over the store.
-/

namespace DevRelay.Remote

open DevRelay.Lib DevRelay.Core DevRelay.Storage

def DEFAULT_REMOTE_HANDOFF_TTL_SECONDS : UInt64 := 600

/-! ## Parameters and results -/

structure HandoffBeginParams where
  project : String
  leaseId : String
  targetDeviceId : String
  sourceGeneration : String
  ttlSeconds : Option UInt64
  deriving DecidableEq, Repr

structure HandoffIdParams where
  project : String
  handoffId : String
  deriving DecidableEq, Repr

structure HandoffCommitParams where
  project : String
  handoffId : String
  observedSourceGeneration : String
  deriving DecidableEq, Repr

structure HandoffRecoverParams where
  project : String
  handoffId : String
  observedSourceGeneration : String
  deriving DecidableEq, Repr

structure HandoffMutationResult where
  handoff : HandoffRecord
  journal : List HandoffJournalRecord
  deriving DecidableEq, Repr

structure HandoffRecoverResult where
  outcome : HandoffRecoveryOutcome
  handoff : HandoffRecord
  journal : List HandoffJournalRecord
  deriving DecidableEq, Repr

/-! ## Checks -/

def requireProject (actual expected operation : String) : Except DevRelayError Unit :=
  require (actual = expected) (.config (operation ++ " project mismatch: expected " ++
    expected ++ ", got " ++ actual))

def requireActor (expected : Option String) (actorDeviceId operation : String) :
    Except DevRelayError Unit :=
  require (expected = some actorDeviceId) (.config (operation ++
    " actor mismatch: expected " ++ expected.getD "<none>" ++ ", got " ++ actorDeviceId))

def requireSourceOrTargetActor (handoff : HandoffRecord)
    (actorDeviceId operation : String) : Except DevRelayError Unit :=
  require (actorDeviceId = handoff.sourceDeviceId ∨ actorDeviceId = handoff.targetDeviceId)
    (.config (operation ++ " actor mismatch: expected source " ++ handoff.sourceDeviceId ++
      " or target " ++ handoff.targetDeviceId ++ ", got " ++ actorDeviceId))

def requireHandoffProject (expectedProject handoffId : String) : SqlThread HandoffRecord := do
  let handoff ← readStep fun db => db.getHandoff handoffId
  match handoff with
  | none => Thread.fail (.config ("unknown handoff " ++ handoffId))
  | some handoff => do
    Thread.ofExcept (requireProject handoff.projectId expectedProject "remote handoff")
    pure handoff

def handoffMutationResult (handoff : HandoffRecord) : SqlThread HandoffMutationResult := do
  let journal ← readStep fun db => db.listHandoffJournal handoff.handoffId
  pure { handoff, journal }

/-! ## Calls -/

def remoteHandoffBegin (actorDeviceId : String) (params : HandoffBeginParams) :
    SqlThread HandoffMutationResult := do
  let lease ← readStep fun db => db.getLease params.leaseId
  match lease with
  | none => Thread.fail (.config ("unknown lease " ++ params.leaseId))
  | some lease => do
    Thread.ofExcept (requireProject lease.projectId params.project "handoff.begin")
    Thread.ofExcept
      (requireActor lease.holderDeviceId actorDeviceId "handoff.begin source")
    let handoff ← Thread.atomically fun env =>
      beginHandoff env params.leaseId actorDeviceId params.targetDeviceId
        params.sourceGeneration
        (params.ttlSeconds.getD DEFAULT_REMOTE_HANDOFF_TTL_SECONDS)
    handoffMutationResult handoff

def remoteHandoffTargetVerify (actorDeviceId : String) (params : HandoffIdParams) :
    SqlThread HandoffMutationResult := do
  let handoff ← requireHandoffProject params.project params.handoffId
  Thread.ofExcept (requireActor (some handoff.targetDeviceId) actorDeviceId
    "handoff.target.verify target")
  let handoff ← Thread.atomically fun env =>
    markHandoffTargetVerified env params.handoffId
  handoffMutationResult handoff

def remoteHandoffSourceReady (actorDeviceId : String) (params : HandoffIdParams) :
    SqlThread HandoffMutationResult := do
  let handoff ← requireHandoffProject params.project params.handoffId
  Thread.ofExcept (requireActor (some handoff.sourceDeviceId) actorDeviceId
    "handoff.source.ready source")
  let handoff ← Thread.atomically fun env => markHandoffSourceReady env params.handoffId
  handoffMutationResult handoff

def remoteHandoffCommit (actorDeviceId : String) (params : HandoffCommitParams)
    (nowUnixSeconds : UInt64) : SqlThread HandoffMutationResult := do
  let handoff ← requireHandoffProject params.project params.handoffId
  Thread.ofExcept (requireActor (some handoff.sourceDeviceId) actorDeviceId
    "handoff.commit source")
  let handoff ← commitHandoffSteps params.handoffId params.observedSourceGeneration
    nowUnixSeconds none
  handoffMutationResult handoff

def remoteHandoffAbort (actorDeviceId : String) (params : HandoffIdParams) :
    SqlThread HandoffMutationResult := do
  let handoff ← requireHandoffProject params.project params.handoffId
  Thread.ofExcept (requireSourceOrTargetActor handoff actorDeviceId "handoff.abort")
  let handoff ← Thread.atomically fun env => abortHandoff env params.handoffId
  handoffMutationResult handoff

def remoteHandoffRecover (actorDeviceId : String) (params : HandoffRecoverParams)
    (nowUnixSeconds : UInt64) : SqlThread HandoffRecoverResult := do
  let handoff ← requireHandoffProject params.project params.handoffId
  Thread.ofExcept (requireSourceOrTargetActor handoff actorDeviceId "handoff.recover")
  let outcome ← recoverHandoffSteps params.handoffId params.observedSourceGeneration
    nowUnixSeconds
  let handoff ← requireHandoffProject params.project params.handoffId
  let journal ← readStep fun db => db.listHandoffJournal params.handoffId
  pure { outcome, handoff, journal }

/-! ## Any of them -/

inductive RemoteHandoffMethod where
  | begin (params : HandoffBeginParams)
  | targetVerify (params : HandoffIdParams)
  | sourceReady (params : HandoffIdParams)
  | commit (params : HandoffCommitParams) (nowUnixSeconds : UInt64)
  | abort (params : HandoffIdParams)
  | recover (params : HandoffRecoverParams) (nowUnixSeconds : UInt64)
  deriving DecidableEq, Repr

structure RemoteHandoffCall where
  actorDeviceId : String
  method : RemoteHandoffMethod
  deriving DecidableEq, Repr

inductive RemoteHandoffReply where
  | mutation (result : HandoffMutationResult)
  | recovery (result : HandoffRecoverResult)
  deriving DecidableEq, Repr

def RemoteHandoffCall.program (call : RemoteHandoffCall) : SqlThread RemoteHandoffReply :=
  match call.method with
  | .begin params => do
    let result ← remoteHandoffBegin call.actorDeviceId params
    pure (.mutation result)
  | .targetVerify params => do
    let result ← remoteHandoffTargetVerify call.actorDeviceId params
    pure (.mutation result)
  | .sourceReady params => do
    let result ← remoteHandoffSourceReady call.actorDeviceId params
    pure (.mutation result)
  | .commit params now => do
    let result ← remoteHandoffCommit call.actorDeviceId params now
    pure (.mutation result)
  | .abort params => do
    let result ← remoteHandoffAbort call.actorDeviceId params
    pure (.mutation result)
  | .recover params now => do
    let result ← remoteHandoffRecover call.actorDeviceId params now
    pure (.recovery result)

end DevRelay.Remote
