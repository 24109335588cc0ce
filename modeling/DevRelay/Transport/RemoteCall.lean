import DevRelay.Lib.ByteStream
import DevRelay.Transport.Replay
import DevRelay.Trust.Certificates

/-!
# Calls over the remote transport

The framing of `ipc.rs` and `RemoteControlClient::call` of `remote_transport.rs`.  JSON values
are kept by their texts, and the JSON writer and reader are parameters.
-/

namespace DevRelay.Transport

open DevRelay.Core DevRelay.Lib DevRelay.Trust

def lengthPrefixBytes : Nat := 4

/-- The timeouts are in nanoseconds. -/
structure IpcLimits where
  connectTimeout : Nat
  requestTimeout : Nat
  maxMessageBytes : Nat
  deriving DecidableEq, Repr

namespace IpcLimits

def default : IpcLimits where
  connectTimeout := 2 * 10 ^ 9
  requestTimeout := 30 * 10 ^ 9
  maxMessageBytes := 1024 * 1024

def validate (self : IpcLimits) : Except DevRelayError Unit :=
  if self.connectTimeout = 0 then
    .error (.ipc "IPC connect timeout must be greater than zero")
  else if self.requestTimeout = 0 then
    .error (.ipc "IPC request timeout must be greater than zero")
  else if self.maxMessageBytes = 0 then
    .error (.ipc "IPC max message size must be greater than zero")
  else .ok ()

theorem validate_default : default.validate = .ok () := by decide

end IpcLimits

/-! ## Frames -/

/-- `u32::to_be_bytes` -/
def toBeBytes (n : Nat) : List UInt8 :=
  [UInt8.ofNat (n / 2 ^ 24), UInt8.ofNat (n / 2 ^ 16), UInt8.ofNat (n / 2 ^ 8), UInt8.ofNat n]

/-- `u32::from_be_bytes` -/
def fromBeBytes (bytes : List UInt8) : Nat := bytes.foldl (fun n b => n * 256 + b.toNat) 0

theorem fromBeBytes_toBeBytes {n : Nat} (h : n < 2 ^ 32) : fromBeBytes (toBeBytes n) = n := by
  simp only [fromBeBytes, toBeBytes, List.foldl_cons, List.foldl_nil, UInt8.toNat_ofNat']
  omega

/-- A payload behind its length. -/
def lengthFrame (payload : List UInt8) : List UInt8 := toBeBytes payload.length ++ payload

@[simp] theorem length_lengthFrame (payload : List UInt8) :
    (lengthFrame payload).length = 4 + payload.length := by
  rw [lengthFrame, List.length_append]
  rfl

abbrev IpcStream := StreamProg DevRelayError

def isIoTimeout (failure : IoFailure) : Bool :=
  failure.kind = .timedOut || failure.kind = .wouldBlock

def readExactOrIpc (count : Nat) (malformedMessage : String) : IpcStream (List UInt8) :=
  .readExact count fun
    | .ok bytes => .done bytes
    | .error failure =>
      if failure.kind = .unexpectedEof then .fail (.ipc malformedMessage)
      else if isIoTimeout failure then .fail (.ipc "timed out reading IPC message")
      else .fail (.io failure.detail)

def writeAllOrIpc (bytes : List UInt8) : IpcStream Unit :=
  .writeAll bytes fun
    | .ok _ => .done ()
    | .error failure =>
      if isIoTimeout failure then .fail (.ipc "timed out writing IPC message")
      else .fail (.io failure.detail)

/-- `stream.flush()`: what was written before may still be on its way when it fails. -/
def flushOrIpc : IpcStream Unit :=
  .writeAll [] fun
    | .ok _ => .done ()
    | .error failure => .fail (.ipc ("failed to flush IPC message: " ++ failure.detail))

def messageTooLarge (size maxMessageBytes : Nat) : DevRelayError :=
  .ipc ("IPC message size " ++ toString size ++ " exceeds configured maximum " ++
    toString maxMessageBytes)

def readFramedMessage (limits : IpcLimits) : IpcStream (List UInt8) := do
  StreamProg.ofExcept limits.validate
  let lenBytes ← readExactOrIpc lengthPrefixBytes
    "malformed IPC message: missing length prefix"
  let len := fromBeBytes lenBytes
  if len > limits.maxMessageBytes then .fail (messageTooLarge len limits.maxMessageBytes)
  else readExactOrIpc len "malformed IPC message: truncated payload"

/-- The checks before the first byte is written. -/
def checkMessage (payload : List UInt8) (limits : IpcLimits) : Except DevRelayError Unit := do
  limits.validate
  if payload.length > limits.maxMessageBytes then
    throw (messageTooLarge payload.length limits.maxMessageBytes)
  else if payload.length ≥ 2 ^ 32 then throw (.ipc "IPC message is too large to encode")
  else return ()

theorem checkMessage_eq_ok {payload : List UInt8} {limits : IpcLimits} {u : Unit} :
    checkMessage payload limits = .ok u ↔ limits.validate = .ok () ∧
      payload.length ≤ limits.maxMessageBytes ∧ payload.length < 2 ^ 32 := by
  unfold checkMessage
  cases hvalid : limits.validate with
  | error e => exact iff_of_false (by rintro ⟨⟩) fun h => nomatch h.1
  | ok _ =>
    simp only [bind, Except.bind]
    split_ifs with hmax hencode
    · exact iff_of_false (by rintro ⟨⟩) fun h => absurd h.2.1 (Nat.not_le.mpr hmax)
    · exact iff_of_false (by rintro ⟨⟩) fun h => absurd h.2.2 (Nat.not_lt.mpr hencode)
    · exact iff_of_true rfl ⟨trivial, Nat.not_lt.mp hmax, Nat.not_le.mp hencode⟩

def writeFramedMessage (payload : List UInt8) (limits : IpcLimits) : IpcStream Unit := do
  StreamProg.ofExcept (checkMessage payload limits)
  writeAllOrIpc (toBeBytes payload.length)
  writeAllOrIpc payload
  flushOrIpc

section Returns

variable {σ κ : Type} {d : Duplex σ κ} {s : σ}

theorem returns_readExactOrIpc {count : Nat} {malformedMessage : String} {Q : List UInt8 → σ → Prop}
    (h : ∀ moves : List κ, count ≤ (d.arrived (moves.foldl d.peer s)).length →
      Q ((d.arrived (moves.foldl d.peer s)).take count)
        (d.consume count (moves.foldl d.peer s))) :
    (readExactOrIpc count malformedMessage).Returns d Q s := by
  intro moves
  refine ⟨h moves, fun got failure => ?_⟩
  simp only
  split_ifs <;> trivial

theorem returns_writeAllOrIpc {bytes : List UInt8} {Q : Unit → σ → Prop}
    (h : ∀ moves : List κ, Q () (d.write bytes (moves.foldl d.peer s))) :
    (writeAllOrIpc bytes).Returns d Q s := by
  intro moves
  refine ⟨h moves, fun count failure => ?_⟩
  simp only
  split_ifs <;> trivial

theorem returns_flushOrIpc {Q : Unit → σ → Prop}
    (h : ∀ moves : List κ, Q () (d.write [] (moves.foldl d.peer s))) :
    flushOrIpc.Returns d Q s :=
  fun moves => ⟨h moves, fun _ _ => trivial⟩

end Returns

/-! ## Requests -/

inductive RpcId where
  | string (id : String)
  | number (id : UInt64)
  deriving DecidableEq, Repr

structure RpcRequest where
  jsonrpc : String
  id : Option RpcId
  method : String
  params : String
  deriving DecidableEq, Repr

structure RpcError where
  code : Int
  message : String
  data : Option String
  deriving DecidableEq, Repr

structure RpcResponse where
  jsonrpc : String
  id : Option RpcId
  result : Option String
  error : Option RpcError
  deriving DecidableEq, Repr

def rpcJsonrpcVersion : String := "2.0"

structure RemoteControlFrame where
  control : ControlPlaneRequestEnvelope
  deviceCertificate : DeviceCertificate
  rpc : String
  deriving DecidableEq, Repr

/-- The JSON writer and reader. -/
structure JsonCodec where
  requestText : RpcRequest → Except DevRelayError String
  frameBytes : RemoteControlFrame → Except DevRelayError (List UInt8)
  readResponse : List UInt8 → Except DevRelayError RpcResponse

/-- A client, but for its stream. -/
structure RemoteControlClient where
  limits : IpcLimits
  deviceCertificate : DeviceCertificate
  protocolVersion : UInt32
  nextRequestId : UInt64
  deriving DecidableEq, Repr

/-- What a call gets: its arguments, the time and the random nonce. -/
structure CallArguments where
  method : String
  params : String
  now : UInt64
  nonce : Except DevRelayError String

namespace RemoteControlClient

variable (codec : JsonCodec) (self : RemoteControlClient)

/-- The bytes of a request. -/
def requestBytes (call : CallArguments) : Except DevRelayError (List UInt8) := do
  let request : RpcRequest :=
    { jsonrpc := rpcJsonrpcVersion
      id := some (.string ("remote-" ++ toString self.nextRequestId.toNat))
      method := call.method
      params := call.params }
  let nonce ← call.nonce
  let rpc ← codec.requestText request
  codec.frameBytes
    { control := ⟨self.protocolVersion, call.now, nonce⟩
      deviceCertificate := self.deviceCertificate
      rpc }

/-- `call`, but for the next request id.  The id of the response is not looked at. -/
def call (arguments : CallArguments) : IpcStream RpcResponse := do
  let frameBytes ← StreamProg.ofExcept (self.requestBytes codec arguments)
  writeFramedMessage frameBytes self.limits
  let responseBytes ← readFramedMessage self.limits
  StreamProg.ofExcept (codec.readResponse responseBytes)

/-- The client after a call, whether it succeeded or not. -/
def afterCall : RemoteControlClient := { self with nextRequestId := self.nextRequestId + 1 }

end RemoteControlClient

end DevRelay.Transport
