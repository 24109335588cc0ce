import DevRelay.Transport.RemoteCall
import DevRelay.Transport.TlsLeaf

/-!
# Authentication of remote frames

`authenticate_remote_control_frame`, with the preflight of `remote_rpc.rs`.  The key of the TLS
leaf is written in lower case and compared with the text in the certificate, which is the text
that the pairing was given.
-/

namespace DevRelay.Transport

open DevRelay.Core DevRelay.Lib DevRelay.Trust

/-! ## Refusals -/

namespace RpcError

/-- `with_detail`; the data is the JSON text. -/
def withDetail (code : Int) (message detail : String) : RpcError where
  code := code
  message := message
  data := some (String.ofList (writeObject ("detail".toList, .text detail.toList) []))

def parseError (detail : String) : RpcError := withDetail (-32700) "Parse error" detail

def invalidRequest (detail : String) : RpcError := withDetail (-32600) "Invalid request" detail

def methodNotFound (method : String) : RpcError :=
  withDetail (-32601) "Method not found" ("unknown RPC method " ++ method)

end RpcError

/-- An error response: an error of the RPC layer, or `remote_rpc_error_from_devrelay`. -/
inductive FrameRefusal where
  | response (id : Option RpcId) (error : RpcError)
  | fromDevRelay (error : DevRelayError)
  deriving DecidableEq, Repr

/-- The JSON reader of the server; `readRequest` reads the text of the request. -/
structure FrameReader where
  readFrame : List UInt8 → Except String RemoteControlFrame
  readRequest : String → Except String RpcRequest

/-! ## The request of a frame -/

def remoteRpcMethods : List String :=
  ["rpc.negotiate", "devices.list", "projects.list", "workspaces.list",
    "sessions.snapshots.list", "handoffs.list", "handoff.begin", "handoff.abort",
    "handoff.target.verify", "handoff.source.ready", "handoff.commit", "handoff.recover",
    "recovery.list", "recovery.open"]

def isRemoteRpcMethodAllowed (method : String) : Bool := remoteRpcMethods.contains method

namespace RpcRequest

def validate (self : RpcRequest) : Except RpcError Unit := do
  require (self.jsonrpc = rpcJsonrpcVersion)
    (.invalidRequest ("jsonrpc must be " ++ rpcJsonrpcVersion))
  require self.id.isSome
    (.invalidRequest "request id is required; notifications are not supported")
  -- `method.trim().is_empty()`
  require (!self.method.toList.all isSpace)
    (.invalidRequest "method must not be empty")

def parse (reader : FrameReader) (text : String) : Except RpcError RpcRequest := do
  let request ← (reader.readRequest text).mapError RpcError.parseError
  request.validate
  pure request

def requiredId (self : RpcRequest) : Except RpcError RpcId :=
  match self.id with
  | some id => .ok id
  | none => .error (.invalidRequest "request id is required")

end RpcRequest

/-- The transport of a peer is always mTLS. -/
structure AuthenticatedControlPlanePeer where
  device : ValidatedDeviceCertificate
  deriving DecidableEq, Repr

structure RemoteRpcRequestContext where
  peer : AuthenticatedControlPlanePeer
  request : RpcRequest
  deriving DecidableEq, Repr

def requireAuthenticatedControlChannel (peer : Option ValidatedDeviceCertificate) :
    Except DevRelayError AuthenticatedControlPlanePeer :=
  match peer with
  | some device => .ok ⟨device⟩
  | none =>
    .error (.config "control API request rejected: authenticated mTLS peer is required")

/-- What follows the checks of the envelope. -/
def readRemoteRequest (reader : FrameReader) (peer : AuthenticatedControlPlanePeer)
    (rpc : String) : Except FrameRefusal RemoteRpcRequestContext := do
  let request ← (RpcRequest.parse reader rpc).mapError (FrameRefusal.response none)
  let requestId ← request.requiredId.mapError (FrameRefusal.response request.id)
  require (isRemoteRpcMethodAllowed request.method)
    (.response (some requestId) (.methodNotFound request.method))
  pure { peer, request }

def preflightRemoteRpcRequest (reader : FrameReader) (peer : Option ValidatedDeviceCertificate)
    (controlEnvelope : ControlPlaneRequestEnvelope) (rpc : String)
    (policy : ControlPlaneTransportPolicy) (nowUnixSeconds : UInt64)
    (replayCache : ControlPlaneReplayCache) :
    Except FrameRefusal RemoteRpcRequestContext × ControlPlaneReplayCache :=
  match requireAuthenticatedControlChannel peer with
  | .error e => (.error (.fromDevRelay e), replayCache)
  | .ok peer =>
    match validateControlRequestEnvelope policy controlEnvelope nowUnixSeconds replayCache with
    | (.error e, replayCache) => (.error (.fromDevRelay e), replayCache)
    | (.ok (), replayCache) => (readRemoteRequest reader peer rpc, replayCache)

/-! ## The device of a frame -/

section

variable (crypto : TrustCrypto) (issuer : LeafIssuer)

/-- The checks of the certificate and of the channel key. -/
def authenticateDevice (certificate : DeviceCertificate) (tlsPeerLeafDer : List UInt8)
    (pinnedRoot : FabricRootIdentity) (revocations : List DeviceRevocationRecord)
    (nowUnixSeconds : UInt64) : Except FrameRefusal ValidatedDeviceCertificate := do
  let validated ← (crypto.validateDeviceCertificate certificate pinnedRoot revocations
    nowUnixSeconds).mapError FrameRefusal.fromDevRelay
  let tlsPeerKey ← (extractSingleEd25519Spki tlsPeerLeafDer).mapError FrameRefusal.fromDevRelay
  require (hexEncode tlsPeerKey = validated.signingPublicKeyHex)
    (.response none (.invalidRequest
      "device certificate does not match the authenticated TLS channel key"))
  pure validated

def authenticateRemoteControlFrame (reader : FrameReader) (frameBytes tlsPeerLeafDer : List UInt8)
    (pinnedRoot : FabricRootIdentity) (revocations : List DeviceRevocationRecord)
    (policy : ControlPlaneTransportPolicy) (nowUnixSeconds : UInt64)
    (replayCache : ControlPlaneReplayCache) :
    Except FrameRefusal RemoteRpcRequestContext × ControlPlaneReplayCache :=
  match reader.readFrame frameBytes with
  | .error err =>
    (.error (.response none (.invalidRequest ("malformed remote control frame: " ++ err))),
      replayCache)
  | .ok frame =>
    match authenticateDevice crypto frame.deviceCertificate tlsPeerLeafDer pinnedRoot
        revocations nowUnixSeconds with
    | .error refusal => (.error refusal, replayCache)
    | .ok validated =>
      preflightRemoteRpcRequest reader (some validated) frame.control frame.rpc policy
        nowUnixSeconds replayCache

def issuePeerTlsCertificateDer (secrets : FabricSecrets)
    (peerDeviceId peerSigningPublicKeyHex : String) : Except DevRelayError (List UInt8) := do
  let peerPublicKey ← decodeKeyHex "peer_signing_public_key_hex" peerSigningPublicKeyHex
  issuer.issueDeviceTlsLeafDer secrets.rootSecretKey secrets.fabricId peerDeviceId peerPublicKey

end

/-- The identity that `pairing confirm` issues a certificate for. -/
def peerIdentity (session : PairingSession) (nowUnixSeconds : UInt64) : DevicePublicIdentity where
  deviceId := session.peerDeviceId
  displayName := session.peerDisplayName
  fabricId := session.fabricId
  signingPublicKeyHex := session.peerSigningPublicKeyHex
  networkPublicKeyHex := session.peerNetworkPublicKeyHex
  platformKey := "unknown"
  architecture := "unknown"
  createdAtUnixSeconds := session.createdAtUnixSeconds
  lastSeenUnixSeconds := nowUnixSeconds

/-- A confirmed session, of a request that `start_pairing_session` accepted. -/
structure ConfirmedSession (session : PairingSession) : Prop where
  confirmed : session.state = .confirmed
  requested : ∃ request : PairingStartRequest, validatePairingStartRequest request = .ok () ∧
    session.fabricId = request.fabricId ∧ session.peerDeviceId = request.peerDeviceId ∧
    session.peerSigningPublicKeyHex = request.peerSigningPublicKeyHex ∧
    session.peerNetworkPublicKeyHex = request.peerNetworkPublicKeyHex

theorem ConfirmedSession.keys {session : PairingSession} (h : ConfirmedSession session) :
    validateKeyHex "peer_signing_public_key_hex" session.peerSigningPublicKeyHex = .ok () ∧
      validateKeyHex "peer_network_public_key_hex" session.peerNetworkPublicKeyHex = .ok () := by
  obtain ⟨request, haccepted, -, -, hsigning, hnetwork⟩ := h.requested
  simp only [validatePairingStartRequest, bind_eq_ok] at haccepted
  rw [hsigning, hnetwork]
  exact ⟨haccepted.2.2.2.2.1, haccepted.2.2.2.2.2.1⟩

/-! ## Who is admitted -/

section

variable {crypto : TrustCrypto} {issuer : LeafIssuer}

theorem mapError_eq_ok {ε δ α : Type} {f : ε → δ} {x : Except ε α} {a : α} :
    x.mapError f = .ok a ↔ x = .ok a := by
  cases x with
  | error e => exact iff_of_false (by rintro ⟨⟩) (by rintro ⟨⟩)
  | ok b => exact ⟨fun h => by cases h; rfl, fun h => by cases h; rfl⟩

theorem authenticateDevice_eq_ok {certificate : DeviceCertificate} {leaf : List UInt8}
    {pinnedRoot : FabricRootIdentity} {revocations : List DeviceRevocationRecord}
    {nowUnixSeconds : UInt64} {validated : ValidatedDeviceCertificate} :
    authenticateDevice crypto certificate leaf pinnedRoot revocations nowUnixSeconds =
        .ok validated ↔
      crypto.validateDeviceCertificate certificate pinnedRoot revocations nowUnixSeconds =
          .ok validated ∧
        ∃ key, SoleKey leaf key ∧ hexEncode key = certificate.signingPublicKeyHex := by
  unfold authenticateDevice
  simp only [bind_eq_ok_iff, exists_unit, mapError_eq_ok, extractSingleEd25519Spki_eq_ok,
    require_eq_ok, decide_eq_true_eq]
  constructor
  · rintro ⟨device, hvalid, key, hkey, hsame, hresult⟩
    cases hresult
    have hdevice := (crypto.validateDeviceCertificate_eq_ok.mp hvalid).2
    rw [hdevice] at hsame
    exact ⟨hvalid, key, hkey, hsame⟩
  · rintro ⟨hvalid, key, hkey, hsame⟩
    have hdevice := (crypto.validateDeviceCertificate_eq_ok.mp hvalid).2
    refine ⟨validated, hvalid, key, hkey, ?_, rfl⟩
    rw [hsame, hdevice]

/-- A frame that is accepted has passed the checks of its device. -/
theorem authenticated_of_accepted {reader : FrameReader} {frameBytes leaf : List UInt8}
    {pinnedRoot : FabricRootIdentity} {revocations : List DeviceRevocationRecord}
    {policy : ControlPlaneTransportPolicy} {nowUnixSeconds : UInt64}
    {replayCache : ControlPlaneReplayCache} {context : RemoteRpcRequestContext}
    (h : (authenticateRemoteControlFrame crypto reader frameBytes leaf pinnedRoot revocations
      policy nowUnixSeconds replayCache).1 = .ok context) :
    ∃ frame, reader.readFrame frameBytes = .ok frame ∧
      authenticateDevice crypto frame.deviceCertificate leaf pinnedRoot revocations
        nowUnixSeconds = .ok context.peer.device := by
  unfold authenticateRemoteControlFrame at h
  cases hread : reader.readFrame frameBytes with
  | error err =>
    rw [hread] at h
    cases h
  | ok frame =>
    refine ⟨frame, rfl, ?_⟩
    rw [hread] at h
    simp only at h
    cases hdevice : authenticateDevice crypto frame.deviceCertificate leaf pinnedRoot
        revocations nowUnixSeconds with
    | error refusal =>
      rw [hdevice] at h
      cases h
    | ok validated =>
      rw [hdevice] at h
      simp only [preflightRemoteRpcRequest, requireAuthenticatedControlChannel] at h
      rcases hcontrol : validateControlRequestEnvelope policy frame.control nowUnixSeconds
        replayCache with ⟨e | u, cache⟩
      · rw [hcontrol] at h
        cases h
      · rw [hcontrol] at h
        simp only [readRemoteRequest, bind_eq_ok_iff] at h
        obtain ⟨request, -, requestId, -, u, -, hresult⟩ := h
        cases hresult
        rfl

end

end DevRelay.Transport
