import DevRelay.Transport.FrameAuthentication

/-!
# Who gets past the authentication

A paired device is admitted when its key is spelled in lower case and its leaf holds this key
alone; a leaf admits no certificate of another key when no other key can be read from it.
-/

namespace DevRelay.Transport

open DevRelay.Core DevRelay.Lib DevRelay.Trust

section

variable (crypto : TrustCrypto) (issuer : LeafIssuer)

/-- With a certificate of its session and the leaf, the device passes the checks from the issue
until the expiry, while it is not revoked. -/
def AdmitsDevice (secrets : FabricSecrets) (session : PairingSession) (leaf : List UInt8) : Prop :=
  ∀ fabricName lastSeen issuedAt ttlSeconds certificate,
    crypto.issueDeviceCertificate secrets (peerIdentity session lastSeen) issuedAt ttlSeconds =
      .ok certificate →
    ∀ (revocations : List DeviceRevocationRecord) nowUnixSeconds,
      issuedAt ≤ nowUnixSeconds → nowUnixSeconds < certificate.expiresAtUnixSeconds →
      (∀ revocation ∈ revocations, revocation.deviceId ≠ session.peerDeviceId) →
      ∃ validated, authenticateDevice crypto certificate leaf (crypto.root secrets fabricName)
        revocations nowUnixSeconds = .ok validated

/-- The holder of the key signs every payload whose signature verifies. -/
def Unforgeable (rootPublicKey : List UInt8) (signed : ByteArray → Prop) : Prop :=
  ∀ payload signature, crypto.signatureError rootPublicKey payload signature = none →
    signed payload

/-- What a certificate is that lets a frame in. -/
structure ProperlyIssued (certificate : DeviceCertificate) (pinnedRoot : FabricRootIdentity)
    (revocations : List DeviceRevocationRecord) (nowUnixSeconds : UInt64)
    (leafKey : List UInt8) : Prop where
  fabric : certificate.fabricId = pinnedRoot.fabricId
  root : certificate.issuerRootPublicKeyHex = pinnedRoot.rootPublicKeyHex
  signed : ∃ rootPublicKey,
    decodeHexArray 32 "root_public_key_hex" pinnedRoot.rootPublicKeyHex = .ok rootPublicKey ∧
      ∀ signed, Unforgeable crypto rootPublicKey signed →
        signed (signedCertificatePayload certificate)
  exact : ∀ other, signedCertificatePayload other = signedCertificatePayload certificate →
    SameSigned other certificate
  issued : certificate.issuedAtUnixSeconds ≤ nowUnixSeconds
  unexpired : nowUnixSeconds < certificate.expiresAtUnixSeconds
  unrevoked : ∀ revocation ∈ revocations, revocation.deviceId ≠ certificate.deviceId
  channel : decodeKeyHex "signing_public_key_hex" certificate.signingPublicKeyHex = .ok leafKey

/-- A leaf that was issued for the key lets in only frames with a certificate of this key. -/
def AdmitsOnly (leaf leafKey : List UInt8) : Prop :=
  ∀ (reader : FrameReader) frameBytes pinnedRoot revocations policy nowUnixSeconds replayCache
    context,
    (authenticateRemoteControlFrame crypto reader frameBytes leaf pinnedRoot revocations policy
      nowUnixSeconds replayCache).1 = .ok context →
    ∃ frame, reader.readFrame frameBytes = .ok frame ∧
      ProperlyIssued crypto frame.deviceCertificate pinnedRoot revocations nowUnixSeconds leafKey

end

section

variable {crypto : TrustCrypto} {issuer : LeafIssuer} {secrets : FabricSecrets}
  {session : PairingSession} {leaf key : List UInt8}

/-! ## Paired devices -/

theorem lt_saturatingAdd_ttl (ttl : UInt64) : (0 : UInt64) < saturatingAdd 0 (max ttl 1) := by
  have hnat : 1 ≤ (max ttl 1).toNat := by
    show 1 ≤ (if ttl ≤ 1 then (1 : UInt64) else ttl).toNat
    split
    · exact Nat.le_refl 1
    · rename_i hmore
      rw [UInt64.le_iff_toNat_le, UInt64.toNat_one] at hmore
      omega
  rw [UInt64.lt_iff_toNat_lt, toNat_saturatingAdd]
  show 0 < min (0 + (max ttl 1).toNat) (2 ^ 64 - 1)
  omega

theorem admitsDevice_iff (hsession : ConfirmedSession session)
    (hfabric : session.fabricId = secrets.fabricId)
    (hkey : decodeKeyHex "peer_signing_public_key_hex" session.peerSigningPublicKeyHex =
      .ok key) :
    AdmitsDevice crypto secrets session leaf ↔
      IsLowerHex session.peerSigningPublicKeyHex ∧ SoleKey leaf key := by
  obtain ⟨hsigning, hnetwork⟩ := hsession.keys
  obtain ⟨bytes, hbytes, -, hlower⟩ := decodeFixedHex_of_validateKeyHex
    "peer_signing_public_key_hex" hsigning
  have hsame : bytes = key := Except.ok.inj (hbytes.symm.trans hkey)
  subst hsame
  obtain ⟨signingKey, hsigningKey, -, -⟩ := decodeFixedHex_of_validateKeyHex
    "signing_public_key_hex" hsigning
  obtain ⟨networkKey, hnetworkKey, -, -⟩ := decodeFixedHex_of_validateKeyHex
    "network_public_key_hex" hnetwork
  constructor
  · intro hadmits
    have hdevice : (peerIdentity session 0).fabricId = secrets.fabricId := hfabric
    obtain ⟨certificate, hissue, htext, -, hexpires⟩ :=
      crypto.issueDeviceCertificate_ok hdevice 0 1
    obtain ⟨validated, haccepted⟩ := hadmits "" 0 0 1 certificate hissue [] 0 (UInt64.le_refl _)
      (by rw [hexpires]; exact lt_saturatingAdd_ttl 1) (fun _ hmem => nomatch hmem)
    obtain ⟨-, found, hfound, hspelled⟩ := authenticateDevice_eq_ok.mp haccepted
    rw [htext] at hspelled
    simp only [peerIdentity] at hspelled
    have hislower : IsLowerHex session.peerSigningPublicKeyHex := by
      rw [← hspelled]
      exact isLowerHex_hexEncode found
    have hfoundKey : found = bytes := by
      apply hexEncode_injective
      rw [hspelled, hlower.mpr hislower]
    subst hfoundKey
    exact ⟨hislower, hfound⟩
  · rintro ⟨hislower, hsole⟩ fabricName lastSeen issuedAt ttlSeconds certificate hissue
      revocations nowUnixSeconds hissued hexpires hrevoked
    obtain ⟨htext, hstart⟩ := crypto.issueDeviceCertificate_spec hissue
    have hvalid := crypto.validates_issued hissue fabricName (by rw [hstart]; exact hissued)
      hexpires hrevoked hsigningKey hnetworkKey
    refine ⟨_, authenticateDevice_eq_ok.mpr ⟨crypto.validateDeviceCertificate_eq_ok.mpr
      ⟨⟨_, _, _, _, hvalid⟩, rfl⟩, bytes, hsole, ?_⟩⟩
    rw [htext]
    exact hlower.mpr hislower

/-! ## Accepted frames -/

/-- An accepted frame has a properly issued certificate, of the key that is read from the
leaf. -/
theorem properlyIssued_of_accepted {reader : FrameReader} {frameBytes : List UInt8}
    {pinnedRoot : FabricRootIdentity} {revocations : List DeviceRevocationRecord}
    {policy : ControlPlaneTransportPolicy} {nowUnixSeconds : UInt64}
    {replayCache : ControlPlaneReplayCache} {context : RemoteRpcRequestContext}
    (h : (authenticateRemoteControlFrame crypto reader frameBytes leaf pinnedRoot revocations
      policy nowUnixSeconds replayCache).1 = .ok context) :
    ∃ frame found, reader.readFrame frameBytes = .ok frame ∧ SoleKey leaf found ∧
      ProperlyIssued crypto frame.deviceCertificate pinnedRoot revocations nowUnixSeconds
        found := by
  obtain ⟨frame, hread, haccepted⟩ := authenticated_of_accepted h
  obtain ⟨hvalid, found, hfound, hspelled⟩ := authenticateDevice_eq_ok.mp haccepted
  obtain ⟨⟨signingKey, networkKey, rootPublicKey, signature, hchecks⟩, -⟩ :=
    crypto.validateDeviceCertificate_eq_ok.mp hvalid
  refine ⟨frame, found, hread, hfound, hchecks.fabric, hchecks.issuer, ⟨rootPublicKey,
    hchecks.rootKey_read, fun signed hsigned => hsigned _ _ hchecks.verified⟩,
    fun other => sameSigned_of_payload, hchecks.issued, hchecks.unexpired, hchecks.unrevoked, ?_⟩
  have hencoded := decodeFixedHex_hexEncode "signing_public_key_hex" found
  rw [hfound.length, hspelled] at hencoded
  exact hencoded

/-- A device with the key, at the start of time. -/
def deviceOfKey (secrets : FabricSecrets) (other : List UInt8) : DevicePublicIdentity where
  deviceId := "device"
  displayName := "device"
  fabricId := secrets.fabricId
  signingPublicKeyHex := hexEncode other
  networkPublicKeyHex := hexEncode other
  platformKey := "unknown"
  architecture := "unknown"
  createdAtUnixSeconds := 0
  lastSeenUnixSeconds := 0

def helloEnvelope : ControlPlaneRequestEnvelope := ⟨1, 0, "nonce-nonce-nonce"⟩

def helloRequest : RpcRequest := ⟨"2.0", some (.number 1), "devices.list", "{}"⟩

/-- A reader that reads this one frame. -/
def readerOf (certificate : DeviceCertificate) : FrameReader where
  readFrame _ := .ok ⟨helloEnvelope, certificate, ""⟩
  readRequest _ := .ok helloRequest

theorem preflight_hello (certificate : DeviceCertificate) (validated : ValidatedDeviceCertificate) :
    (preflightRemoteRpcRequest (readerOf certificate) (some validated) helloEnvelope ""
      .default 0 .new).1 = .ok ⟨⟨validated⟩, helloRequest⟩ := by
  have hcontrol : (validateControlRequestEnvelope .default helloEnvelope 0 .new).1 =
      .ok () := by decide
  have hrequest : readRemoteRequest (readerOf certificate) ⟨validated⟩ "" =
      .ok ⟨⟨validated⟩, helloRequest⟩ := by rfl
  rw [preflightRemoteRpcRequest, requireAuthenticatedControlChannel]
  simp only
  rcases hresult : validateControlRequestEnvelope .default helloEnvelope 0 .new with ⟨e | u, cache⟩
  · rw [hresult] at hcontrol
    cases hcontrol
  · exact hrequest

theorem admitsOnly_iff (crypto : TrustCrypto) (secrets : FabricSecrets) :
    AdmitsOnly crypto leaf key ↔ ∀ other, SoleKey leaf other → other = key := by
  constructor
  · intro hadmits other hother
    have hlength := hother.length
    have hdevice : (deviceOfKey secrets other).fabricId = secrets.fabricId := rfl
    obtain ⟨certificate, hissue, htext, hissued, hexpires⟩ :=
      crypto.issueDeviceCertificate_ok hdevice 0 1
    have hread : ∀ field, decodeHexArray 32 field (hexEncode other) = .ok other := by
      intro field
      have hencoded := decodeFixedHex_hexEncode field other
      rw [hlength] at hencoded
      exact hencoded
    have hvalid : crypto.Validates certificate (crypto.root secrets "") [] 0 other other _ _ :=
      crypto.validates_issued hissue "" (by rw [hissued]; exact UInt64.le_refl _)
        (by rw [hexpires]; exact lt_saturatingAdd_ttl 1) (fun _ hmem => nomatch hmem)
        (hread _) (hread _)
    have haccepted := authenticateDevice_eq_ok.mpr ⟨crypto.validateDeviceCertificate_eq_ok.mpr
      ⟨⟨_, _, _, _, hvalid⟩, rfl⟩, other, hother, htext.symm⟩
    obtain ⟨frame, hframe, hproper⟩ := hadmits (readerOf certificate) [] (crypto.root secrets "")
      [] .default 0 .new _ (by
        rw [authenticateRemoteControlFrame]
        simp only [readerOf]
        rw [haccepted]
        exact preflight_hello certificate _)
    cases hframe
    have hchannel := hproper.channel
    rw [htext] at hchannel
    exact Except.ok.inj ((hread _).symm.trans hchannel)
  · intro honly reader frameBytes pinnedRoot revocations policy nowUnixSeconds replayCache context h
    obtain ⟨frame, found, hread, hfound, hproper⟩ := properlyIssued_of_accepted h
    rw [honly found hfound] at hproper
    exact ⟨frame, hread, hproper⟩

end

/-- A paired device is admitted exactly when its key is spelled in lower case and its leaf holds
this key alone; a leaf of the fabric lets in only certificates of its key exactly when no other
key can be read from it. -/
theorem remote_authentication_iff (crypto : TrustCrypto) (issuer : LeafIssuer)
    (secrets : FabricSecrets) (session : PairingSession) (hsession : ConfirmedSession session)
    (hfabric : session.fabricId = secrets.fabricId) :
    (∀ leaf, issuePeerTlsCertificateDer issuer secrets session.peerDeviceId
        session.peerSigningPublicKeyHex = .ok leaf →
      (AdmitsDevice crypto secrets session leaf ↔
        IsLowerHex session.peerSigningPublicKeyHex ∧
          ∃ key, decodeKeyHex "peer_signing_public_key_hex" session.peerSigningPublicKeyHex =
            .ok key ∧ SoleKey leaf key)) ∧
    ∀ deviceId key leaf, issuer.issueDeviceTlsLeafDer secrets.rootSecretKey secrets.fabricId
        deviceId key = .ok leaf →
      (AdmitsOnly crypto leaf key ↔ ∀ other, SoleKey leaf other → other = key) := by
  constructor
  · intro leaf _
    obtain ⟨key, hkey, -, -⟩ := decodeFixedHex_of_validateKeyHex "peer_signing_public_key_hex"
      hsession.keys.1
    rw [admitsDevice_iff hsession hfabric hkey]
    constructor
    · exact fun h => ⟨h.1, key, hkey, h.2⟩
    · rintro ⟨hlower, found, hfound, hsole⟩
      cases hkey.symm.trans hfound
      exact ⟨hlower, hsole⟩
  · exact fun _ _ _ _ => admitsOnly_iff crypto secrets

/-! ## Two spellings of a key -/

def zeroSignature : List UInt8 := List.replicate 64 0

/-- A signature scheme with one signature. -/
def demoCrypto : TrustCrypto where
  digest := zeroDigest
  verifyingKey secret := (secret ++ List.replicate 32 0).take 32
  sign _ _ := zeroSignature
  keyError _ := none
  signatureError _ _ signature :=
    if signature = zeroSignature then none else some "signature error"
  length_verifyingKey secret := by
    rw [List.length_take, List.length_append, List.length_replicate]
    omega
  length_sign _ _ := rfl
  verifyingKey_valid _ := rfl
  sign_verifies _ _ := rfl

/-- The subject of a leaf, up to the bytes of its common name. -/
def subjectHeader (size : Nat) : List UInt8 :=
  [0x30, UInt8.ofNat (size + 11), 0x31, UInt8.ofNat (size + 9), 0x30, UInt8.ofNat (size + 7),
    0x06, 0x03, 0x55, 0x04, 0x03, 0x0c, UInt8.ofNat size]

/-- The part of a leaf from its subject to its key. -/
def demoIssuer : LeafIssuer where
  issueDeviceTlsLeafDer _ _ deviceId key :=
    .ok (subjectHeader (utf8 deviceId).length ++ utf8 deviceId ++ (ed25519SpkiPrefix ++ key) ++ [])
  placed _ _ deviceId key der h := by
    cases h
    exact ⟨_, _, rfl⟩

def demoSecrets : FabricSecrets := ⟨"f_demo", List.replicate 32 1, 0, 0⟩

/-- A pairing of a device with this key. -/
def keyRequest (keyHex : String) : PairingStartRequest where
  fabricId := "f_demo"
  localDeviceId := "device-a"
  peerDeviceId := "device-b"
  peerDisplayName := "b"
  peerSigningPublicKeyHex := keyHex
  peerNetworkPublicKeyHex := keyHex
  peerEphemeralPublicKeyHex := keyHex
  anchorAddress := none
  ttlSeconds := 60

def keySession (keyHex : String) : PairingSession where
  pairingId := "pair-1"
  fabricId := "f_demo"
  localDeviceId := "device-a"
  peerDeviceId := "device-b"
  peerDisplayName := "b"
  peerSigningPublicKeyHex := keyHex
  peerNetworkPublicKeyHex := keyHex
  anchorAddress := none
  localEphemeralPublicKeyHex := keyHex
  peerEphemeralPublicKeyHex := keyHex
  transcriptHashHex := ""
  shortAuthenticationString := ""
  state := .confirmed
  certificateJson := none
  expiresAtUnixSeconds := 60
  confirmedAtUnixSeconds := some 1
  abortedAtUnixSeconds := none
  createdAtUnixSeconds := 0

theorem confirmed_keySession {keyHex : String} (hlength : keyHex.toList.length = 64)
    (hdigits : keyHex.toList.all isHexDigit = true) : ConfirmedSession (keySession keyHex) := by
  refine ⟨rfl, keyRequest keyHex, ?_, rfl, rfl, rfl, rfl⟩
  have hkey : ∀ name, validateKeyHex name keyHex = .ok () := fun name =>
    validateKeyHex_of_digits name hlength hdigits
  simp only [validatePairingStartRequest, keyRequest, bind_eq_ok, hkey, and_true]
  exact ⟨rfl, rfl, rfl, rfl⟩

def lowerKey : List UInt8 := List.replicate 32 0xab

/-- A key in lower case admits its device, and its leaf lets in nobody else. -/
theorem remote_authentication_lower_case :
    (∀ leaf, issuePeerTlsCertificateDer demoIssuer demoSecrets "device-b" (hexEncode lowerKey) =
        .ok leaf → AdmitsDevice demoCrypto demoSecrets (keySession (hexEncode lowerKey)) leaf) ∧
      ∀ leaf, demoIssuer.issueDeviceTlsLeafDer demoSecrets.rootSecretKey demoSecrets.fabricId
        "device-b" lowerKey = .ok leaf → AdmitsOnly demoCrypto leaf lowerKey := by
  have hsession : ConfirmedSession (keySession (hexEncode lowerKey)) := by
    apply confirmed_keySession _ (all_isHexDigit_hexEncode lowerKey)
    rw [hexEncode, String.toList_ofList, length_digits]
    rfl
  have hread : decodeKeyHex "peer_signing_public_key_hex" (hexEncode lowerKey) = .ok lowerKey :=
    decodeFixedHex_hexEncode "peer_signing_public_key_hex" lowerKey
  have hsole : ∀ leaf, demoIssuer.issueDeviceTlsLeafDer demoSecrets.rootSecretKey
      demoSecrets.fabricId "device-b" lowerKey = .ok leaf → SoleKey leaf lowerKey := by
    intro leaf hleaf
    cases hleaf
    exact soleKey_of_plain rfl rfl (by decide) (by decide)
  obtain ⟨hadmits, honly⟩ := remote_authentication_iff demoCrypto demoIssuer demoSecrets
    (keySession (hexEncode lowerKey)) hsession rfl
  constructor
  · intro leaf hleaf
    refine (hadmits leaf hleaf).mpr ⟨isLowerHex_hexEncode lowerKey, lowerKey, hread, hsole leaf ?_⟩
    rw [issuePeerTlsCertificateDer, hread] at hleaf
    exact hleaf
  · intro leaf hleaf
    exact (honly "device-b" lowerKey leaf hleaf).mpr fun other hother =>
      hother.unique (hsole leaf hleaf)

/-- The device of any key that the pairing accepts is admitted only if the key is in lower
case. -/
theorem isLowerHex_of_admitsDevice {keyHex : String} (hlength : keyHex.toList.length = 64)
    (hdigits : keyHex.toList.all isHexDigit = true)
    (hadmits : ∀ leaf, issuePeerTlsCertificateDer demoIssuer demoSecrets "device-b" keyHex =
      .ok leaf → AdmitsDevice demoCrypto demoSecrets (keySession keyHex) leaf) :
    IsLowerHex keyHex := by
  have hsession := confirmed_keySession hlength hdigits
  obtain ⟨key, hkey, -, -⟩ := decodeFixedHex_of_validateKeyHex "peer_signing_public_key_hex"
    hsession.keys.1
  have hread : decodeKeyHex "peer_signing_public_key_hex" keyHex = .ok key := hkey
  have hleaf : issuePeerTlsCertificateDer demoIssuer demoSecrets "device-b" keyHex =
      .ok (subjectHeader (utf8 "device-b").length ++ utf8 "device-b" ++
        (ed25519SpkiPrefix ++ key) ++ []) := by
    rw [issuePeerTlsCertificateDer, hread]
    rfl
  have hfabric : (keySession keyHex).fabricId = demoSecrets.fabricId := rfl
  exact ((admitsDevice_iff hsession hfabric hkey).mp (hadmits _ hleaf)).1

/-- A text that repeats one character. -/
def repeated (c : Char) (n : Nat) : String := String.ofList (List.replicate n c)

theorem length_repeated (c : Char) (n : Nat) : (repeated c n).toList.length = n := by
  rw [repeated, String.toList_ofList, List.length_replicate]

theorem all_repeated {c : Char} {p : Char → Bool} (h : p c = true) (n : Nat) :
    (repeated c n).toList.all p = true := by
  rw [repeated, String.toList_ofList, List.all_eq_true]
  intro d hd
  rw [List.eq_of_mem_replicate hd, h]

/-- A key in upper case. -/
def upperKeyHex : String := repeated 'A' 64

theorem not_isLowerHex_upperKeyHex : ¬IsLowerHex upperKeyHex := by
  intro h
  have hmem : 'A' ∈ List.replicate 64 'A' := List.mem_replicate.mpr ⟨by decide, rfl⟩
  have hall : (List.replicate 64 'A').all isLowerHexdigit = true :=
    (congrArg (fun chars => List.all chars isLowerHexdigit) String.toList_ofList).symm.trans h
  exact absurd (List.all_eq_true.mp hall 'A' hmem) (by decide)

/-- A device that was paired with its key in upper case is refused for ever. -/
theorem upper_case_key_is_refused :
    ¬∀ (crypto : TrustCrypto) (issuer : LeafIssuer) (secrets : FabricSecrets)
      (session : PairingSession), ConfirmedSession session →
        session.fabricId = secrets.fabricId →
        (∀ leaf, issuePeerTlsCertificateDer issuer secrets session.peerDeviceId
          session.peerSigningPublicKeyHex = .ok leaf →
            AdmitsDevice crypto secrets session leaf) ∧
        ∀ deviceId key leaf, issuer.issueDeviceTlsLeafDer secrets.rootSecretKey secrets.fabricId
          deviceId key = .ok leaf → AdmitsOnly crypto leaf key := by
  intro hclaim
  have hdigits : upperKeyHex.toList.all isHexDigit = true := all_repeated rfl 64
  have hlength : upperKeyHex.toList.length = 64 := length_repeated 'A' 64
  have hadmits := (hclaim demoCrypto demoIssuer demoSecrets (keySession upperKeyHex)
    (confirmed_keySession hlength hdigits) rfl).1
  exact not_isLowerHex_upperKeyHex (isLowerHex_of_admitsDevice hlength hdigits hadmits)

end DevRelay.Transport
