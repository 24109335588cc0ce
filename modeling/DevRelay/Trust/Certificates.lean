import DevRelay.Trust.KeyText

/-!
# Fabric and device identities

The public records of `identity.rs`.
-/

namespace DevRelay.Trust

structure FabricRootIdentity where
  fabricId : String
  fabricName : String
  rootPublicKeyHex : String
  createdAtUnixSeconds : UInt64
  rotationEpoch : UInt64
  deriving DecidableEq, Repr

structure DeviceCertificate where
  certificateId : String
  fabricId : String
  deviceId : String
  signingPublicKeyHex : String
  networkPublicKeyHex : String
  issuerRootPublicKeyHex : String
  issuedAtUnixSeconds : UInt64
  expiresAtUnixSeconds : UInt64
  signatureHex : String
  deriving DecidableEq, Repr

structure DeviceRevocationRecord where
  deviceId : String
  revokedByDeviceId : String
  reason : String
  keyRotationRequired : Bool
  revokedAtUnixSeconds : UInt64
  deriving DecidableEq, Repr

end DevRelay.Trust

/-!
## Device certificates

`issue_device_certificate` of `identity.rs` and `validate_device_certificate` of
`transport_security.rs`.  Both serialise the same fields, each text as it is spelled; the
signature scheme and the hash are parameters.
-/

namespace DevRelay.Trust

open DevRelay.Core DevRelay.Lib

/-- The hash and ed25519: what a correct implementation promises. -/
structure TrustCrypto where
  digest : Blake3
  /-- `SigningKey::from_bytes(..).verifying_key()` -/
  verifyingKey : List UInt8 → List UInt8
  sign : List UInt8 → ByteArray → List UInt8
  /-- why `VerifyingKey::from_bytes` refuses a key -/
  keyError : List UInt8 → Option String
  /-- why `verify` refuses a signature of a payload -/
  signatureError : List UInt8 → ByteArray → List UInt8 → Option String
  length_verifyingKey : ∀ secret, (verifyingKey secret).length = 32
  length_sign : ∀ secret payload, (sign secret payload).length = 64
  verifyingKey_valid : ∀ secret, keyError (verifyingKey secret) = none
  sign_verifies : ∀ secret payload,
    signatureError (verifyingKey secret) payload (sign secret payload) = none

/-- The secrets of a fabric that its certificates come from. -/
structure FabricSecrets where
  fabricId : String
  rootSecretKey : List UInt8
  createdAtUnixSeconds : UInt64
  rotationEpoch : UInt64
  deriving DecidableEq, Repr

structure DevicePublicIdentity where
  deviceId : String
  displayName : String
  fabricId : String
  signingPublicKeyHex : String
  networkPublicKeyHex : String
  platformKey : String
  architecture : String
  createdAtUnixSeconds : UInt64
  lastSeenUnixSeconds : UInt64
  deriving DecidableEq, Repr

structure ValidatedDeviceCertificate where
  certificateId : String
  fabricId : String
  deviceId : String
  signingPublicKeyHex : String
  networkPublicKeyHex : String
  expiresAtUnixSeconds : UInt64
  deriving DecidableEq, Repr

/-- `signed_certificate_payload`; the fields of a JSON object are in the order of their
names. -/
def signedCertificatePayload (certificate : DeviceCertificate) : ByteArray :=
  (String.ofList (writeObject ("device_id".toList, .text certificate.deviceId.toList)
    [("expires_at_unix_seconds".toList, .number certificate.expiresAtUnixSeconds.toNat),
      ("fabric_id".toList, .text certificate.fabricId.toList),
      ("issued_at_unix_seconds".toList, .number certificate.issuedAtUnixSeconds.toNat),
      ("issuer_root_public_key_hex".toList, .text certificate.issuerRootPublicKeyHex.toList),
      ("network_public_key_hex".toList, .text certificate.networkPublicKeyHex.toList),
      ("schema".toList, .number 1),
      ("signing_public_key_hex".toList, .text certificate.signingPublicKeyHex.toList)])).toUTF8

/-- The certificates say the same about everything that is signed. -/
structure SameSigned (certificate other : DeviceCertificate) : Prop where
  fabricId : certificate.fabricId = other.fabricId
  deviceId : certificate.deviceId = other.deviceId
  signingPublicKeyHex : certificate.signingPublicKeyHex = other.signingPublicKeyHex
  networkPublicKeyHex : certificate.networkPublicKeyHex = other.networkPublicKeyHex
  issuerRootPublicKeyHex : certificate.issuerRootPublicKeyHex = other.issuerRootPublicKeyHex
  issuedAtUnixSeconds : certificate.issuedAtUnixSeconds = other.issuedAtUnixSeconds
  expiresAtUnixSeconds : certificate.expiresAtUnixSeconds = other.expiresAtUnixSeconds

/-- A payload is the one of these fields only. -/
theorem sameSigned_of_payload {certificate other : DeviceCertificate}
    (h : signedCertificatePayload certificate = signedCertificatePayload other) :
    SameSigned certificate other := by
  have htext := String.ofList_inj.mp (String.toByteArray_inj.mp h)
  have hread := congrArg (fun text => readObject (text ++ [])) htext
  simp only [readObject_write, Option.some.injEq, Prod.mk.injEq, List.cons.injEq,
    Lib.JsonScalar.text.injEq, Lib.JsonScalar.number.injEq, String.toList_inj, UInt64.toNat_inj,
    true_and, and_true] at hread
  obtain ⟨hdevice, hexpires, hfabric, hissued, hissuer, hnetwork, hsigning⟩ := hread
  exact ⟨hfabric, hdevice, hsigning, hnetwork, hissuer, hissued, hexpires⟩

namespace TrustCrypto

variable (crypto : TrustCrypto)

/-- `format!("cert_{}", &blake3::hash(&payload_bytes).to_hex()[..24])` -/
def certificateId (payload : ByteArray) : String :=
  "cert_" ++ String.ofList ((crypto.digest.hex payload).toList.take 24)

/-- The public half of the fabric, which its devices pin. -/
def root (secrets : FabricSecrets) (fabricName : String) : FabricRootIdentity where
  fabricId := secrets.fabricId
  fabricName := fabricName
  rootPublicKeyHex := hexEncode (crypto.verifyingKey secrets.rootSecretKey)
  createdAtUnixSeconds := secrets.createdAtUnixSeconds
  rotationEpoch := secrets.rotationEpoch

def issueDeviceCertificate (secrets : FabricSecrets) (device : DevicePublicIdentity)
    (issuedAtUnixSeconds ttlSeconds : UInt64) : Except DevRelayError DeviceCertificate :=
  if device.fabricId ≠ secrets.fabricId then
    .error (.config "cannot issue certificate for a different fabric")
  else
    let unsigned : DeviceCertificate := {
      certificateId := ""
      fabricId := device.fabricId
      deviceId := device.deviceId
      signingPublicKeyHex := device.signingPublicKeyHex
      networkPublicKeyHex := device.networkPublicKeyHex
      issuerRootPublicKeyHex := hexEncode (crypto.verifyingKey secrets.rootSecretKey)
      issuedAtUnixSeconds := issuedAtUnixSeconds
      expiresAtUnixSeconds := saturatingAdd issuedAtUnixSeconds (max ttlSeconds 1)
      signatureHex := "" }
    let payload := signedCertificatePayload unsigned
    .ok { unsigned with
      certificateId := crypto.certificateId payload
      signatureHex := hexEncode (crypto.sign secrets.rootSecretKey payload) }

/-- `verify` with the root key, and the refusals on the way. -/
def verifyRoot (rootPublicKey : List UInt8) (certificate : DeviceCertificate)
    (signature : List UInt8) : Except DevRelayError Unit :=
  match crypto.keyError rootPublicKey with
  | some err => .error (.config ("invalid fabric root key: " ++ err))
  | none =>
    match crypto.signatureError rootPublicKey (signedCertificatePayload certificate)
        signature with
    | some err => .error (.config ("device certificate " ++ certificate.certificateId ++
        " signature is invalid: " ++ err))
    | none => .ok ()

def validateDeviceCertificate (certificate : DeviceCertificate)
    (pinnedRoot : FabricRootIdentity) (revocations : List DeviceRevocationRecord)
    (nowUnixSeconds : UInt64) : Except DevRelayError ValidatedDeviceCertificate := do
  require (certificate.fabricId = pinnedRoot.fabricId)
    (.config ("device certificate fabric " ++ certificate.fabricId ++
      " does not match pinned fabric " ++ pinnedRoot.fabricId))
  require (certificate.issuerRootPublicKeyHex = pinnedRoot.rootPublicKeyHex)
    (.config "device certificate issuer does not match pinned fabric root")
  require (certificate.issuedAtUnixSeconds ≤ nowUnixSeconds)
    (.config ("device certificate " ++ certificate.certificateId ++ " is not valid until " ++
      toString certificate.issuedAtUnixSeconds))
  require (nowUnixSeconds < certificate.expiresAtUnixSeconds)
    (.config ("device certificate " ++ certificate.certificateId ++ " expired at " ++
      toString certificate.expiresAtUnixSeconds))
  require (!revocations.any fun revocation => revocation.deviceId = certificate.deviceId)
    (.config ("device certificate " ++ certificate.certificateId ++ " rejected: device " ++
      certificate.deviceId ++ " is revoked"))
  let _ ← decodeHexArray 32 "signing_public_key_hex" certificate.signingPublicKeyHex
  let _ ← decodeHexArray 32 "network_public_key_hex" certificate.networkPublicKeyHex
  let rootPublicKey ← decodeHexArray 32 "root_public_key_hex" pinnedRoot.rootPublicKeyHex
  let signature ← decodeHexArray 64 "signature_hex" certificate.signatureHex
  require (certificate.certificateId =
      crypto.certificateId (signedCertificatePayload certificate))
    (.config ("device certificate id " ++ certificate.certificateId ++
      " does not match signed payload"))
  crypto.verifyRoot rootPublicKey certificate signature
  pure {
    certificateId := certificate.certificateId
    fabricId := certificate.fabricId
    deviceId := certificate.deviceId
    signingPublicKeyHex := certificate.signingPublicKeyHex
    networkPublicKeyHex := certificate.networkPublicKeyHex
    expiresAtUnixSeconds := certificate.expiresAtUnixSeconds }

theorem verifyRoot_eq_ok {rootPublicKey : List UInt8} {certificate : DeviceCertificate}
    {signature : List UInt8} {u : Unit} :
    crypto.verifyRoot rootPublicKey certificate signature = .ok u ↔
      crypto.keyError rootPublicKey = none ∧
        crypto.signatureError rootPublicKey (signedCertificatePayload certificate) signature =
          none := by
  unfold verifyRoot
  cases crypto.keyError rootPublicKey with
  | some err => exact iff_of_false (by rintro ⟨⟩) fun h => nomatch h.1
  | none =>
    cases crypto.signatureError rootPublicKey (signedCertificatePayload certificate)
        signature with
    | some err => exact iff_of_false (by rintro ⟨⟩) fun h => nomatch h.2
    | none => exact iff_of_true rfl ⟨rfl, rfl⟩

/-- What a certificate has passed that is validated. -/
structure Validates (certificate : DeviceCertificate) (pinnedRoot : FabricRootIdentity)
    (revocations : List DeviceRevocationRecord) (nowUnixSeconds : UInt64)
    (signingKey networkKey rootPublicKey signature : List UInt8) : Prop where
  fabric : certificate.fabricId = pinnedRoot.fabricId
  issuer : certificate.issuerRootPublicKeyHex = pinnedRoot.rootPublicKeyHex
  issued : certificate.issuedAtUnixSeconds ≤ nowUnixSeconds
  unexpired : nowUnixSeconds < certificate.expiresAtUnixSeconds
  unrevoked : ∀ revocation ∈ revocations, revocation.deviceId ≠ certificate.deviceId
  signingKey_read : decodeHexArray 32 "signing_public_key_hex"
    certificate.signingPublicKeyHex = .ok signingKey
  networkKey_read : decodeHexArray 32 "network_public_key_hex"
    certificate.networkPublicKeyHex = .ok networkKey
  rootKey_read : decodeHexArray 32 "root_public_key_hex"
    pinnedRoot.rootPublicKeyHex = .ok rootPublicKey
  signature_read : decodeHexArray 64 "signature_hex" certificate.signatureHex = .ok signature
  id : certificate.certificateId =
    crypto.certificateId (signedCertificatePayload certificate)
  rootKey_valid : crypto.keyError rootPublicKey = none
  verified : crypto.signatureError rootPublicKey (signedCertificatePayload certificate)
    signature = none

theorem validateDeviceCertificate_eq_ok {certificate : DeviceCertificate}
    {pinnedRoot : FabricRootIdentity} {revocations : List DeviceRevocationRecord}
    {nowUnixSeconds : UInt64} {validated : ValidatedDeviceCertificate} :
    crypto.validateDeviceCertificate certificate pinnedRoot revocations nowUnixSeconds =
        .ok validated ↔
      (∃ signingKey networkKey rootPublicKey signature, crypto.Validates certificate pinnedRoot
        revocations nowUnixSeconds signingKey networkKey rootPublicKey signature) ∧
      validated = ⟨certificate.certificateId, certificate.fabricId, certificate.deviceId,
        certificate.signingPublicKeyHex, certificate.networkPublicKeyHex,
        certificate.expiresAtUnixSeconds⟩ := by
  unfold validateDeviceCertificate
  simp only [bind_eq_ok_iff, exists_unit, verifyRoot_eq_ok, require_eq_ok, decide_eq_true_eq,
    Bool.not_eq_true', List.any_eq_false]
  constructor
  · rintro ⟨hfabric, hissuer, hissued, hexpires, hrevoked, signingKey, hsigning, networkKey,
      hnetwork, rootKey, hroot, signature, hsignature, hid, ⟨hkey, hverified⟩, hresult⟩
    exact ⟨⟨signingKey, networkKey, rootKey, signature, hfabric, hissuer, hissued, hexpires,
      fun r hr => hrevoked r hr, hsigning, hnetwork, hroot, hsignature, hid, hkey, hverified⟩,
      (Except.ok.inj hresult).symm⟩
  · rintro ⟨⟨signingKey, networkKey, rootKey, signature, h⟩, rfl⟩
    exact ⟨h.fabric, h.issuer, h.issued, h.unexpired, fun r hr => h.unrevoked r hr, signingKey,
      h.signingKey_read, networkKey, h.networkKey_read, rootKey, h.rootKey_read, signature,
      h.signature_read, h.id, ⟨h.rootKey_valid, h.verified⟩, rfl⟩

/-- A device of the fabric gets a certificate of its own fields. -/
theorem issueDeviceCertificate_ok {secrets : FabricSecrets} {device : DevicePublicIdentity}
    (hfabric : device.fabricId = secrets.fabricId) (issuedAtUnixSeconds ttlSeconds : UInt64) :
    ∃ certificate, crypto.issueDeviceCertificate secrets device issuedAtUnixSeconds ttlSeconds =
        .ok certificate ∧
      certificate.signingPublicKeyHex = device.signingPublicKeyHex ∧
      certificate.issuedAtUnixSeconds = issuedAtUnixSeconds ∧
      certificate.expiresAtUnixSeconds = saturatingAdd issuedAtUnixSeconds (max ttlSeconds 1) := by
  rw [issueDeviceCertificate, if_neg (not_not.mpr hfabric)]
  exact ⟨_, rfl, rfl, rfl, rfl⟩

theorem issueDeviceCertificate_spec {secrets : FabricSecrets} {device : DevicePublicIdentity}
    {issuedAtUnixSeconds ttlSeconds : UInt64} {certificate : DeviceCertificate}
    (h : crypto.issueDeviceCertificate secrets device issuedAtUnixSeconds ttlSeconds =
      .ok certificate) :
    certificate.signingPublicKeyHex = device.signingPublicKeyHex ∧
      certificate.issuedAtUnixSeconds = issuedAtUnixSeconds := by
  unfold issueDeviceCertificate at h
  split at h
  · cases h
  · cases h
    exact ⟨rfl, rfl⟩

/-- An issued certificate is validated while it is valid, if its keys can be read. -/
theorem validates_issued {secrets : FabricSecrets} {device : DevicePublicIdentity}
    {issuedAtUnixSeconds ttlSeconds nowUnixSeconds : UInt64} {certificate : DeviceCertificate}
    (hissue : crypto.issueDeviceCertificate secrets device issuedAtUnixSeconds ttlSeconds =
      .ok certificate)
    (fabricName : String) {revocations : List DeviceRevocationRecord}
    {signingKey networkKey : List UInt8}
    (hissued : certificate.issuedAtUnixSeconds ≤ nowUnixSeconds)
    (hexpires : nowUnixSeconds < certificate.expiresAtUnixSeconds)
    (hrevoked : ∀ revocation ∈ revocations, revocation.deviceId ≠ device.deviceId)
    (hsigning : decodeHexArray 32 "signing_public_key_hex" device.signingPublicKeyHex =
      .ok signingKey)
    (hnetwork : decodeHexArray 32 "network_public_key_hex" device.networkPublicKeyHex =
      .ok networkKey) :
    crypto.Validates certificate (crypto.root secrets fabricName) revocations nowUnixSeconds
      signingKey networkKey (crypto.verifyingKey secrets.rootSecretKey)
      (crypto.sign secrets.rootSecretKey (signedCertificatePayload certificate)) := by
  unfold issueDeviceCertificate at hissue
  split at hissue
  · cases hissue
  · rename_i hfabric
    cases hissue
    have hrootRead := decodeFixedHex_hexEncode "root_public_key_hex"
      (crypto.verifyingKey secrets.rootSecretKey)
    rw [crypto.length_verifyingKey] at hrootRead
    refine ⟨not_not.mp hfabric, rfl, hissued, hexpires, hrevoked, hsigning, hnetwork, hrootRead,
      ?_, rfl, crypto.verifyingKey_valid _, crypto.sign_verifies _ _⟩
    have hsignature := decodeFixedHex_hexEncode "signature_hex"
      (crypto.sign secrets.rootSecretKey (signedCertificatePayload {
        certificateId := ""
        fabricId := device.fabricId
        deviceId := device.deviceId
        signingPublicKeyHex := device.signingPublicKeyHex
        networkPublicKeyHex := device.networkPublicKeyHex
        issuerRootPublicKeyHex := hexEncode (crypto.verifyingKey secrets.rootSecretKey)
        issuedAtUnixSeconds := issuedAtUnixSeconds
        expiresAtUnixSeconds := saturatingAdd issuedAtUnixSeconds (max ttlSeconds 1)
        signatureHex := "" }))
    rw [crypto.length_sign] at hsignature
    exact hsignature

end TrustCrypto

end DevRelay.Trust
