import DevRelay.Core.Hashing
import DevRelay.Lib.Checks
import DevRelay.Lib.FlatJson
import DevRelay.Trust.Pairing

/-!
# What the pairing code authenticates

The transcript of `compute_handshake_transcript_hash` names the fabric, the devices, the
ephemeral keys and the anchor address, each as it was spelled and in the role it has on this
side.  The two sides of a pairing hash different bytes.
-/

namespace DevRelay.Trust

open DevRelay.Core DevRelay.Lib

/-! ## The transcript -/

def anchorScalar : Option String → Lib.JsonScalar
  | none => .null
  | some address => .text address.toList

/-- The serialised transcript; the fields of a JSON object are in the order of their names. -/
def handshakeTranscript (request : PairingStartRequest) (localEphemeralPublicKeyHex : String) :
    List Char :=
  writeObject ("anchor_address".toList, anchorScalar request.anchorAddress)
    [("fabric_id".toList, .text request.fabricId.toList),
      ("local_device_id".toList, .text request.localDeviceId.toList),
      ("local_ephemeral_public_key_hex".toList, .text localEphemeralPublicKeyHex.toList),
      ("peer_device_id".toList, .text request.peerDeviceId.toList),
      ("peer_ephemeral_public_key_hex".toList, .text request.peerEphemeralPublicKeyHex.toList),
      ("schema".toList, .number 1)]

/-- The bytes that are hashed. -/
def transcriptBytes (request : PairingStartRequest) (localEphemeralPublicKeyHex : String) :
    ByteArray :=
  (String.ofList (handshakeTranscript request localEphemeralPublicKeyHex)).toUTF8

/-- `blake3::hash(&encoded).to_hex()` -/
def PairingEnv.hashing (self : PairingEnv) (digest : Blake3) : PairingEnv :=
  { self with
    transcriptDigest := fun request localKey => digest.hex (transcriptBytes request localKey) }

theorem anchorScalar_injective {a b : Option String} (h : anchorScalar a = anchorScalar b) :
    a = b := by
  cases a with
  | none =>
    cases b with
    | none => rfl
    | some b => cases h
  | some a =>
    cases b with
    | none => cases h
    | some b => exact congrArg some (String.toList_inj.mp (Lib.JsonScalar.text.inj h))

/-- The bytes tell every text in them. -/
theorem transcriptBytes_eq_iff {a b : PairingStartRequest} {ka kb : String} :
    transcriptBytes a ka = transcriptBytes b kb ↔
      a.fabricId = b.fabricId ∧ a.localDeviceId = b.localDeviceId ∧
        a.peerDeviceId = b.peerDeviceId ∧ ka = kb ∧
        a.peerEphemeralPublicKeyHex = b.peerEphemeralPublicKeyHex ∧
        a.anchorAddress = b.anchorAddress := by
  constructor
  · intro h
    have htext : handshakeTranscript a ka = handshakeTranscript b kb :=
      String.ofList_inj.mp (String.toByteArray_inj.mp h)
    have hread := congrArg (fun text => readObject (text ++ [])) htext
    simp only [handshakeTranscript, readObject_write, Option.some.injEq, Prod.mk.injEq,
      List.cons.injEq, Lib.JsonScalar.text.injEq, String.toList_inj, true_and, and_true] at hread
    obtain ⟨hanchor, hfabric, hlocal, hkey, hpeer, hephemeral⟩ := hread
    exact ⟨hfabric, hlocal, hpeer, hkey, hephemeral, anchorScalar_injective hanchor⟩
  · rintro ⟨hfabric, hlocal, hpeer, rfl, hephemeral, hanchor⟩
    rw [transcriptBytes, transcriptBytes, handshakeTranscript, handshakeTranscript, hfabric,
      hlocal, hpeer, hephemeral, hanchor]

/-! ## Sessions -/

/-- One side of a pairing: what a session is started with, the ephemeral key it generates,
and the keys of the device it runs on. -/
structure PairingSide where
  request : PairingStartRequest
  localEphemeralPublicKeyHex : String
  localSigningPublicKeyHex : String
  localNetworkPublicKeyHex : String
  accepted : validatePairingStartRequest request = .ok ()
  generated : validateKeyHex "local_ephemeral_public_key_hex" localEphemeralPublicKeyHex = .ok ()

/-- A device, with the keys a side knows it by. -/
structure PairingParty where
  deviceId : String
  signingPublicKeyHex : String
  networkPublicKeyHex : String
  ephemeralPublicKeyHex : String
  deriving DecidableEq

namespace PairingSide

variable (self : PairingSide)

def own : PairingParty :=
  ⟨self.request.localDeviceId, self.localSigningPublicKeyHex, self.localNetworkPublicKeyHex,
    self.localEphemeralPublicKeyHex⟩

def peer : PairingParty :=
  ⟨self.request.peerDeviceId, self.request.peerSigningPublicKeyHex,
    self.request.peerNetworkPublicKeyHex, self.request.peerEphemeralPublicKeyHex⟩

def transcriptBytes : ByteArray :=
  Trust.transcriptBytes self.request self.localEphemeralPublicKeyHex

/-- The session was started by this side, on some store. -/
def Started (digest : Blake3) (session : PairingSession) : Prop :=
  ∃ (env : PairingEnv) (db : TrustDb),
    env.ephemeralPublicKeyHex = .ok self.localEphemeralPublicKeyHex ∧
      (startPairingSession (env.hashing digest) self.request db).1 = .ok session

end PairingSide

/-- Two spellings of one key. -/
def SameKey (a b : String) : Prop := a.toList.map hexDigitValue = b.toList.map hexDigitValue

namespace PairingParty

/-- What a confirmation stores as trusted is the same. -/
def SameTrusted (self other : PairingParty) : Prop :=
  self.deviceId = other.deviceId ∧
    SameKey self.signingPublicKeyHex other.signingPublicKeyHex ∧
    SameKey self.networkPublicKeyHex other.networkPublicKeyHex

def Same (self other : PairingParty) : Prop :=
  self.SameTrusted other ∧ SameKey self.ephemeralPublicKeyHex other.ephemeralPublicKeyHex

end PairingParty

/-- How the roles of two sessions relate: two sessions on one device, or the two sides of one
pairing. -/
inductive PairingRoles where
  | same
  | exchanged
  deriving DecidableEq, Repr

namespace PairingRoles

/-- The two sides of one pairing use the ephemeral keys that the other published. -/
def Related (self : PairingRoles) (x y : PairingSide) : Prop :=
  match self with
  | .same => True
  | .exchanged => SameKey x.peer.ephemeralPublicKeyHex y.own.ephemeralPublicKeyHex ∧
      SameKey y.peer.ephemeralPublicKeyHex x.own.ephemeralPublicKeyHex

/-- Both are about the same fabric, devices and keys. -/
def Agree (self : PairingRoles) (x y : PairingSide) : Prop :=
  x.request.fabricId = y.request.fabricId ∧
    match self with
    | .same => x.own.Same y.own ∧ x.peer.Same y.peer
    | .exchanged => x.peer.Same y.own ∧ y.peer.Same x.own

/-- What one of them will trust is not what the other holds. -/
def Differ (self : PairingRoles) (x y : PairingSide) : Prop :=
  match self with
  | .same => ¬x.peer.SameTrusted y.peer
  | .exchanged => ¬x.peer.SameTrusted y.own ∨ ¬y.peer.SameTrusted x.own

end PairingRoles

/-- The two sides of one pairing, about the same fabric, devices and keys. -/
def OnePairing (x y : PairingSide) : Prop :=
  PairingRoles.exchanged.Related x y ∧ PairingRoles.exchanged.Agree x y

/-- Every session generates its own ephemeral key. -/
def FreshKeys (x y : PairingSide) : Prop :=
  ¬SameKey x.localEphemeralPublicKeyHex y.localEphemeralPublicKeyHex

/-- Sessions that agree show one code, and sessions that differ in what they will trust hash
different bytes, whenever the hash tells these bytes. -/
def Authenticates (roles : PairingRoles) (x y : PairingSide) : Prop :=
  ∀ digest : Blake3,
    (digest.hex x.transcriptBytes = digest.hex y.transcriptBytes →
      x.transcriptBytes = y.transcriptBytes) →
    ∀ s t, x.Started digest s → y.Started digest t → roles.Related x y →
      (roles.Agree x y → s.shortAuthenticationString = t.shortAuthenticationString) ∧
      (roles.Differ x y → x.transcriptBytes ≠ y.transcriptBytes)

/-- The ephemeral keys alone tell the transcripts of two sessions. -/
theorem FreshKeys.transcriptBytes_ne {x y : PairingSide} (h : FreshKeys x y) :
    x.transcriptBytes ≠ y.transcriptBytes := by
  intro hbytes
  obtain ⟨-, -, -, hkey, -⟩ := transcriptBytes_eq_iff.mp hbytes
  apply h
  unfold SameKey
  rw [hkey]

theorem computeHandshakeTranscriptHash_hashing (x : PairingSide) (env : PairingEnv)
    (digest : Blake3) :
    computeHandshakeTranscriptHash (env.hashing digest) x.request x.localEphemeralPublicKeyHex =
      .ok (digest.hex x.transcriptBytes) := by
  have hpeer : validateKeyHex "peer_ephemeral_public_key_hex"
      x.request.peerEphemeralPublicKeyHex = .ok () := by
    have haccepted := x.accepted
    simp only [validatePairingStartRequest, bind_eq_ok] at haccepted
    exact haccepted.2.2.2.2.2.2
  unfold computeHandshakeTranscriptHash
  rw [x.generated]
  show (validateKeyHex _ _ >>= _) = _
  rw [hpeer]
  rfl

/-- The code a session shows is derived from the hash of its transcript, and the peer of the
side is what its confirmation will trust. -/
theorem PairingSide.Started.spec {x : PairingSide} {digest : Blake3} {session : PairingSession}
    (h : x.Started digest session) :
    deriveShortAuthenticationString (digest.hex x.transcriptBytes) =
        .ok session.shortAuthenticationString ∧
      session.peerDeviceId = x.peer.deviceId ∧
      session.peerSigningPublicKeyHex = x.peer.signingPublicKeyHex ∧
      session.peerNetworkPublicKeyHex = x.peer.networkPublicKeyHex := by
  obtain ⟨env, db, hkey, hstart⟩ := h
  obtain ⟨localKey, hash, sas, hlocal, hhash, hsas, rfl, -⟩ :=
    startPairingSession_eq_ok (Prod.ext hstart rfl)
  have hown : localKey = x.localEphemeralPublicKeyHex := Except.ok.inj (hlocal.symm.trans hkey)
  subst hown
  rw [computeHandshakeTranscriptHash_hashing x env digest] at hhash
  rw [Except.ok.inj hhash, hsas]
  exact ⟨rfl, rfl, rfl, rfl⟩

/-- A store that knows one fabric. -/
def storeOfFabric (fabricId : String) : TrustDb where
  metadata := ⟨.empty, .empty, .empty, .empty, .empty, [], .empty, []⟩
  fabricRoots := ⟨[fabricId], List.nodup_singleton fabricId⟩
  deviceIdentities := .empty
  pairingSessions := .empty
  commandTrustApprovals := []

def envOfKey (localEphemeralPublicKeyHex : String) : PairingEnv where
  unixNowSeconds := 0
  generatedPairingId := "pair-1"
  ephemeralPublicKeyHex := .ok localEphemeralPublicKeyHex
  transcriptDigest _ _ := ""
  json := ⟨.ok, id⟩
  fault := noFault
  readFault := none

/-- A side can start a session, on a store that knows its fabric. -/
theorem PairingSide.exists_started (x : PairingSide) {digest : Blake3} {code : String}
    (hcode : deriveShortAuthenticationString (digest.hex x.transcriptBytes) = .ok code) :
    ∃ session, x.Started digest session := by
  have hfabric : ((storeOfFabric x.request.fabricId).fabricRoots.lookup
      x.request.fabricId).isSome = true := by
    have hmem : x.request.fabricId ∈ (storeOfFabric x.request.fabricId).fabricRoots :=
      List.mem_singleton_self _
    exact Option.isSome_iff_exists.mpr ⟨_, Table.lookup_of_mem hmem⟩
  generalize henv : (envOfKey x.localEphemeralPublicKeyHex).hashing digest = env
  obtain ⟨session, hsession⟩ : ∃ session, session = startedSession env x.request
      x.localEphemeralPublicKeyHex (digest.hex x.transcriptBytes) code := ⟨_, rfl⟩
  have hinsert : ∃ db, insertPairingRow? (pairingRowOf session)
      (storeOfFabric x.request.fabricId) = some db := by
    have hfree : (storeOfFabric x.request.fabricId).pairingSessions.lookup
        (pairingRowOf session).pairingId = none := rfl
    obtain ⟨sessions, hsessions⟩ := Table.insert?_isSome hfree
    have hknown : (pairingRowOf session).fabricId = x.request.fabricId := by
      rw [hsession]
      rfl
    rw [insertPairingRow?, hknown, if_pos hfabric, hsessions]
    exact ⟨_, rfl⟩
  obtain ⟨db, hdb⟩ := hinsert
  have hrun : (startPairingBody env x.request).run (storeOfFabric x.request.fabricId) =
      (.ok (.committed (.ok session)), db) := by
    have hhash : computeHandshakeTranscriptHash env x.request x.localEphemeralPublicKeyHex =
        .ok (digest.hex x.transcriptBytes) := by
      rw [← henv]
      exact computeHandshakeTranscriptHash_hashing x _ digest
    have hkey : env.ephemeralPublicKeyHex = .ok x.localEphemeralPublicKeyHex := by
      rw [← henv]
      rfl
    simp only [startPairingBody, Prog.run_query_bind, Prog.run_ensure_bind_ok,
      Prog.run_ofExcept_bind_ok, Prog.run_attempt_bind_ok, Prog.run_commitWith_ok]
    refine ⟨hfabric, _, hkey, _, hhash, _, hcode, db, ?_, ?_, rfl⟩
    · rw [← hsession]
      exact hdb
    · rw [← hsession]
  refine ⟨session, envOfKey x.localEphemeralPublicKeyHex, storeOfFabric x.request.fabricId, rfl, ?_⟩
  rw [henv, startPairingSession, x.accepted]
  have hfault : env.fault = noFault := by
    rw [← henv]
    rfl
  rw [hfault, Prog.transaction_noFault, hrun]

/-! ## What is authenticated -/

theorem code_markingDigest_self (bytes : ByteArray) :
    deriveShortAuthenticationString ((markingDigest bytes).hex bytes) = .ok "331153" := by
  rw [hex_markingDigest_self]
  decide

theorem code_markingDigest_of_ne {bytes other : ByteArray} (h : other ≠ bytes) :
    deriveShortAuthenticationString ((markingDigest bytes).hex other) = .ok "000000" := by
  rw [hex_markingDigest_of_ne h]
  decide

/-- Started under a digest that tells the transcript of the first from all others, two
sides with different transcripts show different codes. -/
theorem exists_started_markingDigest (x y : PairingSide) :
    ∃ s t, x.Started (markingDigest x.transcriptBytes) s ∧
      y.Started (markingDigest x.transcriptBytes) t ∧
      (s.shortAuthenticationString = t.shortAuthenticationString →
        x.transcriptBytes = y.transcriptBytes) := by
  have hx := code_markingDigest_self x.transcriptBytes
  obtain ⟨s, hs⟩ := x.exists_started hx
  by_cases hsame : y.transcriptBytes = x.transcriptBytes
  · have hy := hx
    rw [← hsame] at hy
    rw [← hsame] at hs ⊢
    obtain ⟨t, ht⟩ := y.exists_started hy
    exact ⟨s, t, hs, ht, fun _ => rfl⟩
  · have hy := code_markingDigest_of_ne hsame
    obtain ⟨t, ht⟩ := y.exists_started hy
    refine ⟨s, t, hs, ht, ?_⟩
    intro hcodes
    have hzero := hx.symm.trans hs.spec.1
    have hone := hy.symm.trans ht.spec.1
    rw [hcodes, ← Except.ok.inj hone] at hzero
    exact absurd (Except.ok.inj hzero) (by decide)

/-- On one device the keys of two sessions are their own. -/
theorem FreshKeys.not_agree_same {x y : PairingSide} (h : FreshKeys x y) :
    ¬PairingRoles.same.Agree x y := by
  rintro ⟨-, ⟨-, hkey⟩, -⟩
  exact h hkey

/-- The two sides of one pairing show different codes. -/
theorem FreshKeys.not_authenticates {x y : PairingSide} (h : FreshKeys x y)
    (hpairing : OnePairing x y) : ¬Authenticates .exchanged x y := by
  intro hauthenticates
  obtain ⟨s, t, hs, ht, hcodes⟩ := exists_started_markingDigest x y
  have hcode := (hauthenticates _ (fun hhex => (eq_of_markingDigest hhex.symm).symm) s t hs ht
    hpairing.1).1 hpairing.2
  exact h.transcriptBytes_ne (hcodes hcode)

/-- Sessions with ephemeral keys of their own hash different bytes, so that what becomes trusted
is authenticated except on the two sides of one pairing, which ought to show one code. -/
theorem authenticates_iff_of_freshKeys (roles : PairingRoles) (x y : PairingSide)
    (hfresh : FreshKeys x y) :
    Authenticates roles x y ↔ (roles = .exchanged → ¬OnePairing x y) := by
  constructor
  · rintro h rfl hpairing
    exact hfresh.not_authenticates hpairing h
  · intro h digest _ s t _ _ hrelated
    refine ⟨fun hagree => ?_, fun _ => hfresh.transcriptBytes_ne⟩
    cases roles with
    | same => exact absurd hagree hfresh.not_agree_same
    | exchanged => exact absurd ⟨hrelated, hagree⟩ (h rfl)

/-! ## Two devices -/

def keyOfOne : String := "1111111111111111111111111111111111111111111111111111111111111111"
def keyOfTwo : String := "2222222222222222222222222222222222222222222222222222222222222222"

def firstRequest : PairingStartRequest where
  fabricId := "f_1"
  localDeviceId := "device-a"
  peerDeviceId := "device-b"
  peerDisplayName := "laptop"
  peerSigningPublicKeyHex := keyOfTwo
  peerNetworkPublicKeyHex := keyOfTwo
  peerEphemeralPublicKeyHex := keyOfTwo
  anchorAddress := none
  ttlSeconds := 600

theorem validate_firstRequest : validatePairingStartRequest firstRequest = .ok () := by
  simp only [firstRequest, validatePairingStartRequest, bind_eq_ok]
  exact ⟨by decide, by decide, by decide, by decide, by decide, by decide, by decide⟩

theorem validateKeyHex_keyOfOne :
    validateKeyHex "local_ephemeral_public_key_hex" keyOfOne = .ok () := by decide

/-- One device, which pairs with the other. -/
def firstSide : PairingSide where
  request := firstRequest
  localEphemeralPublicKeyHex := keyOfOne
  localSigningPublicKeyHex := keyOfOne
  localNetworkPublicKeyHex := keyOfOne
  accepted := validate_firstRequest
  generated := validateKeyHex_keyOfOne

def secondRequest : PairingStartRequest where
  fabricId := "f_1"
  localDeviceId := "device-b"
  peerDeviceId := "device-a"
  peerDisplayName := "desktop"
  peerSigningPublicKeyHex := keyOfOne
  peerNetworkPublicKeyHex := keyOfOne
  peerEphemeralPublicKeyHex := keyOfOne
  anchorAddress := none
  ttlSeconds := 600

theorem validate_secondRequest : validatePairingStartRequest secondRequest = .ok () := by
  simp only [secondRequest, validatePairingStartRequest, bind_eq_ok]
  exact ⟨by decide, by decide, by decide, by decide, by decide, by decide,
    by decide⟩

theorem validateKeyHex_keyOfTwo :
    validateKeyHex "local_ephemeral_public_key_hex" keyOfTwo = .ok () := by decide

/-- The other device. -/
def secondSide : PairingSide where
  request := secondRequest
  localEphemeralPublicKeyHex := keyOfTwo
  localSigningPublicKeyHex := keyOfTwo
  localNetworkPublicKeyHex := keyOfTwo
  accepted := validate_secondRequest
  generated := validateKeyHex_keyOfTwo

theorem freshKeys_sides : FreshKeys firstSide secondSide := by
  unfold FreshKeys SameKey
  decide

theorem onePairing_sides : OnePairing firstSide secondSide :=
  ⟨⟨rfl, rfl⟩, rfl, ⟨⟨rfl, rfl, rfl⟩, rfl⟩, ⟨⟨rfl, rfl, rfl⟩, rfl⟩⟩

theorem authenticates_iff_of_freshKeys_sides : Authenticates .exchanged firstSide secondSide ↔
    (PairingRoles.exchanged = .exchanged → ¬OnePairing firstSide secondSide) :=
  authenticates_iff_of_freshKeys .exchanged firstSide secondSide freshKeys_sides

/-- The two sides of an honest pairing show different codes. -/
theorem honest_sides_show_two_codes : FreshKeys firstSide secondSide ∧
    ¬Authenticates .exchanged firstSide secondSide :=
  ⟨freshKeys_sides, freshKeys_sides.not_authenticates onePairing_sides⟩

end DevRelay.Trust
