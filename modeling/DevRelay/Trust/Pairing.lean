import DevRelay.Trust.Schema
import Mathlib.Data.List.Sort

/-!
# Pairing sessions

`start_pairing_session`, `confirm_pairing_session`, `abort_pairing_session` and
`expire_pairing_sessions`.  A client runs one of them at a time, statement by
statement: `PairingCode` is the rest of the operation that it still has to run.
A transaction is one statement of that kind: nothing comes between its reads
and its commit.
-/

namespace DevRelay.Trust

open DevRelay.Lib DevRelay.Core DevRelay.Storage

inductive PairingState where
  | pending
  | confirmed
  | aborted
  | expired
  deriving DecidableEq, Repr

namespace PairingState

def asStr : PairingState → String
  | pending => "pending"
  | confirmed => "confirmed"
  | aborted => "aborted"
  | expired => "expired"

def parse (value : String) : PairingState :=
  match value with
  | "confirmed" => confirmed
  | "aborted" => aborted
  | "expired" => expired
  | _ => pending

@[simp] theorem parse_asStr (state : PairingState) : parse state.asStr = state := by
  cases state <;> rfl

def isTerminal : PairingState → Bool
  | confirmed => true
  | aborted => true
  | expired => true
  | pending => false

theorem eq_pending {state : PairingState} (h : state.isTerminal = false) : state = pending := by
  cases state with
  | pending => rfl
  | confirmed => cases h
  | aborted => cases h
  | expired => cases h

end PairingState

structure PairingSession where
  pairingId : String
  fabricId : String
  localDeviceId : String
  peerDeviceId : String
  peerDisplayName : String
  peerSigningPublicKeyHex : String
  peerNetworkPublicKeyHex : String
  anchorAddress : Option String
  localEphemeralPublicKeyHex : String
  peerEphemeralPublicKeyHex : String
  transcriptHashHex : String
  shortAuthenticationString : String
  state : PairingState
  certificateJson : Option String
  expiresAtUnixSeconds : UInt64
  confirmedAtUnixSeconds : Option UInt64
  abortedAtUnixSeconds : Option UInt64
  createdAtUnixSeconds : UInt64
  deriving DecidableEq, Repr

def pairingSessionFromRow (row : PairingSessionRow) : PairingSession where
  pairingId := row.pairingId
  fabricId := row.fabricId
  localDeviceId := row.localDeviceId
  peerDeviceId := row.peerDeviceId
  peerDisplayName := row.peerDisplayName
  peerSigningPublicKeyHex := row.peerSigningPublicKeyHex
  peerNetworkPublicKeyHex := row.peerNetworkPublicKeyHex
  anchorAddress := row.anchorAddress
  localEphemeralPublicKeyHex := row.localEphemeralPublicKeyHex
  peerEphemeralPublicKeyHex := row.peerEphemeralPublicKeyHex
  transcriptHashHex := row.transcriptHashHex
  shortAuthenticationString := row.shortAuthenticationString
  state := PairingState.parse row.state
  certificateJson := row.certificateJson
  expiresAtUnixSeconds := clampU64 row.expiresAtUnixSeconds
  confirmedAtUnixSeconds := row.confirmedAtUnixSeconds.map clampU64
  abortedAtUnixSeconds := row.abortedAtUnixSeconds.map clampU64
  createdAtUnixSeconds := clampU64 row.createdAtUnixSeconds

def pairingRowOf (session : PairingSession) : PairingSessionRow where
  pairingId := session.pairingId
  fabricId := session.fabricId
  localDeviceId := session.localDeviceId
  peerDeviceId := session.peerDeviceId
  peerDisplayName := session.peerDisplayName
  peerSigningPublicKeyHex := session.peerSigningPublicKeyHex
  peerNetworkPublicKeyHex := session.peerNetworkPublicKeyHex
  anchorAddress := session.anchorAddress
  localEphemeralPublicKeyHex := session.localEphemeralPublicKeyHex
  peerEphemeralPublicKeyHex := session.peerEphemeralPublicKeyHex
  transcriptHashHex := session.transcriptHashHex
  shortAuthenticationString := session.shortAuthenticationString
  state := session.state.asStr
  certificateJson := session.certificateJson
  expiresAtUnixSeconds := asI64 session.expiresAtUnixSeconds
  confirmedAtUnixSeconds := session.confirmedAtUnixSeconds.map asI64
  abortedAtUnixSeconds := session.abortedAtUnixSeconds.map asI64
  createdAtUnixSeconds := asI64 session.createdAtUnixSeconds

structure PairingStartRequest where
  fabricId : String
  localDeviceId : String
  peerDeviceId : String
  peerDisplayName : String
  peerSigningPublicKeyHex : String
  peerNetworkPublicKeyHex : String
  peerEphemeralPublicKeyHex : String
  anchorAddress : Option String
  ttlSeconds : UInt64
  deriving DecidableEq, Repr

/-- What a statement of a pairing operation finds outside the store. -/
structure PairingEnv where
  unixNowSeconds : UInt64
  /-- `generate_pairing_id()` -/
  generatedPairingId : String
  /-- the public half of `generate_ephemeral_pairing_key()` -/
  ephemeralPublicKeyHex : Except DevRelayError String
  /-- `blake3::hash(..).to_hex()` of the serialised transcript -/
  transcriptDigest : PairingStartRequest → String → String
  json : JsonText
  /-- the statements of the transaction that fail -/
  fault : Fault DevRelayError
  /-- the failure of a single read -/
  readFault : Option DevRelayError

/-! ## Key material -/

def isHexDigit (c : Char) : Bool :=
  ('0' ≤ c && c ≤ '9') || ('a' ≤ c && c ≤ 'f') || ('A' ≤ c && c ≤ 'F')

def validateKeyHex (field value : String) : Except DevRelayError Unit :=
  if value.utf8ByteSize ≠ 64 ∨ ¬value.toList.all isHexDigit then
    .error (.config (field ++ " must be 64 hex characters"))
  else
    .ok ()

def computeHandshakeTranscriptHash (env : PairingEnv) (request : PairingStartRequest)
    (localEphemeralPublicKeyHex : String) : Except DevRelayError String := do
  validateKeyHex "local_ephemeral_public_key_hex" localEphemeralPublicKeyHex
  validateKeyHex "peer_ephemeral_public_key_hex" request.peerEphemeralPublicKeyHex
  .ok (env.transcriptDigest request localEphemeralPublicKeyHex)

def hexDigitValue (c : Char) : Nat :=
  if c ≤ '9' then c.toNat - 48 else if c ≤ 'F' then c.toNat - 55 else c.toNat - 87

/-- A number in six decimal digits. -/
def sixDigits (n : Nat) : String :=
  let digits := toString n
  String.ofList (List.replicate (6 - digits.length) '0') ++ digits

def deriveShortAuthenticationString (transcriptHashHex : String) : Except DevRelayError String :=
  if transcriptHashHex.utf8ByteSize < 8 ∨ ¬transcriptHashHex.toList.all isHexDigit then
    .error (.config "transcript_hash_hex must be hex")
  else
    let value := (transcriptHashHex.toList.take 8).foldl
      (fun n c => n * 16 + hexDigitValue c) 0
    .ok (sixDigits (value % 1000000))

/-! ## Statements -/

def TrustDb.getPairingSession (db : TrustDb) (pairingId : String) : Option PairingSession :=
  (db.pairingSessions.lookup pairingId).map pairingSessionFromRow

def selectPairingSession (pairingId : String) : TrustSql PairingSession := do
  let session ← Prog.query fun db => db.getPairingSession pairingId
  Prog.orFail session (.config ("unknown pairing session " ++ pairingId))

def insertPairingRow? (row : PairingSessionRow) (db : TrustDb) : Option TrustDb :=
  if (db.fabricRoots.lookup row.fabricId).isSome then
    (db.pairingSessions.insert? row).map fun pairingSessions => { db with pairingSessions }
  else
    none

namespace TrustDb

def updatePairingSessions (db : TrustDb) (p : PairingSessionRow → Bool)
    (f : PairingSessionRow → PairingSessionRow)
    (hf : ∀ r, (f r).pairingId = r.pairingId) : TrustDb :=
  { db with pairingSessions := db.pairingSessions.updateWhere p f hf }

/-- `UPDATE pairing_sessions SET state = 'expired' WHERE pairing_id = ?2` -/
def markPairingExpired (pairingId : String) (db : TrustDb) : TrustDb :=
  db.updatePairingSessions (fun r => r.pairingId = pairingId)
    (fun r => { r with state := PairingState.expired.asStr })
    fun _ => rfl

/-- `UPDATE .. SET state = 'aborted', aborted_at_unix_seconds = ?2 WHERE pairing_id = ?3` -/
def markPairingAborted (pairingId : String) (now : UInt64) (db : TrustDb) : TrustDb :=
  db.updatePairingSessions (fun r => r.pairingId = pairingId)
    (fun r => { r with
      state := PairingState.aborted.asStr, abortedAtUnixSeconds := some (asI64 now) })
    fun _ => rfl

/-- `UPDATE .. SET state = 'confirmed', .. WHERE pairing_id = ?4 AND state = 'pending'` -/
def markPairingConfirmed (pairingId certificateJson : String) (now : UInt64)
    (db : TrustDb) : TrustDb :=
  db.updatePairingSessions
    (fun r => r.pairingId = pairingId && r.state = PairingState.pending.asStr)
    (fun r => { r with
      state := PairingState.confirmed.asStr
      certificateJson := some certificateJson
      confirmedAtUnixSeconds := some (asI64 now) })
    fun _ => rfl

/-- `WHERE state = 'pending' AND expires_at_unix_seconds < ?2` -/
def overdue (now : UInt64) (r : PairingSessionRow) : Bool :=
  r.state = PairingState.pending.asStr && r.expiresAtUnixSeconds < asI64 now

/-- `ORDER BY expires_at_unix_seconds ASC, pairing_id ASC` -/
def expiresFirst (a b : PairingSessionRow) : Bool :=
  a.expiresAtUnixSeconds < b.expiresAtUnixSeconds ||
    (a.expiresAtUnixSeconds = b.expiresAtUnixSeconds && !(b.pairingId < a.pairingId))

/-- The identifiers an expiry reads. -/
def expiredPairings (now : UInt64) (db : TrustDb) : List String :=
  ((db.pairingSessions.rows.filter (overdue now)).insertionSort
    fun a b => expiresFirst a b = true).map PairingSessionRow.pairingId

end TrustDb

/-- The peer of a confirmed session, as a device identity. -/
def peerIdentityRow (session : PairingSession) (now : UInt64) : DeviceIdentityRow where
  deviceId := session.peerDeviceId
  fabricId := session.fabricId
  displayName := session.peerDisplayName
  signingPublicKeyHex := session.peerSigningPublicKeyHex
  networkPublicKeyHex := session.peerNetworkPublicKeyHex
  platformKey := "unknown"
  architecture := "unknown"
  createdAtUnixSeconds := asI64 session.createdAtUnixSeconds
  lastSeenUnixSeconds := asI64 now

/-- `INSERT INTO device_public_identities .. ON CONFLICT(device_id) DO UPDATE SET ..`:
an identity that exists keeps its platform and its creation time. -/
def upsertPeerIdentity? (row : DeviceIdentityRow) (db : TrustDb) : Option TrustDb :=
  if (db.fabricRoots.lookup row.fabricId).isSome then
    some { db with
      deviceIdentities :=
        match db.deviceIdentities.insert? row with
        | some deviceIdentities => deviceIdentities
        | none => db.deviceIdentities.updateWhere (fun r => r.deviceId = row.deviceId)
            (fun r => { r with
              fabricId := row.fabricId
              displayName := row.displayName
              signingPublicKeyHex := row.signingPublicKeyHex
              networkPublicKeyHex := row.networkPublicKeyHex
              lastSeenUnixSeconds := row.lastSeenUnixSeconds })
            fun _ => rfl }
  else
    none

/-! ## Transactions -/

def startedSession (env : PairingEnv) (request : PairingStartRequest)
    (localKey transcriptHashHex shortAuthenticationString : String) : PairingSession where
  pairingId := env.generatedPairingId
  fabricId := request.fabricId
  localDeviceId := request.localDeviceId
  peerDeviceId := request.peerDeviceId
  peerDisplayName := request.peerDisplayName
  peerSigningPublicKeyHex := request.peerSigningPublicKeyHex
  peerNetworkPublicKeyHex := request.peerNetworkPublicKeyHex
  anchorAddress := request.anchorAddress
  localEphemeralPublicKeyHex := localKey
  peerEphemeralPublicKeyHex := request.peerEphemeralPublicKeyHex
  transcriptHashHex := transcriptHashHex
  shortAuthenticationString := shortAuthenticationString
  state := .pending
  certificateJson := none
  expiresAtUnixSeconds := saturatingAdd env.unixNowSeconds (max request.ttlSeconds 1)
  confirmedAtUnixSeconds := none
  abortedAtUnixSeconds := none
  createdAtUnixSeconds := env.unixNowSeconds

def validatePairingStartRequest (request : PairingStartRequest) : Except DevRelayError Unit := do
  Storage.validateNonEmpty "fabric_id" request.fabricId
  Storage.validateNonEmpty "local_device_id" request.localDeviceId
  Storage.validateNonEmpty "peer_device_id" request.peerDeviceId
  Storage.validateNonEmpty "peer_display_name" request.peerDisplayName
  validateKeyHex "peer_signing_public_key_hex" request.peerSigningPublicKeyHex
  validateKeyHex "peer_network_public_key_hex" request.peerNetworkPublicKeyHex
  validateKeyHex "peer_ephemeral_public_key_hex" request.peerEphemeralPublicKeyHex

def startPairingBody (env : PairingEnv) (request : PairingStartRequest) :
    TrustSql (Ending (Except DevRelayError PairingSession)) := do
  let fabricExists ← Prog.query fun db => (db.fabricRoots.lookup request.fabricId).isSome
  Prog.ensure (fabricExists = true) (.config ("unknown fabric " ++ request.fabricId))
  let localKey ← Prog.ofExcept env.ephemeralPublicKeyHex
  let transcriptHashHex ← Prog.ofExcept (computeHandshakeTranscriptHash env request localKey)
  let shortAuthenticationString ←
    Prog.ofExcept (deriveShortAuthenticationString transcriptHashHex)
  let session := startedSession env request localKey transcriptHashHex
    shortAuthenticationString
  Prog.attempt (insertPairingRow? (pairingRowOf session)) constraintError
  Prog.commitWith (.ok session)

def startPairingSession (env : PairingEnv) (request : PairingStartRequest) (db : TrustDb) :
    Except DevRelayError PairingSession × TrustDb :=
  match validatePairingStartRequest request with
  | .error e => (.error e, db)
  | .ok () => (startPairingBody env request).transaction env.fault db

/-- A session that was started, and its row. -/
theorem startPairingSession_eq_ok {env : PairingEnv} {request : PairingStartRequest}
    {db after : TrustDb} {session : PairingSession}
    (h : startPairingSession env request db = (.ok session, after)) :
    ∃ localKey hash sas, env.ephemeralPublicKeyHex = .ok localKey ∧
      computeHandshakeTranscriptHash env request localKey = .ok hash ∧
      deriveShortAuthenticationString hash = .ok sas ∧
      session = startedSession env request localKey hash sas ∧
      insertPairingRow? (pairingRowOf session) db = some after := by
  unfold startPairingSession at h
  split at h
  · cases h
  · rcases Prog.transaction_cases env.fault (startPairingBody env request) db with
      ⟨e, heq⟩ | ⟨r, hrun, heq⟩ | ⟨r, t, hrun, heq⟩
    · rw [heq] at h
      cases h
    all_goals
      simp only [startPairingBody, Prog.run_query_bind, Prog.run_ensure_bind_ok,
        Prog.run_ofExcept_bind_ok, Prog.run_attempt_bind_ok, Prog.run_commitWith_ok] at hrun
      obtain ⟨-, localKey, hkey, hash, hhash, sas, hsas, db₁, hinsert, hending, hsame⟩ := hrun
      cases hending
    rw [heq] at h
    cases h
    exact ⟨localKey, hash, sas, hkey, hhash, hsas, rfl, hsame ▸ hinsert⟩

def devicePairedEvent (session : PairingSession) (now : UInt64) : AuditEventInput :=
  { AuditEventInput.new .devicePaired .succeeded
      ("paired device " ++ session.peerDisplayName) with
    detail := [
      ("pairing_id", .text session.pairingId),
      ("fabric_id", .text session.fabricId),
      ("confirmed_at_unix_seconds", .number now.toNat)]
    actorDeviceId := some session.localDeviceId
    targetDeviceId := some session.peerDeviceId }

/-- The refusal of a session that has ended. -/
def alreadyEnded (state : PairingState) : DevRelayError :=
  .config ("pairing session is already " ++ state.asStr)

def confirmPairingBody (pairingId observedCode certificateJson : String) (now : UInt64) :
    TrustSql (Ending (Except DevRelayError Unit)) := do
  let session ← selectPairingSession pairingId
  Prog.ensure (session.state.isTerminal = false) (alreadyEnded session.state)
  if now > session.expiresAtUnixSeconds then
    Prog.write (TrustDb.markPairingExpired pairingId)
    Prog.commitWith (.error (.config "pairing session expired"))
  else
    Prog.ensure (observedCode = session.shortAuthenticationString)
      (.config "pairing code mismatch")
    Prog.write (TrustDb.markPairingConfirmed pairingId certificateJson now)
    Prog.attempt (upsertPeerIdentity? (peerIdentityRow session now)) constraintError
    onMetadata (insertAuditEventTx (devicePairedEvent session now) now)
    Prog.commitWith (.ok ())

def confirmPairingTx (env : PairingEnv) (pairingId observedCode certificateJson : String)
    (now : UInt64) (db : TrustDb) : Except DevRelayError Unit × TrustDb :=
  match env.json.reserialize certificateJson with
  | .error e => (.error (.json e), db)
  | .ok _ =>
    (confirmPairingBody pairingId observedCode certificateJson now).transaction env.fault db

def abortPairingBody (pairingId : String) (now : UInt64) :
    TrustSql (Ending (Except DevRelayError Unit)) := do
  let session ← selectPairingSession pairingId
  Prog.ensure (session.state.isTerminal = false) (alreadyEnded session.state)
  Prog.write (TrustDb.markPairingAborted pairingId now)
  Prog.commitWith (.ok ())

def abortPairingTx (env : PairingEnv) (pairingId : String) (now : UInt64) (db : TrustDb) :
    Except DevRelayError Unit × TrustDb :=
  (abortPairingBody pairingId now).transaction env.fault db

/-- One update for each identifier that was read before. -/
def expirePairingBody : List String → TrustSql (Ending (Except DevRelayError Unit))
  | [] => Prog.commitWith (.ok ())
  | id :: ids => do
    Prog.write (TrustDb.markPairingExpired id)
    expirePairingBody ids

def expirePairingTx (env : PairingEnv) (ids : List String) (db : TrustDb) :
    Except DevRelayError Unit × TrustDb :=
  (expirePairingBody ids).transaction env.fault db

/-! ## Clients -/

/-- What a client still has to run of its operation. -/
inductive PairingCode where
  | start (request : PairingStartRequest)
  | confirm (pairingId observedCode certificateJson : String) (now : UInt64)
  | abort (pairingId : String) (now : UInt64)
  | expire (now : UInt64)
  /-- the transaction of an expiry, for the identifiers it has read -/
  | expireAll (ids : List String)
  /-- the reads after a commit -/
  | reread (missing : String) (ids : List String) (sessions : List PairingSession)
  | finished (reply : Except DevRelayError (List PairingSession))

namespace PairingCode

/-- The code that an operation starts with. -/
def isEntry : PairingCode → Bool
  | start _ => true
  | confirm _ _ _ _ => true
  | abort _ _ => true
  | expire _ => true
  | _ => false

def isFinished : PairingCode → Bool
  | finished _ => true
  | _ => false

/-- Go on with `next` after a transaction that committed. -/
def afterTx (r : Except DevRelayError Unit × TrustDb) (next : PairingCode) :
    PairingCode × TrustDb :=
  match r with
  | (.ok (), db) => (next, db)
  | (.error e, db) => (finished (.error e), db)

/-- Run one statement. -/
def step (env : PairingEnv) (code : PairingCode) (db : TrustDb) : PairingCode × TrustDb :=
  match code with
  | start request =>
    match startPairingSession env request db with
    | (.ok session, db) => (finished (.ok [session]), db)
    | (.error e, db) => (finished (.error e), db)
  | confirm pairingId observedCode certificateJson now =>
    afterTx (confirmPairingTx env pairingId observedCode certificateJson now db)
      (reread "pairing confirmation disappeared" [pairingId] [])
  | abort pairingId now =>
    afterTx (abortPairingTx env pairingId now db)
      (reread "pairing abort disappeared" [pairingId] [])
  | expire now =>
    match env.readFault with
    | some e => (finished (.error e), db)
    | none => (expireAll (db.expiredPairings now), db)
  | expireAll ids =>
    afterTx (expirePairingTx env ids db) (reread "expired pairing disappeared" ids [])
  | reread _ [] sessions => (finished (.ok sessions), db)
  | reread missing (id :: ids) sessions =>
    match env.readFault, db.getPairingSession id with
    | some e, _ => (finished (.error e), db)
    | none, some session => (reread missing ids (sessions ++ [session]), db)
    | none, none => (finished (.error (.config missing)), db)
  | finished reply => (finished reply, db)

end PairingCode

end DevRelay.Trust
