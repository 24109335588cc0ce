import DevRelay.Lib.Counting
import DevRelay.Storage.Publish

/-!
# The trust tables

The tables of `storage.rs` that decide whom and what a device trusts: fabric
roots, device identities, pairing sessions and command approvals.  They stand
beside the tables of the metadata store, in the same database.
-/

namespace DevRelay.Trust

open DevRelay.Lib DevRelay.Core DevRelay.Storage

/-! ## Rows -/

structure DeviceIdentityRow where
  deviceId : String
  fabricId : String
  displayName : String
  signingPublicKeyHex : String
  networkPublicKeyHex : String
  platformKey : String
  architecture : String
  createdAtUnixSeconds : Int64
  lastSeenUnixSeconds : Int64
  deriving DecidableEq

structure PairingSessionRow where
  pairingId : String
  fabricId : String
  localDeviceId : String
  peerDeviceId : String
  peerDisplayName : String
  peerSigningPublicKeyHex : String
  peerNetworkPublicKeyHex : String
  anchorAddress : Option String
  localEphemeralPublicKeyHex : String
  peerEphemeralPublicKeyHex : String
  transcriptHashHex : String
  shortAuthenticationString : String
  state : String
  certificateJson : Option String
  expiresAtUnixSeconds : Int64
  confirmedAtUnixSeconds : Option Int64
  abortedAtUnixSeconds : Option Int64
  createdAtUnixSeconds : Int64
  deriving DecidableEq

structure CommandTrustRow where
  approvalId : Nat
  projectId : String
  deviceId : String
  commandScope : String
  commandHash : String
  decision : String
  consumedAtUnixSeconds : Option Int64
  createdAtUnixSeconds : Int64
  deriving DecidableEq

/-- The approvals number their rows from 1, like the append-only tables. -/
structure TrustDb where
  metadata : MetadataDb
  fabricRoots : Table (id : String → String)
  deviceIdentities : Table DeviceIdentityRow.deviceId
  pairingSessions : Table PairingSessionRow.pairingId
  commandTrustApprovals : List CommandTrustRow
  deriving DecidableEq

abbrev TrustSql := Prog TrustDb DevRelayError

/-! ## Statements on the metadata tables -/

/-- A statement that only touches the tables of the metadata store. -/
def onMetadata {α : Type} (p : Sql α) : TrustSql α :=
  p.within TrustDb.metadata fun metadata db => { db with metadata }

theorem run_onMetadata {α : Type} (p : Sql α) (db : TrustDb) :
    (onMetadata p).run db =
      ((p.run db.metadata).1, { db with metadata := (p.run db.metadata).2 }) := by
  unfold onMetadata
  rw [Prog.run_within]
  · intro metadata db
    rfl
  · intro db
    rfl
  · intro metadata metadata' db
    rfl

theorem run_onMetadata_bind_ok {α β : Type} {p : Sql α} {k : α → TrustSql β}
    {db db' : TrustDb} {b : β} (h : (onMetadata p >>= k).run db = (.ok b, db')) :
    ∃ a metadata, p.run db.metadata = (.ok a, metadata) ∧
      (k a).run { db with metadata } = (.ok b, db') := by
  obtain ⟨a, db₁, hrun, hk⟩ := (Prog.run_bind_ok _ _ _ _ _).mp h
  rw [run_onMetadata] at hrun
  obtain ⟨hreply, rfl⟩ := Prod.mk.inj hrun
  exact ⟨a, _, Prod.ext hreply rfl, hk⟩

end DevRelay.Trust
