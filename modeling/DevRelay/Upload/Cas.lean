import DevRelay.Core.Error
import DevRelay.Core.Hashing
import DevRelay.Lib.Checks
import DevRelay.Lib.Machine
import DevRelay.Lib.PartialMap

/-!
# The content-addressed store

`cas.rs`: chunks are kept under their hash, manifests under the hash of their
chunks, and a reachability root names a manifest.  A file is written by a rename,
so each operation changes the store in one step or not at all.
-/

namespace DevRelay.Upload

open DevRelay.Lib DevRelay.Core

def casSchemaVersion : UInt32 := 1
def casHashPrefix : String := "b3_"

/-- The test of `validate_hash_format`. -/
def isHashFormat (value : String) : Bool :=
  match casHashPrefix.toList.isPrefixOf? value.toList with
  | none => false
  | some hex => hex.length = blake3HexLen && hex.all isLowerHexdigit

def validateHashFormat (value : String) : Except DevRelayError Unit :=
  match casHashPrefix.toList.isPrefixOf? value.toList with
  | none => .error (.config ("CAS hash " ++ value ++ " must start with " ++ casHashPrefix))
  | some hex =>
    if hex.length = blake3HexLen && hex.all isLowerHexdigit then .ok ()
    else .error (.config ("CAS hash " ++ value ++ " must contain " ++
      toString blake3HexLen ++ " lowercase hex characters"))

theorem validateHashFormat_eq_ok {value : String} :
    validateHashFormat value = .ok () ↔ isHashFormat value = true := by
  unfold validateHashFormat isHashFormat
  split
  · simp
  · split <;> simp_all

theorem isHashFormat_digest (blake3 : Blake3) (bytes : ByteArray) :
    isHashFormat (casHashPrefix ++ blake3.hex bytes) = true := by
  have hdigits : casHashPrefix.toList.isPrefixOf?
      (casHashPrefix ++ blake3.hex bytes).toList = some (blake3.hex bytes).toList := by
    rw [String.toList_append]
    simp [casHashPrefix, List.isPrefixOf?]
  unfold isHashFormat
  rw [hdigits]
  simp only [blake3.hex_length, blake3.hex_digits, decide_true, Bool.and_true]

/-- A hash that has been parsed. -/
structure CasChunkHash where
  value : String
  parsed : isHashFormat value = true
  deriving DecidableEq

def CasChunkHash.fromBytes (blake3 : Blake3) (bytes : ByteArray) : CasChunkHash :=
  ⟨casHashPrefix ++ blake3.hex bytes, isHashFormat_digest blake3 bytes⟩

structure CasChunkRecord where
  hash : CasChunkHash
  sizeBytes : UInt64
  deriving DecidableEq

structure CasUploadResult where
  chunk : CasChunkRecord
  stored : Bool
  deriving DecidableEq

structure CasManifestChunk where
  hash : CasChunkHash
  offsetBytes : UInt64
  sizeBytes : UInt64
  deriving DecidableEq

structure CasManifest where
  schemaVersion : UInt32
  manifestId : String
  totalBytes : UInt64
  chunks : List CasManifestChunk
  createdAtUnixSeconds : UInt64
  deriving DecidableEq

structure CasReachabilityRoot where
  rootId : String
  manifestId : String
  createdAtUnixSeconds : UInt64
  deriving DecidableEq

/-- The files of a store: chunks under their hash, manifests and roots under their
ids. -/
structure CasStore where
  chunks : CasChunkHash → Option ByteArray
  manifests : String → Option CasManifest
  roots : String → Option CasReachabilityRoot

def CasStore.empty : CasStore := ⟨fun _ => none, fun _ => none, fun _ => none⟩

/-- The name of a file is neither empty nor a way out of its directory. -/
def isSafeFileName (name : String) : Bool :=
  !(name.isEmpty || name = "." || name = ".." || name.toList.contains '/' ||
    name.toList.contains '\\' || decide (['.', '.'] <:+: name.toList) ||
    name.toList.any fun c => c.toNat ≤ 0x20 || c.toNat = 0x7f)

def validateRootId (rootId : String) : Except DevRelayError Unit :=
  if isSafeFileName rootId then .ok ()
  else .error (.config ("CAS reachability root id " ++ rootId ++
    " is not safe for a file path"))

section Manifests

variable (blake3 : Blake3)

def calculateManifestId (chunks : List CasManifestChunk) : String :=
  let hasher := Hasher.new.update "devrelay.cas.manifest.v1".toUTF8
  let hasher := chunks.foldl (fun hasher chunk =>
    ((hasher.update chunk.hash.value.toUTF8).update (toLeBytes chunk.offsetBytes)).update
      (toLeBytes chunk.sizeBytes)) hasher
  casHashPrefix ++ blake3.hex hasher.fed

/-- The loop over the chunks; its result is the offset behind the last one. -/
def checkOffsets : UInt64 → List CasManifestChunk → Except DevRelayError UInt64
  | offset, [] => .ok offset
  | offset, chunk :: chunks =>
    if chunk.offsetBytes ≠ offset then
      .error (.config ("CAS manifest chunk offset " ++ toString chunk.offsetBytes ++
        " does not match expected " ++ toString offset))
    else
      checkOffsets (saturatingAdd offset chunk.sizeBytes) chunks

def CasManifest.validate (self : CasManifest) : Except DevRelayError Unit := do
  if self.schemaVersion ≠ casSchemaVersion then
    throw (.config ("unsupported CAS manifest schema " ++ toString self.schemaVersion ++
      ", expected " ++ toString casSchemaVersion))
  validateHashFormat self.manifestId
  let expectedId := calculateManifestId blake3 self.chunks
  if self.manifestId ≠ expectedId then
    throw (.config ("CAS manifest id " ++ self.manifestId ++
      " does not match content hash " ++ expectedId))
  let offset ← checkOffsets 0 self.chunks
  if self.totalBytes ≠ offset then
    throw (.config ("CAS manifest total_bytes " ++ toString self.totalBytes ++
      " does not match chunks " ++ toString offset))

end Manifests

namespace CasStore

variable (blake3 : Blake3) (self : CasStore)

def downloadChunk (hash : CasChunkHash) : Except DevRelayError ByteArray :=
  match self.chunks hash with
  | none => .error (.io ("no file for chunk " ++ hash.value))
  | some bytes =>
    let actual := CasChunkHash.fromBytes blake3 bytes
    if actual ≠ hash then
      .error (.config ("CAS chunk " ++ hash.value ++
        " failed download verification; got " ++ actual.value))
    else
      .ok bytes

def verifyChunkFile (hash : CasChunkHash) : Except DevRelayError UInt64 := do
  let bytes ← self.downloadChunk blake3 hash
  return UInt64.ofNat bytes.size

/-- A chunk that is there already is verified, not written again. -/
def uploadChunk (bytes : ByteArray) (expectedHash : CasChunkHash) :
    Except DevRelayError (CasUploadResult × CasStore) :=
  let actualHash := CasChunkHash.fromBytes blake3 bytes
  if actualHash ≠ expectedHash then
    .error (.config ("CAS chunk upload hash mismatch: expected " ++ expectedHash.value ++
      ", got " ++ actualHash.value))
  else
    let chunk := { hash := expectedHash, sizeBytes := UInt64.ofNat bytes.size }
    if (self.chunks expectedHash).isSome then do
      let _ ← self.verifyChunkFile blake3 expectedHash
      return ({ chunk, stored := false }, self)
    else
      .ok ({ chunk, stored := true },
        { self with chunks := assign self.chunks expectedHash bytes })

def missingChunks (hashes : List CasChunkHash) : List CasChunkHash :=
  hashes.filter fun hash => match self.verifyChunkFile blake3 hash with
    | .ok _ => false
    | .error _ => true

/-- The loop of `create_manifest`: the chunks with their offsets, and their total. -/
def placeChunks : UInt64 → List CasChunkHash →
    Except DevRelayError (List CasManifestChunk × UInt64)
  | offset, [] => .ok ([], offset)
  | offset, hash :: hashes => do
    let sizeBytes ← self.verifyChunkFile blake3 hash
    let (chunks, total) ← placeChunks (saturatingAdd offset sizeBytes) hashes
    return ({ hash, offsetBytes := offset, sizeBytes } :: chunks, total)

def createManifest (now : UInt64) (chunkHashes : List CasChunkHash) :
    Except DevRelayError (CasManifest × CasStore) := do
  let (chunks, totalBytes) ← self.placeChunks blake3 0 chunkHashes
  let manifest := {
    schemaVersion := casSchemaVersion
    manifestId := calculateManifestId blake3 chunks
    totalBytes, chunks
    createdAtUnixSeconds := now }
  manifest.validate blake3
  return (manifest, { self with manifests := assign self.manifests manifest.manifestId manifest })

def fetchManifest (manifestId : String) : Except DevRelayError CasManifest := do
  validateHashFormat manifestId
  match self.manifests manifestId with
  | none => throw (.io ("no file for manifest " ++ manifestId))
  | some manifest =>
    manifest.validate blake3
    if manifest.manifestId ≠ manifestId then
      throw (.config ("CAS manifest file " ++ manifestId ++ " contained " ++
        manifest.manifestId))
    return manifest

def addReachabilityRoot (now : UInt64) (rootId manifestId : String) :
    Except DevRelayError (CasReachabilityRoot × CasStore) := do
  validateRootId rootId
  let _ ← self.fetchManifest blake3 manifestId
  let root := { rootId, manifestId, createdAtUnixSeconds := now }
  return (root, { self with roots := assign self.roots rootId root })

/-- The result says whether there was a root. -/
def removeReachabilityRoot (rootId : String) : Except DevRelayError (Bool × CasStore) := do
  validateRootId rootId
  return ((self.roots rootId).isSome,
    { self with roots := fun name => if name = rootId then none else self.roots name })

end CasStore

/-! ## Data that is there -/

section Stored

variable {blake3 : Blake3} {self : CasStore}

/-- The file of a chunk is there and has the chunk's hash. -/
def ChunkStored (blake3 : Blake3) (self : CasStore) (hash : CasChunkHash) : Prop :=
  ∃ bytes, self.chunks hash = some bytes ∧ CasChunkHash.fromBytes blake3 bytes = hash

/-- The manifest can be read, and so can each of its chunks. -/
def ManifestStored (blake3 : Blake3) (self : CasStore) (manifestId : String) : Prop :=
  ∃ manifest, self.fetchManifest blake3 manifestId = .ok manifest ∧
    ∀ chunk ∈ manifest.chunks, ChunkStored blake3 self chunk.hash

theorem downloadChunk_eq_ok {hash : CasChunkHash} {bytes : ByteArray} :
    self.downloadChunk blake3 hash = .ok bytes ↔
      self.chunks hash = some bytes ∧ CasChunkHash.fromBytes blake3 bytes = hash := by
  unfold CasStore.downloadChunk
  split
  · rename_i hnone
    simp [hnone]
  · rename_i stored hsome
    dsimp only
    split
    · rename_i hne
      simp only [reduceCtorEq, hsome, Option.some.injEq, false_iff, not_and]
      intro heq
      rwa [← heq]
    · rename_i heq
      simp only [Except.ok.injEq, hsome, Option.some.injEq, iff_self_and]
      intro hbytes
      rw [← hbytes]
      exact not_not.mp heq

theorem chunkStored_of_verify {hash : CasChunkHash} {size : UInt64}
    (h : self.verifyChunkFile blake3 hash = .ok size) : ChunkStored blake3 self hash := by
  obtain ⟨bytes, hdownload, _⟩ := bind_eq_ok_iff.mp h
  exact ⟨bytes, downloadChunk_eq_ok.mp hdownload⟩

theorem missingChunks_eq_nil {hashes : List CasChunkHash}
    (h : self.missingChunks blake3 hashes = []) :
    ∀ hash ∈ hashes, ChunkStored blake3 self hash := by
  intro hash hmem
  have hkept := List.filter_eq_nil_iff.mp h hash hmem
  cases hverify : self.verifyChunkFile blake3 hash with
  | error e => simp [hverify] at hkept
  | ok size => exact chunkStored_of_verify hverify

theorem placeChunks_stored {offset total : UInt64} {hashes : List CasChunkHash}
    {chunks : List CasManifestChunk}
    (h : self.placeChunks blake3 offset hashes = .ok (chunks, total)) :
    ∀ chunk ∈ chunks, ChunkStored blake3 self chunk.hash := by
  induction hashes generalizing offset chunks total with
  | nil =>
    cases h
    exact fun chunk hmem => absurd hmem List.not_mem_nil
  | cons hash hashes ih =>
    obtain ⟨size, hverify, h⟩ := bind_eq_ok_iff.mp h
    obtain ⟨rest, hrest, h⟩ := bind_eq_ok_iff.mp h
    cases h
    exact List.forall_mem_cons.mpr ⟨chunkStored_of_verify hverify, ih hrest⟩

theorem fetchManifest_eq_ok {manifestId : String} {manifest : CasManifest} :
    self.fetchManifest blake3 manifestId = .ok manifest ↔
      isHashFormat manifestId = true ∧ self.manifests manifestId = some manifest ∧
        manifest.validate blake3 = .ok () ∧ manifest.manifestId = manifestId := by
  unfold CasStore.fetchManifest
  rw [bind_eq_ok_iff]
  constructor
  · rintro ⟨_, hformat, h⟩
    cases hfile : self.manifests manifestId with
    | none =>
      rw [hfile] at h
      cases h
    | some stored =>
      rw [hfile] at h
      obtain ⟨_, hvalid, h⟩ := bind_eq_ok_iff.mp h
      split at h
      · cases h
      · rename_i heq
        cases h
        exact ⟨validateHashFormat_eq_ok.mp hformat, rfl, hvalid, not_not.mp heq⟩
  · rintro ⟨hformat, hfile, hvalid, heq⟩
    refine ⟨(), validateHashFormat_eq_ok.mpr hformat, ?_⟩
    simp only [hfile]
    rw [hvalid]
    simp [heq, Bind.bind, Except.bind, Pure.pure, Except.pure]

/-- A manifest that is valid has an id that can be a file name of a manifest. -/
theorem isHashFormat_of_validate {manifest : CasManifest}
    (h : manifest.validate blake3 = .ok ()) : isHashFormat manifest.manifestId = true := by
  unfold CasManifest.validate at h
  split at h
  · cases h
  · obtain ⟨_, hformat, _⟩ := bind_eq_ok_iff.mp h
    exact validateHashFormat_eq_ok.mp hformat

/-! ## What the operations leave stored -/

theorem uploadChunk_stored {bytes : ByteArray} {expectedHash hash : CasChunkHash}
    {result : CasUploadResult} {store : CasStore}
    (h : self.uploadChunk blake3 bytes expectedHash = .ok (result, store))
    (hstored : ChunkStored blake3 self hash) : ChunkStored blake3 store hash := by
  unfold CasStore.uploadChunk at h
  dsimp only at h
  split at h
  · cases h
  · rename_i hactual
    split at h
    · obtain ⟨_, _, h⟩ := bind_eq_ok_iff.mp h
      cases h
      exact hstored
    · cases h
      by_cases heq : hash = expectedHash
      · subst heq
        exact ⟨bytes, assign_self, not_not.mp hactual⟩
      · obtain ⟨stored, hfile, hhash⟩ := hstored
        exact ⟨stored, (assign_of_ne heq).trans hfile, hhash⟩

theorem uploadChunk_eq {bytes : ByteArray} {expectedHash : CasChunkHash}
    {result : CasUploadResult} {store : CasStore}
    (h : self.uploadChunk blake3 bytes expectedHash = .ok (result, store)) :
    ∃ chunks, store = { self with chunks } := by
  unfold CasStore.uploadChunk at h
  dsimp only at h
  split at h
  · cases h
  · split at h
    · obtain ⟨_, _, h⟩ := bind_eq_ok_iff.mp h
      cases h
      exact ⟨self.chunks, rfl⟩
    · cases h
      exact ⟨_, rfl⟩

/-- A manifest that is created is stored with its chunks, in the place of its id only. -/
theorem createManifest_eq {now : UInt64} {hashes : List CasChunkHash}
    {manifest : CasManifest} {store : CasStore}
    (h : self.createManifest blake3 now hashes = .ok (manifest, store)) :
    store = { self with manifests := assign self.manifests manifest.manifestId manifest } ∧
      manifest.validate blake3 = .ok () ∧
      ∀ chunk ∈ manifest.chunks, ChunkStored blake3 self chunk.hash := by
  obtain ⟨placed, hplaced, h⟩ := bind_eq_ok_iff.mp h
  obtain ⟨_, hvalid, h⟩ := bind_eq_ok_iff.mp h
  cases h
  exact ⟨rfl, hvalid, placeChunks_stored hplaced⟩

theorem addReachabilityRoot_eq {now : UInt64} {rootId manifestId : String}
    {root : CasReachabilityRoot} {store : CasStore}
    (h : self.addReachabilityRoot blake3 now rootId manifestId = .ok (root, store)) :
    root.manifestId = manifestId ∧
      store = { self with roots := assign self.roots rootId root } := by
  obtain ⟨_, _, h⟩ := bind_eq_ok_iff.mp h
  obtain ⟨_, _, h⟩ := bind_eq_ok_iff.mp h
  cases h
  exact ⟨rfl, rfl⟩

theorem removeReachabilityRoot_eq {rootId : String} {removed : Bool} {store : CasStore}
    (h : self.removeReachabilityRoot rootId = .ok (removed, store)) :
    store = { self with
      roots := fun name => if name = rootId then none else self.roots name } := by
  obtain ⟨_, _, h⟩ := bind_eq_ok_iff.mp h
  cases h
  rfl

theorem manifestStored_of_uploadChunk {bytes : ByteArray} {expectedHash : CasChunkHash}
    {result : CasUploadResult} {store : CasStore} {manifestId : String}
    (h : self.uploadChunk blake3 bytes expectedHash = .ok (result, store))
    (hstored : ManifestStored blake3 self manifestId) :
    ManifestStored blake3 store manifestId := by
  obtain ⟨manifest, hfetch, hchunks⟩ := hstored
  refine ⟨manifest, ?_, fun chunk hmem => uploadChunk_stored h (hchunks chunk hmem)⟩
  obtain ⟨chunks, rfl⟩ := uploadChunk_eq h
  exact hfetch

/-- Rewriting a manifest under its id leaves every manifest stored: the new one has its
chunks too. -/
theorem manifestStored_of_createManifest {now : UInt64} {hashes : List CasChunkHash}
    {manifest : CasManifest} {store : CasStore} {manifestId : String}
    (h : self.createManifest blake3 now hashes = .ok (manifest, store))
    (hstored : ManifestStored blake3 self manifestId) :
    ManifestStored blake3 store manifestId := by
  obtain ⟨rfl, hvalid, hchunks⟩ := createManifest_eq h
  by_cases heq : manifestId = manifest.manifestId
  · subst heq
    refine ⟨manifest, fetchManifest_eq_ok.mpr ?_, hchunks⟩
    exact ⟨isHashFormat_of_validate hvalid, assign_self, hvalid, rfl⟩
  · obtain ⟨stored, hfetch, hstored⟩ := hstored
    refine ⟨stored, fetchManifest_eq_ok.mpr ?_, hstored⟩
    obtain ⟨hformat, hfile, hrest⟩ := fetchManifest_eq_ok.mp hfetch
    exact ⟨hformat, (assign_of_ne heq).trans hfile, hrest⟩

end Stored

end DevRelay.Upload
