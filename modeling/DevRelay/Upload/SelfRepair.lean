import DevRelay.Upload.Cas
import Mathlib.Tactic.IntervalCases

/-!
# Repair of a chunk store

A caller asks which chunks of a manifest are missing and uploads them.  A file
with the wrong bytes counts as missing, but an upload only verifies a file that
is there: it never writes over it, so a corrupt chunk stays.
-/

namespace DevRelay.Upload

open DevRelay.Lib DevRelay.Core

variable (blake3 : Blake3)

/-- The caller's loop.  `contents` are the bytes it has for a hash. -/
def uploadEach (contents : CasChunkHash → ByteArray) :
    List CasChunkHash → CasStore → Except DevRelayError CasStore
  | [], store => .ok store
  | hash :: rest, store => do
    let (_, store) ← store.uploadChunk blake3 (contents hash) hash
    uploadEach contents rest store

def readChunks (store : CasStore) : List CasManifestChunk → Except DevRelayError ByteArray
  | [] => .ok ByteArray.empty
  | chunk :: rest => do
    let bytes ← store.downloadChunk blake3 chunk.hash
    let behind ← readChunks store rest
    return bytes ++ behind

/-- The bytes that a manifest stands for. -/
def fetchContent (store : CasStore) (manifestId : String) : Except DevRelayError ByteArray := do
  let manifest ← store.fetchManifest blake3 manifestId
  readChunks blake3 store manifest.chunks

def chunkHashes (manifest : CasManifest) : List CasChunkHash :=
  manifest.chunks.map fun chunk => chunk.hash

def originalContent (contents : CasChunkHash → ByteArray) : List CasManifestChunk → ByteArray
  | [] => ByteArray.empty
  | chunk :: rest => contents chunk.hash ++ originalContent contents rest

/-- The uploads of the missing chunks go through, nothing is missing then, and the manifest
is read back as it was. -/
def SelfRepairs (contents : CasChunkHash → ByteArray) (store : CasStore)
    (manifest : CasManifest) : Prop :=
  ∃ repaired,
    uploadEach blake3 contents (store.missingChunks blake3 (chunkHashes manifest)) store =
        .ok repaired ∧
      repaired.missingChunks blake3 (chunkHashes manifest) = [] ∧
      fetchContent blake3 repaired manifest.manifestId =
        .ok (originalContent contents manifest.chunks)

/-- The file of a chunk has other bytes than the hash says. -/
def Corrupt (store : CasStore) (hash : CasChunkHash) : Prop :=
  ∃ bytes, store.chunks hash = some bytes ∧ CasChunkHash.fromBytes blake3 bytes ≠ hash

/-! ## One upload -/

variable {blake3} {store repaired : CasStore} {contents : CasChunkHash → ByteArray}
  {hash : CasChunkHash} {hashes : List CasChunkHash}

theorem verifyChunkFile_isOk : (∃ size, store.verifyChunkFile blake3 hash = .ok size) ↔
    ChunkStored blake3 store hash := by
  constructor
  · rintro ⟨size, h⟩
    exact chunkStored_of_verify h
  · rintro ⟨bytes, h⟩
    refine ⟨UInt64.ofNat bytes.size, ?_⟩
    unfold CasStore.verifyChunkFile
    rw [downloadChunk_eq_ok.mpr h]
    rfl

theorem mem_missingChunks : hash ∈ store.missingChunks blake3 hashes ↔
    hash ∈ hashes ∧ ¬ChunkStored blake3 store hash := by
  unfold CasStore.missingChunks
  rw [List.mem_filter, ← verifyChunkFile_isOk]
  apply and_congr_right
  intro _
  cases store.verifyChunkFile blake3 hash with
  | error e => simp
  | ok size => simp

theorem not_chunkStored_iff : ¬ChunkStored blake3 store hash ↔
    store.chunks hash = none ∨ Corrupt blake3 store hash := by
  unfold ChunkStored Corrupt
  cases store.chunks hash with
  | none => simp
  | some bytes => simp

/-- An upload never changes a file that is there. -/
theorem chunks_of_uploadChunk {bytes : ByteArray} {expectedHash : CasChunkHash}
    {result : CasUploadResult}
    (h : store.uploadChunk blake3 bytes expectedHash = .ok (result, repaired)) :
    repaired.manifests = store.manifests ∧
      (repaired.chunks = store.chunks ∧ ChunkStored blake3 store expectedHash ∨
        store.chunks expectedHash = none ∧
          repaired.chunks = assign store.chunks expectedHash bytes) := by
  unfold CasStore.uploadChunk at h
  dsimp only at h
  split at h
  · cases h
  · split at h
    · obtain ⟨size, hverify, h⟩ := bind_eq_ok_iff.mp h
      cases h
      exact ⟨rfl, Or.inl ⟨rfl, chunkStored_of_verify hverify⟩⟩
    · rename_i hnone
      cases h
      exact ⟨rfl, Or.inr ⟨Option.not_isSome_iff_eq_none.mp hnone, rfl⟩⟩

theorem uploadChunk_of_not_corrupt {bytes : ByteArray}
    (hbytes : CasChunkHash.fromBytes blake3 bytes = hash) (h : ¬Corrupt blake3 store hash) :
    ∃ result repaired, store.uploadChunk blake3 bytes hash = .ok (result, repaired) ∧
      ChunkStored blake3 repaired hash := by
  unfold CasStore.uploadChunk
  dsimp only
  rw [if_neg (not_not.mpr hbytes)]
  by_cases hstored : ChunkStored blake3 store hash
  · obtain ⟨size, hverify⟩ := verifyChunkFile_isOk.mpr hstored
    obtain ⟨stored, hfile, _⟩ := hstored
    rw [if_pos (by rw [hfile]; rfl), hverify]
    exact ⟨_, store, rfl, stored, hfile, ‹_›⟩
  · have hnone := (not_chunkStored_iff.mp hstored).resolve_right h
    rw [if_neg (by simp [hnone])]
    exact ⟨_, _, rfl, bytes, assign_self, hbytes⟩

/-! ## The caller's loop -/

theorem corrupt_of_uploadChunk {bytes : ByteArray} {expectedHash : CasChunkHash}
    {result : CasUploadResult}
    (h : store.uploadChunk blake3 bytes expectedHash = .ok (result, repaired))
    (hcorrupt : Corrupt blake3 store hash) : Corrupt blake3 repaired hash := by
  obtain ⟨bytes, hfile, hne⟩ := hcorrupt
  refine ⟨bytes, ?_, hne⟩
  rcases (chunks_of_uploadChunk h).2 with ⟨hsame, -⟩ | ⟨hnone, hchunks⟩
  · rw [hsame, hfile]
  · rw [hchunks, assign_of_ne, hfile]
    rintro rfl
    rw [hfile] at hnone
    cases hnone

theorem not_corrupt_of_uploadEach
    (h : uploadEach blake3 contents hashes store = .ok repaired) :
    ∀ hash ∈ hashes, ¬Corrupt blake3 store hash := by
  induction hashes generalizing store with
  | nil => simp
  | cons first rest ih =>
    obtain ⟨⟨result, next⟩, hupload, hrest⟩ := bind_eq_ok_iff.mp h
    intro hash hmem hcorrupt
    rcases List.mem_cons.mp hmem with rfl | hin
    · rcases (chunks_of_uploadChunk hupload).2 with ⟨-, hstored⟩ | ⟨hnone, -⟩
      · exact not_chunkStored_iff.mpr (Or.inr hcorrupt) hstored
      · obtain ⟨bytes, hfile, -⟩ := hcorrupt
        rw [hfile] at hnone
        cases hnone
    · exact ih hrest hash hin (corrupt_of_uploadChunk hupload hcorrupt)

/-- A file that is there has the bytes that the caller has. -/
def Faithful (contents : CasChunkHash → ByteArray) (hashes : List CasChunkHash)
    (store : CasStore) : Prop :=
  ∀ hash ∈ hashes, ∀ bytes, store.chunks hash = some bytes → bytes = contents hash

theorem not_corrupt_of_faithful {all : List CasChunkHash} (h : Faithful contents all store)
    (hmem : hash ∈ all) (hcorrect : CasChunkHash.fromBytes blake3 (contents hash) = hash) :
    ¬Corrupt blake3 store hash := by
  rintro ⟨bytes, hfile, hne⟩
  rw [h hash hmem bytes hfile] at hne
  exact hne hcorrect

/-- An upload of the caller's bytes keeps what is there, and adds those bytes. -/
theorem uploadChunk_of_faithful {all : List CasChunkHash} (h : Faithful contents all store)
    (hmem : hash ∈ all) (hcorrect : CasChunkHash.fromBytes blake3 (contents hash) = hash) :
    ∃ result repaired,
      store.uploadChunk blake3 (contents hash) hash = .ok (result, repaired) ∧
        Faithful contents all repaired ∧ (repaired.chunks hash).isSome ∧
        (∀ other, (store.chunks other).isSome → (repaired.chunks other).isSome) ∧
        repaired.manifests = store.manifests := by
  obtain ⟨result, repaired, hupload, bytes, hfile, -⟩ :=
    uploadChunk_of_not_corrupt hcorrect (not_corrupt_of_faithful h hmem hcorrect)
  obtain ⟨hmanifests, hchunks⟩ := chunks_of_uploadChunk hupload
  refine ⟨result, repaired, hupload, ?_, by rw [hfile]; rfl, ?_, hmanifests⟩
  · intro other hother stored hstored
    rcases hchunks with ⟨hsame, -⟩ | ⟨-, hassign⟩
    · rw [hsame] at hstored
      exact h other hother stored hstored
    · rw [hassign] at hstored
      rcases assign_eq_some.mp hstored with ⟨rfl, rfl⟩ | ⟨-, hold⟩
      · rfl
      · exact h other hother stored hold
  · intro other hsome
    rcases hchunks with ⟨hsame, -⟩ | ⟨-, hassign⟩
    · rwa [hsame]
    · rw [hassign]
      exact isSome_assign hsome

theorem uploadEach_of_faithful {all : List CasChunkHash}
    (hcorrect : ∀ hash ∈ all, CasChunkHash.fromBytes blake3 (contents hash) = hash)
    (hsubset : ∀ hash ∈ hashes, hash ∈ all) (h : Faithful contents all store) :
    ∃ repaired, uploadEach blake3 contents hashes store = .ok repaired ∧
      Faithful contents all repaired ∧ (∀ hash ∈ hashes, (repaired.chunks hash).isSome) ∧
      (∀ other, (store.chunks other).isSome → (repaired.chunks other).isSome) ∧
      repaired.manifests = store.manifests := by
  induction hashes generalizing store with
  | nil => exact ⟨store, rfl, h, by simp, fun _ hsome => hsome, rfl⟩
  | cons first rest ih =>
    have hfirst := hsubset first List.mem_cons_self
    obtain ⟨result, next, hupload, hnext, hthere, hkept, hmanifests⟩ :=
      uploadChunk_of_faithful h hfirst (hcorrect first hfirst)
    obtain ⟨repaired, hrest, hfaithful, hall, hkept', hmanifests'⟩ :=
      ih (fun hash hmem => hsubset hash (List.mem_cons_of_mem _ hmem)) hnext
    refine ⟨repaired, ?_, hfaithful, ?_, fun other hsome => hkept' other (hkept other hsome),
      hmanifests'.trans hmanifests⟩
    · exact bind_eq_ok_iff.mpr ⟨(result, next), hupload, hrest⟩
    · intro hash hmem
      rcases List.mem_cons.mp hmem with rfl | hin
      · exact hkept' hash hthere
      · exact hall hash hin

/-! ## Reading the manifest back -/

theorem readChunks_of_stored {chunks : List CasManifestChunk}
    (h : ∀ chunk ∈ chunks, store.chunks chunk.hash = some (contents chunk.hash) ∧
      CasChunkHash.fromBytes blake3 (contents chunk.hash) = chunk.hash) :
    readChunks blake3 store chunks = .ok (originalContent contents chunks) := by
  induction chunks with
  | nil => rfl
  | cons chunk rest ih =>
    have hbytes := downloadChunk_eq_ok.mpr (h chunk List.mem_cons_self)
    have hrest := ih fun other hother => h other (List.mem_cons_of_mem _ hother)
    unfold readChunks
    rw [hbytes, hrest]
    rfl

variable {manifest : CasManifest}

/-- What the caller has: the bytes of every chunk of a manifest that the store holds.  No
other bytes in the store have the hash of a chunk. -/
structure CallerHas (blake3 : Blake3) (contents : CasChunkHash → ByteArray) (store : CasStore)
    (manifest : CasManifest) : Prop where
  fetched : store.fetchManifest blake3 manifest.manifestId = .ok manifest
  correct : ∀ hash ∈ chunkHashes manifest, CasChunkHash.fromBytes blake3 (contents hash) = hash
  noCollision : ∀ hash ∈ chunkHashes manifest, ∀ bytes, store.chunks hash = some bytes →
    CasChunkHash.fromBytes blake3 bytes = hash → bytes = contents hash

theorem fetchManifest_congr (h : repaired.manifests = store.manifests) (manifestId : String) :
    repaired.fetchManifest blake3 manifestId = store.fetchManifest blake3 manifestId := by
  unfold CasStore.fetchManifest
  rw [h]

/-- A store is repaired by uploading what it reports as missing exactly when no chunk of the
manifest is corrupt. -/
theorem selfRepairs_iff (blake3 : Blake3) (contents : CasChunkHash → ByteArray)
    (store : CasStore) (manifest : CasManifest) (h : CallerHas blake3 contents store manifest) :
    SelfRepairs blake3 contents store manifest ↔
      ∀ hash ∈ chunkHashes manifest, ¬Corrupt blake3 store hash := by
  constructor
  · rintro ⟨repaired, huploads, -⟩ hash hmem hcorrupt
    -- a corrupt chunk is reported as missing, and its upload fails
    have hmissing : hash ∈ store.missingChunks blake3 (chunkHashes manifest) :=
      mem_missingChunks.mpr ⟨hmem, not_chunkStored_iff.mpr (Or.inr hcorrupt)⟩
    exact not_corrupt_of_uploadEach huploads hash hmissing hcorrupt
  · intro hintact
    have hfaithful : Faithful contents (chunkHashes manifest) store := by
      intro hash hmem bytes hfile
      apply h.noCollision hash hmem bytes hfile
      by_contra hne
      exact hintact hash hmem ⟨bytes, hfile, hne⟩
    obtain ⟨repaired, huploads, hrepaired, hmissing, hkept, hmanifests⟩ :=
      uploadEach_of_faithful h.correct
        (fun hash hmem => (mem_missingChunks.mp hmem).1) hfaithful
    have hthere : ∀ hash ∈ chunkHashes manifest,
        repaired.chunks hash = some (contents hash) := by
      intro hash hmem
      have hsome : (repaired.chunks hash).isSome := by
        by_cases hstored : ChunkStored blake3 store hash
        · obtain ⟨bytes, hfile, -⟩ := hstored
          apply hkept
          rw [hfile]
          rfl
        · exact hmissing hash (mem_missingChunks.mpr ⟨hmem, hstored⟩)
      obtain ⟨bytes, hfile⟩ := Option.isSome_iff_exists.mp hsome
      rw [hfile, hrepaired hash hmem bytes hfile]
    refine ⟨repaired, huploads, ?_, ?_⟩
    · rw [List.eq_nil_iff_forall_not_mem]
      intro hash hmem
      obtain ⟨hin, hnot⟩ := mem_missingChunks.mp hmem
      exact hnot ⟨contents hash, hthere hash hin, h.correct hash hin⟩
    · unfold fetchContent
      rw [fetchManifest_congr hmanifests, h.fetched]
      apply readChunks_of_stored
      intro chunk hmem
      have hin : chunk.hash ∈ chunkHashes manifest := List.mem_map_of_mem hmem
      exact ⟨hthere chunk.hash hin, h.correct chunk.hash hin⟩

/-! ## A corrupt chunk -/

/-- A digest that tells the two files below apart: it ends in the size. -/
def sizeDigest : Blake3 where
  hex bytes := String.ofList (List.replicate 63 '0' ++ [Nat.digitChar (bytes.size % 10)])
  hex_length bytes := by simp [blake3HexLen]
  hex_digits bytes := by
    rw [String.toList_ofList, List.all_append, Bool.and_eq_true]
    refine ⟨by decide, ?_⟩
    have hlt : bytes.size % 10 < 10 := Nat.mod_lt _ (by omega)
    generalize bytes.size % 10 = digit at hlt
    interval_cases digit <;> decide

def validBytes : ByteArray := "valid".toUTF8

def validHash : CasChunkHash := CasChunkHash.fromBytes sizeDigest validBytes

def validManifest : CasManifest where
  schemaVersion := casSchemaVersion
  manifestId := calculateManifestId sizeDigest [⟨validHash, 0, 5⟩]
  totalBytes := 5
  chunks := [⟨validHash, 0, 5⟩]
  createdAtUnixSeconds := 0

/-- The file of the chunk has been overwritten. -/
def corruptStore : CasStore where
  chunks _ := some "corrupt".toUTF8
  manifests _ := some validManifest
  roots _ := none

theorem validManifest_valid : validManifest.validate sizeDigest = .ok () := by
  decide +kernel

theorem corrupt_corruptStore : Corrupt sizeDigest corruptStore validHash := by
  refine ⟨"corrupt".toUTF8, rfl, ?_⟩
  decide

theorem callerHas_corruptStore :
    CallerHas sizeDigest (fun _ => validBytes) corruptStore validManifest where
  fetched := fetchManifest_eq_ok.mpr
    ⟨isHashFormat_of_validate validManifest_valid, rfl, validManifest_valid, rfl⟩
  correct hash hmem := by
    rw [List.mem_singleton.mp hmem]
    rfl
  noCollision hash hmem bytes hfile hsame := by
    obtain ⟨stored, hstored, hne⟩ := corrupt_corruptStore
    rw [List.mem_singleton.mp hmem] at hfile hsame
    rw [hstored] at hfile
    cases hfile
    exact absurd hsame hne

theorem corrupt_chunk_stays : ¬∀ (blake3 : Blake3) (contents : CasChunkHash → ByteArray)
    (store : CasStore) (manifest : CasManifest), CallerHas blake3 contents store manifest →
      SelfRepairs blake3 contents store manifest := by
  intro hall
  obtain ⟨repaired, huploads, -⟩ := hall _ _ _ _ callerHas_corruptStore
  have hmissing : validHash ∈
      corruptStore.missingChunks sizeDigest (chunkHashes validManifest) :=
    mem_missingChunks.mpr ⟨List.mem_cons_self,
      not_chunkStored_iff.mpr (Or.inr corrupt_corruptStore)⟩
  exact not_corrupt_of_uploadEach huploads validHash hmissing corrupt_corruptStore

theorem selfRepairs_iff_corrupt :
    SelfRepairs sizeDigest (fun _ => validBytes) corruptStore validManifest ↔
      ∀ hash ∈ chunkHashes validManifest, ¬Corrupt sizeDigest corruptStore hash :=
  selfRepairs_iff _ _ _ _ callerHas_corruptStore

end DevRelay.Upload
