import DevRelay.Trust.KeyText
import DevRelay.Upload.Cas

/-!
# Manifests of the store

The id of a manifest is the hash of its chunks, each written in as many bytes, so it fixes the
chunks and their order.  The offsets are sums that stop at the largest word: they are the exact
sums of the sizes up to there.
-/

namespace DevRelay.Upload

open DevRelay.Core DevRelay.Lib DevRelay.Trust

/-- Each chunk begins where the chunks before it end, and the total is where the last one
ends. -/
structure ExactLayout (manifest : CasManifest) : Prop where
  offsets : ∀ before chunk after, manifest.chunks = before ++ chunk :: after →
    chunk.offsetBytes.toNat = exactSum (before.map (·.sizeBytes))
  total : manifest.totalBytes.toNat = exactSum (manifest.chunks.map (·.sizeBytes))

/-- The bytes that the id of a manifest is the hash of. -/
def manifestStream (chunks : List CasManifestChunk) : ByteArray :=
  (chunks.foldl (fun hasher chunk =>
    ((hasher.update chunk.hash.value.toUTF8).update (toLeBytes chunk.offsetBytes)).update
      (toLeBytes chunk.sizeBytes)) (Hasher.new.update "devrelay.cas.manifest.v1".toUTF8)).fed

/-- Two texts with one digest are the same. -/
def HashSeparates (blake3 : Blake3) (s t : ByteArray) : Prop := blake3.hex s = blake3.hex t → s = t

/-! ## The id -/

def chunkBytes (chunk : CasManifestChunk) : List UInt8 :=
  utf8 chunk.hash.value ++ ((toLeBytes chunk.offsetBytes).data.toList ++
    (toLeBytes chunk.sizeBytes).data.toList)

theorem manifestStream_eq (chunks : List CasManifestChunk) :
    (manifestStream chunks).data.toList =
      utf8 "devrelay.cas.manifest.v1" ++ chunks.flatMap chunkBytes := by
  have hfold : ∀ hasher : Hasher, (chunks.foldl (fun hasher chunk =>
      ((hasher.update chunk.hash.value.toUTF8).update (toLeBytes chunk.offsetBytes)).update
        (toLeBytes chunk.sizeBytes)) hasher).fed.data.toList =
      hasher.fed.data.toList ++ chunks.flatMap chunkBytes := by
    induction chunks with
    | nil =>
      intro hasher
      rw [List.foldl_nil, List.flatMap_nil, List.append_nil]
    | cons chunk chunks ih =>
      intro hasher
      rw [List.foldl_cons, ih, List.flatMap_cons]
      simp only [Hasher.update, ByteArray.data_append, Array.toList_append, chunkBytes, utf8,
        List.append_assoc]
  rw [manifestStream, hfold]
  simp only [Hasher.update, Hasher.new, ByteArray.data_append, Array.toList_append, utf8]
  rfl

/-- A hash is a text of 67 ASCII characters. -/
theorem ascii_of_isHashFormat {value : String} (h : isHashFormat value = true) :
    value.toList.length = 67 ∧ ∀ c ∈ value.toList, c.toNat < 128 := by
  unfold isHashFormat at h
  split at h
  · cases h
  · rename_i hex hfound
    rw [Bool.and_eq_true, decide_eq_true_eq] at h
    have hvalue : value.toList = casHashPrefix.toList ++ hex := by
      have hopen : casHashPrefix.toList = ['b', '3', '_'] := by decide
      rw [hopen] at hfound ⊢
      generalize value.toList = chars at hfound
      match chars, hfound with
      | [], hfound => simp [List.isPrefixOf?] at hfound
      | [_], hfound => simp [List.isPrefixOf?] at hfound
      | [_, _], hfound => simp [List.isPrefixOf?] at hfound
      | a :: b :: c :: rest, hfound =>
        simp only [List.isPrefixOf?, beq_iff_eq] at hfound
        split_ifs at hfound with hb h3 hu
        rw [← hb, ← h3, ← hu, ← Option.some.inj hfound]
        rfl
    have hlength : casHashPrefix.toList.length = 3 := by decide
    have hascii : casHashPrefix.toList.all (fun c => c.toNat < 128) = true := by decide
    rw [hvalue, List.length_append, hlength, h.1]
    refine ⟨rfl, fun c hc => ?_⟩
    rcases List.mem_append.mp hc with hhead | hdigit
    · exact of_decide_eq_true (List.all_eq_true.mp hascii c hhead)
    · exact toNat_lt_of_isHexDigit (isHexDigit_of_isLowerHexdigit
        (List.all_eq_true.mp h.2 c hdigit))

theorem length_utf8_hash (hash : CasChunkHash) : (utf8 hash.value).length = 67 := by
  obtain ⟨hlength, hascii⟩ := ascii_of_isHashFormat hash.parsed
  have hbytes : utf8 hash.value = hash.value.toList.map asciiByte := utf8_of_ascii hascii
  rw [hbytes, List.length_map, hlength]

theorem length_chunkBytes (chunk : CasManifestChunk) : (chunkBytes chunk).length = 83 := by
  rw [chunkBytes, List.length_append, List.length_append, length_utf8_hash, length_toLeBytes,
    length_toLeBytes]

theorem chunkBytes_injective : Function.Injective chunkBytes := by
  intro a b h
  have hword : ∀ {v w : UInt64}, (toLeBytes v).data.toList = (toLeBytes w).data.toList → v = w := by
    intro v w hbytes
    apply toLeBytes_injective
    apply ByteArray.ext
    exact Array.toList_inj.mp hbytes
  obtain ⟨hhash, hwords⟩ := List.append_inj h (by rw [length_utf8_hash, length_utf8_hash])
  obtain ⟨hoffset, hsize⟩ := List.append_inj hwords (by rw [length_toLeBytes, length_toLeBytes])
  have hvalue : a.hash = b.hash := by
    have htext := utf8_injective hhash
    cases ha : a.hash
    cases hb : b.hash
    rw [ha, hb] at htext
    cases htext
    rfl
  cases a
  cases b
  simp only [CasManifestChunk.mk.injEq]
  exact ⟨hvalue, hword hoffset, hword hsize⟩

/-- The hashed bytes determine the chunks and their order. -/
theorem manifestStream_injective : Function.Injective manifestStream := by
  intro xs ys h
  have hbytes := congrArg (fun stream => stream.data.toList) h
  simp only [manifestStream_eq] at hbytes
  exact flatMap_injective_of_width (by decide : 0 < 83) length_chunkBytes chunkBytes_injective
    (List.append_cancel_left hbytes)

section

variable {blake3 : Blake3}

theorem calculateManifestId_eq (chunks : List CasManifestChunk) :
    calculateManifestId blake3 chunks = casHashPrefix ++ blake3.hex (manifestStream chunks) := rfl

/-! ## Valid manifests -/

theorem validate_eq_ok {manifest : CasManifest} :
    manifest.validate blake3 = .ok () ↔
      manifest.schemaVersion = casSchemaVersion ∧
        manifest.manifestId = calculateManifestId blake3 manifest.chunks ∧
          checkOffsets 0 manifest.chunks = .ok manifest.totalBytes := by
  unfold CasManifest.validate
  constructor
  · intro h
    split at h
    · cases h
    · rename_i hschema
      obtain ⟨_, _, h⟩ := bind_eq_ok_iff.mp h
      dsimp only at h
      split at h
      · cases h
      · rename_i hid
        obtain ⟨offset, hoffsets, h⟩ := bind_eq_ok_iff.mp h
        split at h
        · cases h
        · rename_i htotal
          rw [not_not] at hschema hid htotal
          rw [htotal]
          exact ⟨hschema, hid, hoffsets⟩
  · rintro ⟨hschema, hid, hoffsets⟩
    have hformat : validateHashFormat manifest.manifestId = .ok () := by
      rw [validateHashFormat_eq_ok, hid]
      exact isHashFormat_digest blake3 _
    rw [if_neg (not_not_intro hschema), hformat]
    simp only [hid, hoffsets]
    simp [Bind.bind, Except.bind, Pure.pure, Except.pure]

/-- The offsets are the sums of the sizes, up to the largest word. -/
theorem checkOffsets_spec {start total : UInt64} {chunks : List CasManifestChunk}
    (h : checkOffsets start chunks = .ok total) :
    (∀ before chunk after, chunks = before ++ chunk :: after →
      chunk.offsetBytes.toNat =
        min (start.toNat + exactSum (before.map (·.sizeBytes))) (2 ^ 64 - 1)) ∧
      total.toNat = min (start.toNat + exactSum (chunks.map (·.sizeBytes))) (2 ^ 64 - 1) := by
  induction chunks generalizing start with
  | nil =>
    have hlt := start.toNat_lt
    cases h
    refine ⟨fun before chunk after hnil => ?_, ?_⟩
    · cases before <;> cases hnil
    · rw [List.map_nil, exactSum_nil]
      omega
  | cons first rest ih =>
    rw [checkOffsets] at h
    split at h
    · cases h
    · rename_i hoffset
      rw [not_not] at hoffset
      obtain ⟨hrest, htotal⟩ := ih h
      rw [toNat_saturatingAdd] at hrest htotal
      constructor
      · intro before chunk after hsplit
        cases before with
        | nil =>
          have hlt := start.toNat_lt
          obtain ⟨rfl, -⟩ := List.cons.inj hsplit
          rw [List.map_nil, exactSum_nil, hoffset]
          omega
        | cons head before =>
          obtain ⟨rfl, htail⟩ := List.cons.inj hsplit
          rw [hrest before chunk after htail, List.map_cons, exactSum_cons]
          omega
      · rw [htotal, List.map_cons, exactSum_cons]
        omega

/-- The layout of a valid manifest is exact as long as the sum of the sizes is a word. -/
theorem exactLayout_iff {manifest : CasManifest} (h : manifest.validate blake3 = .ok ()) :
    ExactLayout manifest ↔ exactSum (manifest.chunks.map (·.sizeBytes)) < 2 ^ 64 := by
  obtain ⟨-, -, hchecked⟩ := validate_eq_ok.mp h
  obtain ⟨hoffsets, htotal⟩ := checkOffsets_spec hchecked
  rw [UInt64.toNat_zero, Nat.zero_add] at htotal
  constructor
  · intro hexact
    rw [← hexact.total]
    exact manifest.totalBytes.toNat_lt
  · intro hfits
    constructor
    · intro before chunk after hsplit
      have hsum : exactSum (manifest.chunks.map (·.sizeBytes)) =
          exactSum (before.map (·.sizeBytes)) +
            exactSum ((chunk :: after).map (·.sizeBytes)) := by
        rw [hsplit, List.map_append, exactSum, List.map_append, List.sum_append, ← exactSum,
          ← exactSum]
      rw [hoffsets before chunk after hsplit, UInt64.toNat_zero]
      omega
    · omega

/-! ## Manifests that are created -/

/-- The bytes of a stored chunk. -/
def storedSize (store : CasStore) (hash : CasChunkHash) : UInt64 :=
  match store.chunks hash with
  | none => 0
  | some bytes => UInt64.ofNat bytes.size

variable {store : CasStore}

theorem verifyChunkFile_of_stored {hash : CasChunkHash} (h : ChunkStored blake3 store hash) :
    store.verifyChunkFile blake3 hash = .ok (storedSize store hash) := by
  obtain ⟨bytes, hfile, hhash⟩ := h
  rw [CasStore.verifyChunkFile, downloadChunk_eq_ok.mpr ⟨hfile, hhash⟩, storedSize, hfile]
  rfl

theorem placeChunks_ok {hashes : List CasChunkHash}
    (h : ∀ hash ∈ hashes, ChunkStored blake3 store hash) (start : UInt64) :
    ∃ chunks total, store.placeChunks blake3 start hashes = .ok (chunks, total) ∧
      checkOffsets start chunks = .ok total ∧ chunks.map (·.hash) = hashes ∧
        chunks.map (·.sizeBytes) = hashes.map (storedSize store) := by
  induction hashes generalizing start with
  | nil => exact ⟨[], start, rfl, rfl, rfl, rfl⟩
  | cons hash hashes ih =>
    obtain ⟨hhash, hrest⟩ := List.forall_mem_cons.mp h
    obtain ⟨chunks, total, hplaced, hoffsets, hhashes, hsizes⟩ :=
      ih hrest (saturatingAdd start (storedSize store hash))
    refine ⟨⟨hash, start, storedSize store hash⟩ :: chunks, total, ?_, ?_, ?_, ?_⟩
    · rw [CasStore.placeChunks, verifyChunkFile_of_stored hhash]
      show (store.placeChunks blake3 (saturatingAdd start (storedSize store hash))
        hashes).bind _ = _
      rw [hplaced]
      rfl
    · rw [checkOffsets, if_neg (not_not_intro rfl)]
      exact hoffsets
    · rw [List.map_cons, hhashes]
    · rw [List.map_cons, List.map_cons, hsizes]

theorem createManifest_ok {hashes : List CasChunkHash}
    (h : ∀ hash ∈ hashes, ChunkStored blake3 store hash) (now : UInt64) :
    ∃ manifest store', store.createManifest blake3 now hashes = .ok (manifest, store') ∧
      manifest.validate blake3 = .ok () ∧
      store'.fetchManifest blake3 manifest.manifestId = .ok manifest ∧
      manifest.chunks.map (·.hash) = hashes ∧
      manifest.chunks.map (·.sizeBytes) = hashes.map (storedSize store) := by
  obtain ⟨chunks, total, hplaced, hoffsets, hhashes, hsizes⟩ := placeChunks_ok h 0
  generalize hmanifest : (⟨casSchemaVersion, calculateManifestId blake3 chunks, total, chunks,
    now⟩ : CasManifest) = manifest
  have hvalid : manifest.validate blake3 = .ok () := by
    rw [← hmanifest]
    exact validate_eq_ok.mpr ⟨rfl, rfl, hoffsets⟩
  have hcreated : store.createManifest blake3 now hashes = .ok (manifest,
      { store with manifests := assign store.manifests manifest.manifestId manifest }) := by
    rw [CasStore.createManifest, hplaced]
    show (CasManifest.validate blake3 ⟨casSchemaVersion, calculateManifestId blake3 chunks, total,
      chunks, now⟩).bind _ = _
    rw [hmanifest, hvalid, ← hmanifest]
    rfl
  refine ⟨manifest, _, hcreated, hvalid, fetchManifest_eq_ok.mpr ⟨isHashFormat_of_validate hvalid,
    assign_self, hvalid, rfl⟩, ?_, ?_⟩
  · rw [← hmanifest]
    exact hhashes
  · rw [← hmanifest]
    exact hsizes

end

/-! ## Integrity -/

/-- What is asked of the manifests of a store. -/
structure ManifestIntegrity (blake3 : Blake3) : Prop where
  created : ∀ (store : CasStore) now hashes,
    (∀ hash ∈ hashes, ChunkStored blake3 store hash) →
    ∃ manifest store', store.createManifest blake3 now hashes = .ok (manifest, store') ∧
      manifest.validate blake3 = .ok () ∧
      store'.fetchManifest blake3 manifest.manifestId = .ok manifest ∧
      manifest.chunks.map (·.hash) = hashes ∧
      manifest.chunks.map (·.sizeBytes) = hashes.map (storedSize store) ∧ ExactLayout manifest
  received : ∀ manifest : CasManifest, manifest.validate blake3 = .ok () → ExactLayout manifest
  identified : ∀ m n : CasManifest, m.validate blake3 = .ok () → n.validate blake3 = .ok () →
    m.manifestId = n.manifestId →
    HashSeparates blake3 (manifestStream m.chunks) (manifestStream n.chunks) →
    m.chunks = n.chunks

/-- A manifest that is created can be fetched and its id fixes its chunks; its offsets and its
total are exact as long as the sum of the sizes is a word, and so are those of every manifest
that is valid. -/
theorem manifest_integrity_iff (blake3 : Blake3) :
    (∀ (store : CasStore) now hashes, (∀ hash ∈ hashes, ChunkStored blake3 store hash) →
      ∃ manifest store', store.createManifest blake3 now hashes = .ok (manifest, store') ∧
        manifest.validate blake3 = .ok () ∧
        store'.fetchManifest blake3 manifest.manifestId = .ok manifest ∧
        manifest.chunks.map (·.hash) = hashes ∧
        manifest.chunks.map (·.sizeBytes) = hashes.map (storedSize store) ∧
        (ExactLayout manifest ↔ exactSum (hashes.map (storedSize store)) < 2 ^ 64)) ∧
    (∀ manifest : CasManifest, manifest.validate blake3 = .ok () →
      (ExactLayout manifest ↔ exactSum (manifest.chunks.map (·.sizeBytes)) < 2 ^ 64)) ∧
    ∀ m n : CasManifest, m.validate blake3 = .ok () → n.validate blake3 = .ok () →
      m.manifestId = n.manifestId →
      HashSeparates blake3 (manifestStream m.chunks) (manifestStream n.chunks) →
      m.chunks = n.chunks := by
  refine ⟨?_, fun manifest => exactLayout_iff, ?_⟩
  · intro store now hashes h
    obtain ⟨manifest, store', hcreated, hvalid, hfetched, hhashes, hsizes⟩ :=
      createManifest_ok h now
    refine ⟨manifest, store', hcreated, hvalid, hfetched, hhashes, hsizes, ?_⟩
    rw [exactLayout_iff hvalid, hsizes]
  · intro m n hm hn hid hseparates
    rw [(validate_eq_ok.mp hm).2.1, (validate_eq_ok.mp hn).2.1, calculateManifestId_eq,
      calculateManifestId_eq, String.append_right_inj] at hid
    exact manifestStream_injective (hseparates hid)

/-- Two chunks of `2 ^ 63` bytes, with the largest word as their total. -/
def cappedManifest : CasManifest :=
  let chunks := [⟨CasChunkHash.fromBytes zeroDigest ByteArray.empty, 0, 0x8000000000000000⟩,
    ⟨CasChunkHash.fromBytes zeroDigest ByteArray.empty, 0x8000000000000000, 0x8000000000000000⟩]
  { schemaVersion := casSchemaVersion
    manifestId := calculateManifestId zeroDigest chunks
    totalBytes := 0xffffffffffffffff
    chunks
    createdAtUnixSeconds := 0 }

/-- A manifest is valid with a total that is one byte short. -/
theorem capped_manifest_is_valid : ¬∀ blake3, ManifestIntegrity blake3 := by
  intro hclaim
  have hvalid : cappedManifest.validate zeroDigest = .ok () :=
    validate_eq_ok.mpr ⟨rfl, rfl, by decide⟩
  have htotal := ((hclaim zeroDigest).received _ hvalid).total
  have hsum : exactSum (cappedManifest.chunks.map (·.sizeBytes)) = 2 ^ 64 := by decide
  have hlt := cappedManifest.totalBytes.toNat_lt
  omega

end DevRelay.Upload
