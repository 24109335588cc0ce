import DevRelay.Upload.ManifestIntegrity
import DevRelay.Upload.SidecarFiles

/-!
# Round trip of a sidecar

What a read returns at the capture of a file is a chunk of its manifest, and the materialized
file is compared with the manifest by what the reads return then.  The bytes are always those
of the file; the comparison holds when the two files are read in the same steps.
-/

namespace DevRelay.Upload

open DevRelay.Core DevRelay.Lib

section

variable {blake3 : Blake3} {store : CasStore}

/-- The hash keeps the pieces apart, from each other and from what is stored under it. -/
structure PiecesApart (blake3 : Blake3) (store : CasStore) (pieces : List (List UInt8)) :
    Prop where
  stored : ∀ piece ∈ pieces, ∀ bytes, store.chunks (pieceHash blake3 piece) = some bytes →
    bytes = pieceBytes piece
  apart : ∀ piece ∈ pieces, ∀ other ∈ pieces,
    pieceHash blake3 piece = pieceHash blake3 other → piece = other

/-- The chunks of a manifest next to the pieces that they were made from. -/
def MadeFrom (blake3 : Blake3) : List CasManifestChunk → List (List UInt8) → Prop :=
  List.Forall₂ fun chunk piece =>
    chunk.hash = pieceHash blake3 piece ∧ chunk.sizeBytes = UInt64.ofNat piece.length

theorem toNat_pieceLength {width : UInt64} {piece : List UInt8}
    (h : piece.length ≤ width.toNat) : (UInt64.ofNat piece.length).toNat = piece.length := by
  have hlt := width.toNat_lt
  rw [UInt64.toNat_ofNat', Nat.mod_eq_of_lt (by omega)]

/-! ## Upload -/

/-- A piece is stored, whether it was there before or not. -/
theorem uploadPiece_ok {pieces : List (List UInt8)} (h : PiecesApart blake3 store pieces)
    {piece : List UInt8} (hpiece : piece ∈ pieces) :
    ∃ result after, store.uploadChunk blake3 (pieceBytes piece) (pieceHash blake3 piece) =
        .ok (result, after) ∧
      after.chunks (pieceHash blake3 piece) = some (pieceBytes piece) ∧
      (∀ hash bytes, store.chunks hash = some bytes → after.chunks hash = some bytes) ∧
      PiecesApart blake3 after pieces := by
  have hsame : ¬CasChunkHash.fromBytes blake3 (pieceBytes piece) ≠ pieceHash blake3 piece :=
    not_not_intro rfl
  rw [CasStore.uploadChunk]
  dsimp only
  rw [if_neg hsame]
  cases hfile : store.chunks (pieceHash blake3 piece) with
  | some bytes =>
    have hbytes := h.stored piece hpiece bytes hfile
    have hthere : ChunkStored blake3 store (pieceHash blake3 piece) := by
      refine ⟨bytes, hfile, ?_⟩
      rw [hbytes]
      rfl
    have hverify := verifyChunkFile_of_stored hthere
    rw [Option.isSome_some, if_pos rfl, hverify]
    exact ⟨_, store, rfl, by rw [hfile, hbytes], fun _ _ hsome => hsome, h⟩
  | none =>
    rw [Option.isSome_none, if_neg Bool.false_ne_true]
    refine ⟨_, _, rfl, assign_self, ?_, ?_, h.apart⟩
    · intro hash bytes hsome
      have hne : hash ≠ pieceHash blake3 piece := by
        intro heq
        rw [heq, hfile] at hsome
        cases hsome
      exact (assign_of_ne hne).trans hsome
    · intro other hother bytes hsome
      rcases assign_eq_some.mp hsome with ⟨heq, hnew⟩ | ⟨-, hold⟩
      · rw [← hnew, h.apart other hother piece hpiece heq]
      · exact h.stored other hother bytes hold

theorem uploadFileChunks_ok {all pieces : List (List UInt8)} (h : PiecesApart blake3 store all)
    (hsub : ∀ piece ∈ pieces, piece ∈ all) :
    ∃ after, uploadFileChunks blake3 store pieces = .ok (pieces.map (pieceHash blake3), after) ∧
      (∀ piece ∈ pieces, after.chunks (pieceHash blake3 piece) = some (pieceBytes piece)) ∧
      ∀ hash bytes, store.chunks hash = some bytes → after.chunks hash = some bytes := by
  induction pieces generalizing store with
  | nil => exact ⟨store, rfl, fun _ hmem => absurd hmem List.not_mem_nil, fun _ _ hsome => hsome⟩
  | cons piece pieces ih =>
    obtain ⟨hpiece, hrest⟩ := List.forall_mem_cons.mp hsub
    obtain ⟨result, middle, hupload, hthere, hkept, hapart⟩ := uploadPiece_ok h hpiece
    obtain ⟨after, hloop, hstored, hlater⟩ := ih hapart hrest
    refine ⟨after, ?_, List.forall_mem_cons.mpr ⟨hlater _ _ hthere, hstored⟩,
      fun hash bytes hsome => hlater hash bytes (hkept hash bytes hsome)⟩
    rw [uploadFileChunks, hupload]
    show (uploadFileChunks blake3 middle pieces).bind _ = _
    rw [hloop]
    rfl

/-! ## Writing the chunks -/

theorem madeFrom_of_maps {chunks : List CasManifestChunk} {pieces : List (List UInt8)}
    (hhashes : chunks.map (·.hash) = pieces.map (pieceHash blake3))
    (hsizes : chunks.map (·.sizeBytes) = pieces.map fun piece => UInt64.ofNat piece.length) :
    MadeFrom blake3 chunks pieces := by
  induction chunks generalizing pieces with
  | nil =>
    cases pieces with
    | nil => exact List.Forall₂.nil
    | cons piece pieces => cases hhashes
  | cons chunk chunks ih =>
    cases pieces with
    | nil => cases hhashes
    | cons piece pieces =>
      obtain ⟨hhash, hhashes⟩ := List.cons.inj hhashes
      obtain ⟨hsize, hsizes⟩ := List.cons.inj hsizes
      exact List.Forall₂.cons ⟨hhash, hsize⟩ (ih hhashes hsizes)

theorem writeChunks_ok {sidecar : SnapshotSidecar} {chunks : List CasManifestChunk}
    {pieces : List (List UInt8)} (hmade : MadeFrom blake3 chunks pieces)
    (hstored : ∀ piece ∈ pieces, store.chunks (pieceHash blake3 piece) = some (pieceBytes piece))
    (hsized : ∀ piece ∈ pieces, piece.length ≤ sidecar.chunkSizeBytes.toNat) :
    writeChunks blake3 store sidecar chunks = .ok pieces.flatten := by
  induction hmade with
  | nil => rfl
  | @cons chunk piece chunks pieces hfirst _ ih =>
    obtain ⟨hpiece, hpieces⟩ := List.forall_mem_cons.mp hstored
    obtain ⟨hwidth, hwidths⟩ := List.forall_mem_cons.mp hsized
    have hroom : ¬sidecar.chunkSizeBytes < chunk.sizeBytes := by
      rw [hfirst.2, UInt64.lt_iff_toNat_lt, toNat_pieceLength hwidth]
      omega
    have hdownload : store.downloadChunk blake3 chunk.hash = .ok (pieceBytes piece) := by
      rw [downloadChunk_eq_ok, hfirst.1]
      exact ⟨hpiece, rfl⟩
    have hsize : ¬UInt64.ofNat (pieceBytes piece).size ≠ chunk.sizeBytes := by
      rw [hfirst.2, not_not]
      rfl
    rw [writeChunks, if_neg hroom, hdownload]
    show (if UInt64.ofNat (pieceBytes piece).size ≠ chunk.sizeBytes then _ else _) = _
    rw [if_neg hsize, ih hpieces hwidths]
    rfl

/-! ## Comparing the reads -/

/-- The comparison holds exactly when the second file is read in the steps of the first. -/
theorem verifyReads_iff {sidecar : SnapshotSidecar} {chunks : List CasManifestChunk}
    {pieces again : List (List UInt8)} {width offset : UInt64}
    (hmade : MadeFrom blake3 chunks pieces)
    (hoffsets : checkOffsets offset chunks = .ok sidecar.sizeBytes)
    (hsized : ∀ piece ∈ pieces, 0 < piece.length ∧ piece.length ≤ width.toNat)
    (hagain : ∀ piece ∈ again, 0 < piece.length ∧ piece.length ≤ width.toNat)
    (hjoined : again.flatten = pieces.flatten) :
    verifyReads blake3 sidecar offset chunks again = .ok () ↔
      again.map List.length = pieces.map List.length := by
  induction hmade generalizing again offset with
  | nil =>
    cases again with
    | nil =>
      refine iff_of_true ?_ rfl
      rw [verifyReads, Except.ok.inj hoffsets]
      simp
    | cons piece again =>
      have hlength := congrArg List.length hjoined
      have hpos := (hagain piece List.mem_cons_self).1
      rw [List.flatten_cons, List.length_append, List.flatten_nil, List.length_nil] at hlength
      omega
  | @cons chunk piece chunks pieces hfirst _ ih =>
    obtain ⟨hpiece, hpieces⟩ := List.forall_mem_cons.mp hsized
    cases again with
    | nil =>
      have hlength := congrArg List.length hjoined
      rw [List.flatten_cons, List.length_append, List.flatten_nil, List.length_nil] at hlength
      omega
    | cons first again =>
      obtain ⟨hfirstSized, hrestSized⟩ := List.forall_mem_cons.mp hagain
      rw [checkOffsets] at hoffsets
      split at hoffsets
      · cases hoffsets
      · rename_i hoffset
        rw [not_not] at hoffset
        rw [List.flatten_cons, List.flatten_cons] at hjoined
        rw [List.map_cons, List.map_cons, List.cons_eq_cons, verifyReads]
        by_cases hsame : first.length = piece.length
        · -- the same step: the chunk is compared with its own bytes
          obtain ⟨hbytes, hrest⟩ := List.append_inj hjoined hsame
          have hlayout : ¬(decide (chunk.offsetBytes ≠ offset) ||
              decide (chunk.sizeBytes ≠ UInt64.ofNat piece.length)) = true := by
            rw [hoffset, hfirst.2]
            simp
          rw [hbytes, if_neg (not_not_intro hfirst.1.symm), if_neg hlayout, and_iff_right rfl]
          rw [hfirst.2] at hoffsets
          exact ih hoffsets hpieces hrestSized hrest
        · refine iff_of_false ?_ fun hboth => hsame hboth.1
          intro hok
          split at hok
          · cases hok
          · have hlayout : (decide (chunk.offsetBytes ≠ offset) ||
                decide (chunk.sizeBytes ≠ UInt64.ofNat first.length)) = true := by
              rw [Bool.or_eq_true, decide_eq_true_eq, decide_eq_true_eq]
              refine Or.inr fun heq => hsame ?_
              have hnat := congrArg UInt64.toNat (hfirst.2.symm.trans heq)
              rw [toNat_pieceLength hpiece.2, toNat_pieceLength hfirstSized.2] at hnat
              exact hnat.symm
            rw [if_pos hlayout] at hok
            cases hok

/-! ## The whole way -/

theorem exactSum_pieces {width : UInt64} {pieces : List (List UInt8)}
    (hsized : ∀ piece ∈ pieces, 0 < piece.length ∧ piece.length ≤ width.toNat) :
    exactSum (pieces.map fun piece => UInt64.ofNat piece.length) = pieces.flatten.length := by
  induction pieces with
  | nil => rfl
  | cons piece pieces ih =>
    obtain ⟨hpiece, hpieces⟩ := List.forall_mem_cons.mp hsized
    rw [List.map_cons, exactSum_cons, ih hpieces, toNat_pieceLength hpiece.2, List.flatten_cons,
      List.length_append]

/-- A repository-relative path passes both checks of a sidecar's path. -/
theorem repoRelativePath_of_relative {path : String} (h : isRepositoryRelative path = true) :
    repoRelativePath path = .ok (components path) := by
  rw [isRepositoryRelative, Bool.and_eq_true, Bool.and_eq_true, Bool.not_eq_true',
    Bool.not_eq_true', Bool.not_eq_true'] at h
  obtain ⟨⟨hrelative, -⟩, hparts⟩ := h
  have habsolute : isAbsolute path = false := hrelative
  have hbody : ∀ component ∈ bodyComponents path.toList,
      component ≠ .parentDir ∧ component ≠ .rootDir := by
    intro component hcomponent
    refine ⟨?_, fun heq => rootDir_notMem_body path.toList (heq ▸ hcomponent)⟩
    rintro rfl
    obtain ⟨part, hpart, hparent⟩ := List.mem_filterMap.mp hcomponent
    have hdots : part = ['.', '.'] := by
      rw [partComponent?] at hparent
      split_ifs at hparent with _ hdots
      · exact hdots
      · cases hparent
    rw [hdots] at hpart
    rw [List.contains_eq_mem, decide_eq_false_iff_not] at hparts
    exact hparts hpart
  have hall : ∀ component ∈ components path, component ≠ .parentDir ∧ component ≠ .rootDir := by
    rw [components, habsolute, if_neg Bool.false_ne_true]
    split_ifs with hdot
    · exact List.forall_mem_cons.mpr ⟨⟨by decide, by decide⟩, hbody⟩
    · exact hbody
  have hany : ((components path).any fun component =>
      component = .parentDir || component = .rootDir) = false := by
    rw [List.any_eq_false]
    intro component hcomponent hbad
    rw [Bool.or_eq_true, decide_eq_true_eq, decide_eq_true_eq] at hbad
    exact hbad.elim (hall component hcomponent).1 (hall component hcomponent).2
  rw [repoRelativePath, habsolute, if_neg Bool.false_ne_true, hany, if_neg Bool.false_ne_true]

theorem restoreFileMode_fileMode (executable : Bool) :
    restoreFileMode (fileMode executable) = .ok () := by
  cases executable <;> rfl

theorem validate_sidecar_iff {path manifestId : String} {executable : Bool} {size width : UInt64}
    (hpath : path ≠ "") (hrelative : isRepositoryRelative path = true) (hid : manifestId ≠ "")
    (hwidth : width ≠ 0) :
    SnapshotSidecar.validate ⟨path, fileMode executable, largeFileThreshold, size, width,
      manifestId, manifestId⟩ = .ok () ↔ size ≠ 0 := by
  have hmode : fileMode executable ≠ "" := by cases executable <;> decide
  have hfields : requireNonEmpty [("sidecar.logical_path", path),
      ("sidecar.file_mode", fileMode executable), ("sidecar.classification", largeFileThreshold),
      ("sidecar.root_hash", manifestId), ("sidecar.cas_manifest_id", manifestId)] = .ok () := by
    rw [requireNonEmpty_eq_ok]
    simp only [List.forall_mem_cons]
    exact ⟨hpath, hmode, by decide, hid, hid, fun _ hmem => absurd hmem List.not_mem_nil⟩
  have hnot : ¬(!isRepositoryRelative path) = true := by
    rw [hrelative]
    decide
  rw [SnapshotSidecar.validate, bind_eq_ok_iff, hfields]
  simp only [hnot, hwidth, if_false, ne_eq, not_true_eq_false]
  by_cases hsize : size = 0
  · simp [hsize, throw, throwThe, MonadExceptOf.throw, Bind.bind, Except.bind]
  · simp [hsize, Pure.pure, Except.pure]

/-- The manifest of a sidecar is fetched unless the sidecar is empty. -/
theorem fetchSidecarManifest_ok {sidecar : SnapshotSidecar} {manifest : CasManifest}
    (hvalid : sidecar.validate = .ok ())
    (hfetched : store.fetchManifest blake3 sidecar.casManifestId = .ok manifest)
    (hroot : manifest.manifestId = sidecar.rootHash)
    (htotal : manifest.totalBytes = sidecar.sizeBytes) :
    fetchSidecarManifest blake3 store sidecar = .ok manifest := by
  rw [fetchSidecarManifest, hvalid]
  show (store.fetchManifest blake3 sidecar.casManifestId).bind _ = _
  rw [hfetched]
  show (if manifest.manifestId ≠ sidecar.rootHash then _ else _) = _
  rw [if_neg (not_not_intro hroot)]
  show (if manifest.totalBytes ≠ sidecar.sizeBytes then _ else _) = _
  rw [if_neg (not_not_intro htotal)]
  rfl

/-- The total of the manifest is the size that the sidecar records. -/
theorem total_of_pieces {file : FileBytes} {width : UInt64}
    {reads : Reads width.toNat file.bytes} {manifest : CasManifest}
    (hoffsets : checkOffsets 0 manifest.chunks = .ok manifest.totalBytes)
    (hsizes : manifest.chunks.map (·.sizeBytes) =
      reads.pieces.map fun piece => UInt64.ofNat piece.length) :
    manifest.totalBytes = UInt64.ofNat file.bytes.length := by
  have hfits := file.fits
  apply UInt64.toNat_inj.mp
  rw [(checkOffsets_spec hoffsets).2, hsizes, exactSum_pieces reads.sized, reads.joined,
    UInt64.toNat_zero, Nat.zero_add, UInt64.toNat_ofNat', Nat.mod_eq_of_lt hfits]
  omega

theorem manifestId_ne_empty {manifest : CasManifest} (h : manifest.validate blake3 = .ok ()) :
    manifest.manifestId ≠ "" := by
  intro hempty
  have hlength := (ascii_of_isHashFormat (isHashFormat_of_validate h)).1
  rw [hempty] at hlength
  exact absurd hlength (by decide)

/-- A sidecar with the manifest that was made from the reads of its file. -/
structure Captured (blake3 : Blake3) (store : CasStore) (file : FileBytes)
    (pieces : List (List UInt8)) (sidecar : SnapshotSidecar) (manifest : CasManifest) : Prop where
  validated : sidecar.validate = .ok () ↔ file.bytes ≠ []
  fetched : store.fetchManifest blake3 sidecar.casManifestId = .ok manifest
  root : manifest.manifestId = sidecar.rootHash
  total : manifest.totalBytes = sidecar.sizeBytes
  made : MadeFrom blake3 manifest.chunks pieces
  offsets : checkOffsets 0 manifest.chunks = .ok sidecar.sizeBytes
  stored : ∀ piece ∈ pieces, store.chunks (pieceHash blake3 piece) = some (pieceBytes piece)
  mode : restoreFileMode sidecar.fileMode = .ok ()

variable {path : String} {file : FileBytes}
  {chunkSizeBytes : UInt64} {reads : Reads chunkSizeBytes.toNat file.bytes}

/-- A file can be captured. -/
theorem captureSidecar_ok (hpath : path ≠ "") (hrelative : isRepositoryRelative path = true)
    (hchunk : chunkSizeBytes ≠ 0) (hapart : PiecesApart blake3 store reads.pieces)
    (now : UInt64) (executable : Bool) :
    ∃ sidecar after manifest, captureSidecar blake3 store now path executable file chunkSizeBytes
        reads = .ok (sidecar, after) ∧ sidecar.logicalPath = path ∧
      sidecar.chunkSizeBytes = chunkSizeBytes ∧
        Captured blake3 after file reads.pieces sidecar manifest := by
  obtain ⟨middle, hupload, hstored, -⟩ := uploadFileChunks_ok hapart fun _ hmem => hmem
  have hthere : ∀ hash ∈ reads.pieces.map (pieceHash blake3), ChunkStored blake3 middle hash := by
    intro hash hmem
    obtain ⟨piece, hpiece, rfl⟩ := List.mem_map.mp hmem
    exact ⟨pieceBytes piece, hstored piece hpiece, rfl⟩
  obtain ⟨manifest, after, hcreated, hvalid, hfetched, hhashes, hsizes⟩ :=
    createManifest_ok hthere now
  have hchunks : after.chunks = middle.chunks := by rw [(createManifest_eq hcreated).1]
  have hsizes : manifest.chunks.map (·.sizeBytes) =
      reads.pieces.map fun piece => UInt64.ofNat piece.length := by
    rw [hsizes, List.map_map]
    apply List.map_congr_left
    intro piece hpiece
    rw [Function.comp_apply, storedSize, hstored piece hpiece]
    rfl
  obtain ⟨-, -, hoffsets⟩ := validate_eq_ok.mp hvalid
  have htotal := total_of_pieces hoffsets hsizes
  have hfits := file.fits
  have hnonempty : UInt64.ofNat file.bytes.length ≠ 0 ↔ file.bytes ≠ [] := by
    rw [Ne, ← UInt64.toNat_inj, UInt64.toNat_ofNat', Nat.mod_eq_of_lt hfits, UInt64.toNat_zero,
      List.length_eq_zero_iff]
  refine ⟨⟨path, fileMode executable, largeFileThreshold, UInt64.ofNat file.bytes.length,
    chunkSizeBytes, manifest.manifestId, manifest.manifestId⟩, after, manifest, ?_, rfl, rfl, ?_⟩
  · rw [captureSidecar, if_neg hchunk, repoRelativePath_of_relative hrelative, hupload]
    show (middle.createManifest blake3 now (reads.pieces.map (pieceHash blake3))).bind _ = _
    rw [hcreated]
    rfl
  · constructor
    · rw [validate_sidecar_iff hpath hrelative (manifestId_ne_empty hvalid) hchunk, hnonempty]
    · exact hfetched
    · rfl
    · exact htotal
    · exact madeFrom_of_maps hhashes hsizes
    · rw [← htotal]
      exact hoffsets
    · rw [hchunks]
      exact hstored
    · exact restoreFileMode_fileMode executable

/-- A captured sidecar is accepted exactly when it is not empty and its file is read in the
steps of the capture. -/
theorem materializeSidecar_iff {path : String} {file : FileBytes} {chunkSizeBytes : UInt64}
    (reads : Reads chunkSizeBytes.toNat file.bytes) {target : TargetDirectories} {after : CasStore}
    {sidecar : SnapshotSidecar} {manifest : CasManifest} {again : List UInt8 → List (List UInt8)}
    {before : Option (List UInt8)} (hrelative : isRepositoryRelative path = true)
    (hsafe : target.ensureMaterializationPathSafe (components path) = .ok ())
    (hdirs : target.createDirAll (components path) = .ok ())
    (hlogical : sidecar.logicalPath = path) (hwidth : sidecar.chunkSizeBytes = chunkSizeBytes)
    (hcaptured : Captured blake3 after file reads.pieces sidecar manifest)
    (hagain : ∀ piece ∈ again file.bytes, 0 < piece.length ∧ piece.length ≤ chunkSizeBytes.toNat)
    (hjoined : (again file.bytes).flatten = file.bytes) :
    materializeSidecar blake3 target after sidecar again before = (.ok (), some file.bytes) ↔
      file.bytes ≠ [] ∧ (again file.bytes).map List.length = reads.pieces.map List.length := by
  by_cases hempty : file.bytes = []
  · refine iff_of_false ?_ fun hboth => hboth.1 hempty
    intro hok
    have hrefused : ¬sidecar.validate = .ok () := fun h => hcaptured.validated.mp h hempty
    rw [materializeSidecar, fetchSidecarManifest] at hok
    cases hcheck : sidecar.validate with
    | ok u => exact hrefused hcheck
    | error e =>
      rw [hcheck] at hok
      cases (Prod.ext_iff.mp hok).1
  · have hfetch : fetchSidecarManifest blake3 after sidecar = .ok manifest :=
      fetchSidecarManifest_ok (hcaptured.validated.mpr hempty) hcaptured.fetched hcaptured.root
        hcaptured.total
    have hwrite : writeChunks blake3 after sidecar manifest.chunks = .ok file.bytes := by
      rw [writeChunks_ok hcaptured.made hcaptured.stored, reads.joined]
      intro piece hpiece
      rw [hwidth]
      exact (reads.sized piece hpiece).2
    have hcontents : sidecarContents blake3 target after sidecar manifest = .ok file.bytes := by
      rw [sidecarContents, hlogical, repoRelativePath_of_relative hrelative]
      show (target.ensureMaterializationPathSafe (components path)).bind _ = _
      rw [hsafe]
      show (target.createDirAll (components path)).bind _ = _
      rw [hdirs]
      exact hwrite
    rw [materializeSidecar, hfetch]
    simp only [hcontents, hcaptured.mode, Prod.mk.injEq, and_true]
    rw [and_iff_right hempty]
    show verifyReads blake3 sidecar 0 manifest.chunks (again file.bytes) = .ok () ↔ _
    exact verifyReads_iff hcaptured.made hcaptured.offsets reads.sized hagain
      (hjoined.trans reads.joined.symm)

end

/-- The file is captured, and its sidecar is materialized with the same bytes. -/
def RoundTrips (blake3 : Blake3) (store : CasStore) (now : UInt64) (path : String)
    (executable : Bool) (file : FileBytes) (chunkSizeBytes : UInt64)
    (reads : Reads chunkSizeBytes.toNat file.bytes) (target : TargetDirectories)
    (again : (bytes : List UInt8) → Reads chunkSizeBytes.toNat bytes) : Prop :=
  ∃ sidecar after, captureSidecar blake3 store now path executable file chunkSizeBytes reads =
      .ok (sidecar, after) ∧
    ∀ before, materializeSidecar blake3 target after sidecar (fun bytes => (again bytes).pieces)
      before = (.ok (), some file.bytes)

/-- A file makes the round trip exactly when it is not empty and is read again in the steps in
which it was captured. -/
theorem roundTrips_iff (blake3 : Blake3) (store : CasStore) (now : UInt64) (path : String)
    (executable : Bool) (file : FileBytes) (chunkSizeBytes : UInt64)
    (reads : Reads chunkSizeBytes.toNat file.bytes) (target : TargetDirectories)
    (again : (bytes : List UInt8) → Reads chunkSizeBytes.toNat bytes)
    (hpath : path ≠ "") (hrelative : isRepositoryRelative path = true)
    (hchunk : chunkSizeBytes ≠ 0) (hapart : PiecesApart blake3 store reads.pieces)
    (hsafe : target.ensureMaterializationPathSafe (components path) = .ok ())
    (hdirs : target.createDirAll (components path) = .ok ()) :
    RoundTrips blake3 store now path executable file chunkSizeBytes reads target again ↔
      file.bytes ≠ [] ∧
        (again file.bytes).pieces.map List.length = reads.pieces.map List.length := by
  obtain ⟨sidecar, after, manifest, hcapture, hlogical, hwidth, hcaptured⟩ :=
    captureSidecar_ok hpath hrelative hchunk hapart now executable
  have hiff : ∀ before, materializeSidecar blake3 target after sidecar
      (fun bytes => (again bytes).pieces) before = (.ok (), some file.bytes) ↔ _ := fun before =>
    materializeSidecar_iff reads hrelative hsafe hdirs hlogical hwidth hcaptured
      (again file.bytes).sized (again file.bytes).joined
  constructor
  · rintro ⟨sidecar', after', hcapture', hall⟩
    cases hcapture.symm.trans hcapture'
    exact (hiff none).mp (hall none)
  · intro hsteps
    exact ⟨sidecar, after, hcapture, fun before => (hiff before).mpr hsteps⟩

/-! ## Two ways to read a file -/

/-- A file that is read byte by byte. -/
def byteReads (width : UInt64) (hwidth : 0 < width.toNat) (bytes : List UInt8) :
    Reads width.toNat bytes where
  pieces := bytes.map fun byte => [byte]
  joined := by
    induction bytes with
    | nil => rfl
    | cons byte bytes ih => rw [List.map_cons, List.flatten_cons, ih, List.singleton_append]
  sized piece hpiece := by
    obtain ⟨byte, -, rfl⟩ := List.mem_map.mp hpiece
    exact ⟨Nat.one_pos, hwidth⟩

/-- A target that takes every path. -/
def openTarget : TargetDirectories := ⟨fun _ => .ok (), fun _ => .ok ()⟩

def twoBytes : FileBytes := ⟨[7, 8], by decide⟩

/-- A file of two bytes, read byte by byte, makes the round trip. -/
theorem roundTrips_twoBytes :
    RoundTrips sumDigest CasStore.empty 0 "large.bin" false twoBytes 1
      (byteReads 1 Nat.one_pos twoBytes.bytes) openTarget (byteReads 1 Nat.one_pos) := by
  have hapart : PiecesApart sumDigest CasStore.empty
      (byteReads 1 Nat.one_pos twoBytes.bytes).pieces := by
    constructor
    · intro piece _ bytes hfile
      cases hfile
    · decide
  exact (roundTrips_iff sumDigest CasStore.empty 0 "large.bin" false twoBytes 1
    (byteReads 1 Nat.one_pos twoBytes.bytes) openTarget (byteReads 1 Nat.one_pos) (by decide)
    (by decide) (by decide) hapart rfl rfl).mpr ⟨by decide, rfl⟩

/-- Both bytes with one read. -/
def wholeRead : Reads (2 : UInt64).toNat twoBytes.bytes where
  pieces := [[7, 8]]
  joined := rfl
  sized := by decide

/-- A file that was captured with one read is refused when it is read in two. -/
theorem short_read_is_refused :
    ¬∀ (blake3 : Blake3) (store : CasStore) now path executable (file : FileBytes)
      (chunkSizeBytes : UInt64) (reads : Reads chunkSizeBytes.toNat file.bytes)
      (target : TargetDirectories)
      (again : (bytes : List UInt8) → Reads chunkSizeBytes.toNat bytes),
      path ≠ "" → isRepositoryRelative path = true → chunkSizeBytes ≠ 0 →
      PiecesApart blake3 store reads.pieces →
      target.ensureMaterializationPathSafe (components path) = .ok () →
      target.createDirAll (components path) = .ok () →
      RoundTrips blake3 store now path executable file chunkSizeBytes reads target again := by
  intro hclaim
  have hpath : ("large.bin" : String) ≠ "" := by decide
  have hrelative : isRepositoryRelative "large.bin" = true := by decide
  have hapart : PiecesApart zeroDigest CasStore.empty wholeRead.pieces := by
    constructor
    · intro piece _ bytes hfile
      cases hfile
    · intro piece hpiece other hother _
      rw [List.mem_singleton.mp hpiece, List.mem_singleton.mp hother]
  obtain ⟨sidecar, after, hcapture, hall⟩ := hclaim zeroDigest CasStore.empty 0 "large.bin" false
    twoBytes 2 wholeRead openTarget (byteReads 2 (by decide)) hpath hrelative (by decide) hapart
    rfl rfl
  obtain ⟨sidecar', after', manifest, hcapture', hlogical, hwidth, hcaptured⟩ :=
    captureSidecar_ok hpath hrelative (by decide) hapart 0 false
  cases hcapture.symm.trans hcapture'
  obtain ⟨-, hsteps⟩ := (materializeSidecar_iff wholeRead hrelative rfl rfl hlogical hwidth
    hcaptured (byteReads 2 (by decide) twoBytes.bytes).sized
    (byteReads 2 (by decide) twoBytes.bytes).joined).mp (hall none)
  exact absurd hsteps (by decide)

end DevRelay.Upload
