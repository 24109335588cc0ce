import DevRelay.Tasks.ArtifactPaths
import DevRelay.Upload.ManifestIntegrity
import Mathlib.Data.List.Perm.Basic

/-!
# What a capture stores

The loop of the capture puts one entry behind the other, and what it has stored for an entry
stays there: a later file with the same chunk has the same bytes, as long as the digest tells
apart what is hashed.
-/

namespace DevRelay.Artifacts

open DevRelay.Lib DevRelay.Core DevRelay.Upload

variable (env : CaptureEnv)

/-- The hash of a file's only chunk. -/
def contentHash (file : WorkspaceFile) : CasChunkHash := CasChunkHash.fromBytes env.blake3 file.2

/-- The chunks of the manifest of a file. -/
def singleChunk (file : WorkspaceFile) : List CasManifestChunk :=
  [{ hash := contentHash env file, offsetBytes := 0, sizeBytes := UInt64.ofNat file.2.size }]

/-- What is hashed in a capture: the files, their manifests, and the chunks that are already
there under one of the hashes. -/
inductive Hashed (store : CasStore) (files : List WorkspaceFile) : ByteArray → Prop
  | content {file : WorkspaceFile} (hfile : file ∈ files) : Hashed store files file.2
  | manifest {file : WorkspaceFile} (hfile : file ∈ files) :
      Hashed store files (manifestStream (singleChunk env file))
  | stored {file : WorkspaceFile} {bytes : ByteArray} (hfile : file ∈ files)
      (hstored : store.chunks (contentHash env file) = some bytes) : Hashed store files bytes

/-- The digest tells apart what is hashed in a capture. -/
def NoCollisions (store : CasStore) (files : List WorkspaceFile) : Prop :=
  ∀ s t, Hashed env store files s → Hashed env store files t → HashSeparates env.blake3 s t

/-- The manifest has the file as its only chunk, and the chunk is there. -/
structure Kept (store : CasStore) (file : WorkspaceFile) (manifestId : String) : Prop where
  manifest : ∃ manifest, store.fetchManifest env.blake3 manifestId = .ok manifest ∧
    manifest.chunks = singleChunk env file
  chunk : store.chunks (contentHash env file) = some file.2

/-- The entry of a file. -/
structure IndexedAs (store : CasStore) (file : WorkspaceFile) (entry : TaskArtifactEntry) :
    Prop where
  path : entry.path = workspaceRelativePath file.1
  kept : Kept env store file entry.casManifestId

variable {env} {store : CasStore} {file other : WorkspaceFile} {files done : List WorkspaceFile}
  {manifestId : String}

/-- What is kept can be read. -/
theorem Kept.fetchContent (h : Kept env store file manifestId) :
    fetchContent env.blake3 store manifestId = .ok file.2 := by
  obtain ⟨manifest, hfetched, hchunks⟩ := h.manifest
  have hdownload : store.downloadChunk env.blake3 (contentHash env file) = .ok file.2 :=
    downloadChunk_eq_ok.mpr ⟨h.chunk, rfl⟩
  unfold Upload.fetchContent
  rw [hfetched]
  show readChunks env.blake3 store manifest.chunks = _
  rw [hchunks, singleChunk, readChunks, hdownload]
  show Except.ok (file.2 ++ ByteArray.empty) = _
  rw [ByteArray.append_empty]

/-- Of another store it is kept too, where its chunks are there and no manifest is another. -/
theorem Kept.mono {grown : CasStore} (h : Kept env store file manifestId)
    (hmanifests : grown.manifests = store.manifests)
    (hchunks : ∀ hash bytes, store.chunks hash = some bytes → grown.chunks hash = some bytes) :
    Kept env grown file manifestId where
  manifest := by
    obtain ⟨manifest, hfetched, hsingle⟩ := h.manifest
    rw [← fetchManifest_congr hmanifests] at hfetched
    exact ⟨manifest, hfetched, hsingle⟩
  chunk := hchunks _ _ h.chunk

/-! ## The chunk of one file -/

/-- The chunks of the store are those of the files, and those that were there. -/
def OnlyFiles (env : CaptureEnv) (start store : CasStore) (files : List WorkspaceFile) : Prop :=
  ∀ hash bytes, store.chunks hash = some bytes → start.chunks hash = some bytes ∨
    ∃ file ∈ files, hash = contentHash env file ∧ bytes = file.2

variable {start : CasStore}

theorem OnlyFiles.chunk (h : OnlyFiles env start store files)
    (hseparates : NoCollisions env start files) (hfile : file ∈ files)
    (hstored : ChunkStored env.blake3 store (contentHash env file)) :
    store.chunks (contentHash env file) = some file.2 := by
  obtain ⟨bytes, hbytes, hhash⟩ := hstored
  have hsame : bytes = file.2 := by
    rcases h _ _ hbytes with hthere | ⟨other, hother, -, rfl⟩
    · have hhex : env.blake3.hex bytes = env.blake3.hex file.2 :=
        String.append_right_inj _ |>.mp (congrArg CasChunkHash.value hhash)
      exact hseparates _ _ (.stored hfile hthere) (.content hfile) hhex
    · have hhex : env.blake3.hex other.2 = env.blake3.hex file.2 :=
        String.append_right_inj _ |>.mp (congrArg CasChunkHash.value hhash)
      exact hseparates _ _ (.content hother) (.content hfile) hhex
  rw [hbytes, hsame]

theorem OnlyFiles.not_corrupt (h : OnlyFiles env start store files)
    (hstart : ¬Corrupt env.blake3 start (contentHash env file)) :
    ¬Corrupt env.blake3 store (contentHash env file) := by
  rintro ⟨bytes, hbytes, hne⟩
  rcases h _ _ hbytes with hthere | ⟨other, -, hhash, rfl⟩
  · exact hstart ⟨bytes, hthere, hne⟩
  · exact hne hhash.symm

/-- An upload keeps what is there, and its chunk is there behind it. -/
theorem exists_upload (h : OnlyFiles env start store files)
    (hseparates : NoCollisions env start files) (hfile : file ∈ files)
    (hstart : ¬Corrupt env.blake3 start (contentHash env file)) :
    ∃ result grown,
      store.uploadChunk env.blake3 file.2 (contentHash env file) = .ok (result, grown) ∧
      grown.manifests = store.manifests ∧ OnlyFiles env start grown files ∧
      (∀ hash bytes, store.chunks hash = some bytes → grown.chunks hash = some bytes) ∧
      grown.chunks (contentHash env file) = some file.2 := by
  obtain ⟨result, grown, huploaded, hstored⟩ :=
    uploadChunk_of_not_corrupt
      (show CasChunkHash.fromBytes env.blake3 file.2 = contentHash env file from rfl)
      (h.not_corrupt hstart)
  obtain ⟨hmanifests, hchunks⟩ := chunks_of_uploadChunk huploaded
  rcases hchunks with ⟨hsame, hthere⟩ | ⟨hnone, hassign⟩
  · refine ⟨result, grown, huploaded, hmanifests, ?_, ?_, ?_⟩
    · unfold OnlyFiles
      rw [hsame]
      exact h
    · intro hash bytes hbytes
      rw [hsame]
      exact hbytes
    · rw [hsame]
      exact h.chunk hseparates hfile hthere
  · refine ⟨result, grown, huploaded, hmanifests, ?_, ?_, ?_⟩
    · intro hash bytes hbytes
      rw [hassign] at hbytes
      rcases assign_eq_some.mp hbytes with ⟨hhash, rfl⟩ | ⟨-, hthere⟩
      · exact Or.inr ⟨file, hfile, hhash, rfl⟩
      · exact h hash bytes hthere
    · intro hash bytes hbytes
      rw [hassign, assign_of_ne]
      · exact hbytes
      · rintro rfl
        rw [hnone] at hbytes
        cases hbytes
    · rw [hassign]
      exact assign_self

/-! ## The manifest of one file -/

/-- The manifest of the one chunk is written under its id. -/
theorem exists_manifest (hchunk : store.chunks (contentHash env file) = some file.2)
    (now : UInt64) :
    ∃ manifest grown,
      store.createManifest env.blake3 now [contentHash env file] = .ok (manifest, grown) ∧
      grown = { store with manifests := assign store.manifests manifest.manifestId manifest } ∧
      manifest.validate env.blake3 = .ok () ∧ manifest.chunks = singleChunk env file ∧
      grown.fetchManifest env.blake3 manifest.manifestId = .ok manifest := by
  have hstored : ∀ hash ∈ [contentHash env file], ChunkStored env.blake3 store hash := by
    intro hash hmem
    rw [List.mem_singleton.mp hmem]
    exact ⟨file.2, hchunk, rfl⟩
  obtain ⟨manifest, grown, hcreated, hvalid, hfetched, hhashes, hsizes⟩ :=
    createManifest_ok hstored now
  refine ⟨manifest, grown, hcreated, (createManifest_eq hcreated).1, hvalid, ?_, hfetched⟩
  have hoffsets := (validate_eq_ok.mp hvalid).2.2
  cases hchunks : manifest.chunks with
  | nil => simp [hchunks] at hhashes
  | cons chunk rest =>
    rw [hchunks] at hhashes hsizes hoffsets
    simp only [List.map_cons, List.map_nil, List.cons.injEq, List.map_eq_nil_iff] at hhashes hsizes
    obtain ⟨hhash, rfl⟩ := hhashes
    have hoffset : chunk.offsetBytes = 0 := by
      unfold checkOffsets at hoffsets
      split at hoffsets
      · cases hoffsets
      · rename_i heq
        exact not_not.mp heq
    have hsize : chunk.sizeBytes = UInt64.ofNat file.2.size := by
      rw [hsizes.1, storedSize, hchunk]
    cases chunk
    simp only at hhash hoffset hsize
    rw [singleChunk, hhash, hoffset, hsize]

/-- A manifest that is written under the same id is one of the same chunks. -/
theorem Kept.manifestWritten {manifest : CasManifest} (h : Kept env store other manifestId)
    (hseparates : NoCollisions env start files) (hother : other ∈ files) (hfile : file ∈ files)
    (hvalid : manifest.validate env.blake3 = .ok ())
    (hchunks : manifest.chunks = singleChunk env file) :
    Kept env { store with manifests := assign store.manifests manifest.manifestId manifest }
      other manifestId where
  manifest := by
    obtain ⟨old, hfetched, hsingle⟩ := h.manifest
    obtain ⟨hformat, hfound, holdvalid, hid⟩ := fetchManifest_eq_ok.mp hfetched
    by_cases hsame : manifestId = manifest.manifestId
    · subst hsame
      have hstreams : env.blake3.hex (manifestStream (singleChunk env other)) =
          env.blake3.hex (manifestStream (singleChunk env file)) := by
        have hids := hid
        rw [(validate_eq_ok.mp holdvalid).2.1, (validate_eq_ok.mp hvalid).2.1,
          calculateManifestId_eq, calculateManifestId_eq, String.append_right_inj, hsingle,
          hchunks] at hids
        exact hids
      have hequal := manifestStream_injective
        (hseparates _ _ (.manifest hother) (.manifest hfile) hstreams)
      refine ⟨manifest, fetchManifest_eq_ok.mpr ⟨hformat, assign_self, hvalid, rfl⟩, ?_⟩
      rw [hchunks, hequal]
    · refine ⟨old, fetchManifest_eq_ok.mpr ⟨hformat, ?_, holdvalid, hid⟩, hsingle⟩
      exact (assign_of_ne hsame).trans hfound
  chunk := h.chunk

theorem addReachabilityRoot_ok {rootId : String} {manifest : CasManifest} (now : UInt64)
    (hroot : validateRootId rootId = .ok ())
    (hfetched : store.fetchManifest env.blake3 manifestId = .ok manifest) :
    ∃ root, store.addReachabilityRoot env.blake3 now rootId manifestId =
      .ok (root, { store with roots := assign store.roots rootId root }) := by
  unfold CasStore.addReachabilityRoot
  rw [hroot, hfetched]
  exact ⟨_, rfl⟩

/-! ## The loop -/

/-- A pattern matches the path that the index has for the file. -/
def captures (globs : List (List UInt8 → Bool)) (file : WorkspaceFile) : Bool :=
  globs.any fun glob => glob (utf8 (workspaceRelativePath file.1))

theorem matchingPatternIndexes_isEmpty (globs : List (List UInt8 → Bool)) (relative : String) :
    (matchingPatternIndexes globs relative).isEmpty =
      !globs.any fun glob => glob (utf8 relative) := by
  have hfrom : ∀ start, ((globs.zipIdx start).filterMap fun glob =>
      if glob.1 (utf8 relative) then some glob.2 else none).isEmpty =
        !globs.any fun glob => glob (utf8 relative) := by
    induction globs with
    | nil => intro start; rfl
    | cons glob rest ih =>
      intro start
      rw [List.zipIdx_cons, List.any_cons, Bool.not_or, ← ih (start + 1)]
      cases hglob : glob (utf8 relative) with
      | true => simp [hglob]
      | false => simp [hglob]
  exact hfrom 0

/-- The entries so far are those of the files that were captured. -/
structure Indexing (env : CaptureEnv) (start : CasStore) (files : List WorkspaceFile)
    (state : Capturing) (done : List WorkspaceFile) : Prop where
  chunks : OnlyFiles env start state.store files
  entries : List.Forall₂ (fun file entry => file ∈ files ∧ IndexedAs env state.store file entry)
    done state.entries

variable {globs : List (List UInt8 → Bool)} {state : Capturing} {taskRunId : String}

/-- What a file's capture needs of the run id and of the store. -/
structure Admits (env : CaptureEnv) (taskRunId : String) (store : CasStore)
    (files : List WorkspaceFile) : Prop where
  rootIds : ∀ index < files.length, validateRootId (artifactRootId taskRunId index) = .ok ()
  sound : ∀ file ∈ files, ¬Corrupt env.blake3 store (contentHash env file)

variable (globs) in
theorem Indexing.captureFile (h : Indexing env start files state done)
    (hadmits : Admits env taskRunId start files) (hseparates : NoCollisions env start files)
    (hlength : done.length < files.length) (hfile : file ∈ files) :
    ∃ state', captureFile env taskRunId globs state file = .ok state' ∧
      Indexing env start files state'
        (done ++ if captures globs file then [file] else []) := by
  unfold Artifacts.captureFile
  dsimp only
  rw [matchingPatternIndexes_isEmpty]
  cases hcaptures : captures globs file with
  | false =>
    have hnone : (globs.any fun glob => glob (utf8 (workspaceRelativePath file.1))) = false :=
      hcaptures
    rw [hnone]
    refine ⟨state, rfl, ?_⟩
    rw [if_neg (by simp), List.append_nil]
    exact h
  | true =>
    have hsome : (globs.any fun glob => glob (utf8 (workspaceRelativePath file.1))) = true :=
      hcaptures
    rw [hsome, if_pos rfl]
    obtain ⟨uploaded, stored, huploaded, hmanifests, honly, hgrown, hchunk⟩ :=
      exists_upload h.chunks hseparates hfile (hadmits.sound file hfile)
    obtain ⟨manifest, created, hcreated, rfl, hvalid, hsingle, hfetched⟩ :=
      exists_manifest hchunk env.unixNowSeconds
    have hroot := hadmits.rootIds state.entries.length (by
      rw [← h.entries.length_eq]
      exact hlength)
    have hkept : ∀ other entry, other ∈ files ∧ IndexedAs env state.store other entry →
        other ∈ files ∧ IndexedAs env { stored with
          manifests := assign stored.manifests manifest.manifestId manifest } other entry := by
      rintro other entry ⟨hother, hentry⟩
      exact ⟨hother, hentry.path, (hentry.kept.mono hmanifests hgrown).manifestWritten hseparates
        hother hfile hvalid hsingle⟩
    obtain ⟨root, hrooted⟩ := addReachabilityRoot_ok env.unixNowSeconds hroot hfetched
    refine ⟨{
      store := { stored with
        manifests := assign stored.manifests manifest.manifestId manifest
        roots := assign stored.roots (artifactRootId taskRunId state.entries.length) root }
      matchedPatterns := (matchingPatternIndexes globs (workspaceRelativePath file.1)).foldl
        (fun flags index => flags.set index true) state.matchedPatterns
      entries := state.entries ++ [{
        path := workspaceRelativePath file.1
        sizeBytes := UInt64.ofNat file.2.size
        chunkHash := (contentHash env file).value
        casManifestId := manifest.manifestId
        casRootId := artifactRootId taskRunId state.entries.length }]
      totalBytes := saturatingAdd state.totalBytes (UInt64.ofNat file.2.size) }, ?_, ?_, ?_⟩
    · unfold contentHash at huploaded hcreated
      simp only [huploaded, hcreated, hrooted, Bind.bind, Except.bind]
      rfl
    · exact honly
    · have hnew : IndexedAs env { stored with
          manifests := assign stored.manifests manifest.manifestId manifest } file {
            path := workspaceRelativePath file.1
            sizeBytes := UInt64.ofNat file.2.size
            chunkHash := (contentHash env file).value
            casManifestId := manifest.manifestId
            casRootId := artifactRootId taskRunId state.entries.length } :=
        ⟨rfl, ⟨manifest, hfetched, hsingle⟩, hchunk⟩
      have hall := List.rel_append (h.entries.imp hkept)
        (List.Forall₂.cons ⟨hfile, hnew⟩ List.Forall₂.nil)
      apply hall.imp
      rintro other entry ⟨hother, hentry⟩
      exact ⟨hother, hentry.path, hentry.kept.mono rfl fun _ _ hbytes => hbytes⟩

variable (globs) in
/-- The loop goes through, and its entries are those of the files that are captured. -/
theorem Indexing.captureFiles {rest : List WorkspaceFile}
    (h : Indexing env start files state done) (hadmits : Admits env taskRunId start files)
    (hseparates : NoCollisions env start files)
    (hlength : done.length + rest.length ≤ files.length) (hrest : ∀ file ∈ rest, file ∈ files) :
    ∃ state', captureFiles env taskRunId globs state rest = .ok state' ∧
      Indexing env start files state' (done ++ rest.filter (captures globs)) := by
  induction rest generalizing state done with
  | nil =>
    refine ⟨state, rfl, ?_⟩
    rw [List.filter_nil, List.append_nil]
    exact h
  | cons file rest ih =>
    rw [List.length_cons] at hlength
    obtain ⟨hfile, hrest⟩ := List.forall_mem_cons.mp hrest
    obtain ⟨next, hnext, hindexing⟩ :=
      h.captureFile globs hadmits hseparates (by omega) hfile
    have hbound : (done ++ if captures globs file then [file] else []).length + rest.length ≤
        files.length := by
      rw [List.length_append]
      split
      · rw [List.length_singleton]
        omega
      · rw [List.length_nil]
        omega
    obtain ⟨last, hlast, hend⟩ := ih hindexing hbound hrest
    refine ⟨last, ?_, ?_⟩
    · unfold Artifacts.captureFiles at hlast ⊢
      rw [List.foldlM_cons, hnext]
      exact hlast
    · rw [List.append_assoc] at hend
      rw [List.filter_cons]
      cases hcaptures : captures globs file with
      | true =>
        rw [hcaptures] at hend
        exact hend
      | false =>
        rw [hcaptures] at hend
        exact hend

/-! ## The capture -/

/-- What the capture asks of a run id and of the outputs before it looks at a file. -/
structure Accepts (env : CaptureEnv) (taskRunId : String) (outputs : List String)
    (globs : List (List UInt8 → Bool)) : Prop where
  runId : validateTaskRunId taskRunId = .ok ()
  patterns : validateOutputPatterns outputs = .ok ()
  compiled : buildOutputGlobs env outputs = .ok globs

/-- The index has the captured files in some order, and their contents can be read. -/
theorem exists_captured {workspace : WorkspaceTree} {definition : TaskDefinition}
    (haccepts : Accepts env taskRunId definition.outputs globs)
    (hadmits : Admits env taskRunId store (collectWorkspaceFiles workspace))
    (hseparates : NoCollisions env store (collectWorkspaceFiles workspace)) :
    ∃ summary stored captured,
      captureTaskArtifacts env taskRunId workspace definition store = .ok (summary, stored) ∧
      ((collectWorkspaceFiles workspace).filter (captures globs)).Perm captured ∧
      List.Forall₂ (IndexedAs env stored) captured summary.index.entries := by
  have hstart : Indexing env store (collectWorkspaceFiles workspace)
      { store, matchedPatterns := definition.outputs.map fun _ => false, entries := [],
        totalBytes := 0 } [] :=
    ⟨fun hash bytes hbytes => Or.inl hbytes, List.Forall₂.nil⟩
  obtain ⟨state, hrun, hindexing⟩ := hstart.captureFiles globs hadmits hseparates
    (by simp) fun _ hfile => hfile
  have hsorted : state.entries.Perm
      (state.entries.insertionSort fun left right => left.path ≤ right.path) :=
    (List.perm_insertionSort _ _).symm
  have hentries : List.Forall₂ (IndexedAs env state.store)
      ((collectWorkspaceFiles workspace).filter (captures globs)) state.entries :=
    hindexing.entries.imp fun _ _ hentry => hentry.2
  obtain ⟨captured, hperm, hfiles⟩ :
      (Relation.Comp List.Perm (List.Forall₂ (IndexedAs env state.store)))
      ((collectWorkspaceFiles workspace).filter (captures globs))
      (state.entries.insertionSort fun left right => left.path ≤ right.path) := by
    rw [← List.forall₂_comp_perm_eq_perm_comp_forall₂]
    exact ⟨_, hentries, hsorted⟩
  have hsummary : ∃ summary,
      captureTaskArtifacts env taskRunId workspace definition store = .ok (summary, state.store) ∧
      summary.index.entries =
        state.entries.insertionSort fun left right => left.path ≤ right.path := by
    unfold captureTaskArtifacts
    simp only [haccepts.runId, haccepts.patterns, haccepts.compiled, hrun, Bind.bind, Except.bind]
    exact ⟨_, rfl, rfl⟩
  obtain ⟨summary, hcaptured, hindex⟩ := hsummary
  exact ⟨summary, state.store, captured, hcaptured, hperm, by rw [hindex]; exact hfiles⟩

end DevRelay.Artifacts
