import DevRelay.Core.SnapshotSchema
import DevRelay.Lib.FileTree
import DevRelay.Upload.Cas

/-!
# Files kept as sidecars

`sidecar.rs`: a file is read into a buffer and what each read returns becomes a chunk; the file
is written again from the chunks, and read again to compare it with them.  The system decides
how much a read returns.
-/

namespace DevRelay.Upload

open DevRelay.Core DevRelay.Lib

/-- The bytes of a file; its length is a 64-bit number. -/
structure FileBytes where
  bytes : List UInt8
  fits : bytes.length < 2 ^ 64

/-- What the reads of a file into a buffer of this width return, one after the other, up to the
end of the file. -/
structure Reads (width : Nat) (bytes : List UInt8) where
  pieces : List (List UInt8)
  joined : pieces.flatten = bytes
  sized : ∀ piece ∈ pieces, 0 < piece.length ∧ piece.length ≤ width

def pieceBytes (piece : List UInt8) : ByteArray := ⟨piece.toArray⟩

section

variable (blake3 : Blake3)

def pieceHash (piece : List UInt8) : CasChunkHash :=
  CasChunkHash.fromBytes blake3 (pieceBytes piece)

/-! ## Capture -/

/-- The loop of `upload_file_chunks` over what the reads return. -/
def uploadFileChunks (store : CasStore) :
    List (List UInt8) → Except DevRelayError (List CasChunkHash × CasStore)
  | [] => .ok ([], store)
  | piece :: pieces => do
    let (_, store) ← store.uploadChunk blake3 (pieceBytes piece) (pieceHash blake3 piece)
    let (hashes, store) ← uploadFileChunks store pieces
    return (pieceHash blake3 piece :: hashes, store)

def repoRelativePath (logicalPath : String) : Except DevRelayError (List Component) :=
  if isAbsolute logicalPath then
    .error (.config ("sidecar path " ++ logicalPath ++ " must be repository-relative"))
  else if (components logicalPath).any fun component =>
      component = .parentDir || component = .rootDir then
    .error (.config ("sidecar path " ++ logicalPath ++ " must not escape the repository"))
  else
    .ok (components logicalPath)

def fileMode (executable : Bool) : String := if executable then "100755" else "100644"

def largeFileThreshold : String := "large-file-threshold"

/-- `capture_large_sidecars` for one classified file. -/
def captureSidecar (store : CasStore) (now : UInt64) (path : String) (executable : Bool)
    (file : FileBytes) (chunkSizeBytes : UInt64) (reads : Reads chunkSizeBytes.toNat file.bytes) :
    Except DevRelayError (SnapshotSidecar × CasStore) :=
  if chunkSizeBytes = 0 then
    .error (.config "sidecar chunk size must be positive")
  else do
    let _ ← repoRelativePath path
    let (chunkHashes, store) ← uploadFileChunks blake3 store reads.pieces
    let (manifest, store) ← store.createManifest blake3 now chunkHashes
    return ({
      logicalPath := path
      fileMode := fileMode executable
      classification := largeFileThreshold
      sizeBytes := UInt64.ofNat file.bytes.length
      chunkSizeBytes := chunkSizeBytes
      rootHash := manifest.manifestId
      casManifestId := manifest.manifestId }, store)

/-! ## Materialization -/

def fetchSidecarManifest (store : CasStore) (sidecar : SnapshotSidecar) :
    Except DevRelayError CasManifest := do
  sidecar.validate
  let manifest ← store.fetchManifest blake3 sidecar.casManifestId
  if manifest.manifestId ≠ sidecar.rootHash then
    throw (.verification ("sidecar " ++ sidecar.logicalPath ++ " root hash mismatch: expected " ++
      sidecar.rootHash ++ ", got " ++ manifest.manifestId))
  if manifest.totalBytes ≠ sidecar.sizeBytes then
    throw (.verification ("sidecar " ++ sidecar.logicalPath ++ " size mismatch: expected " ++
      toString sidecar.sizeBytes ++ ", got " ++ toString manifest.totalBytes))
  return manifest

/-- The loop that writes the chunks; its result is what is written. -/
def writeChunks (store : CasStore) (sidecar : SnapshotSidecar) :
    List CasManifestChunk → Except DevRelayError (List UInt8)
  | [] => .ok []
  | chunk :: chunks =>
    if sidecar.chunkSizeBytes < chunk.sizeBytes then
      .error (.verification ("sidecar " ++ sidecar.logicalPath ++ " chunk " ++
        chunk.hash.value ++ " exceeds declared chunk size"))
    else do
      let bytes ← store.downloadChunk blake3 chunk.hash
      if UInt64.ofNat bytes.size ≠ chunk.sizeBytes then
        throw (.verification ("sidecar " ++ sidecar.logicalPath ++ " chunk " ++
          chunk.hash.value ++ " size mismatch"))
      let written ← writeChunks store sidecar chunks
      return bytes.data.toList ++ written

/-- The loop of `verify_materialized_sidecar`, with the chunks from its index on. -/
def verifyReads (sidecar : SnapshotSidecar) (offset : UInt64) :
    List CasManifestChunk → List (List UInt8) → Except DevRelayError Unit
  | chunks, [] =>
    if !chunks.isEmpty || offset ≠ sidecar.sizeBytes then
      .error (.verification ("sidecar " ++ sidecar.logicalPath ++ " materialized size mismatch"))
    else
      .ok ()
  | [], _ :: _ =>
    .error (.verification ("sidecar " ++ sidecar.logicalPath ++
      " materialized with extra chunks"))
  | expected :: chunks, piece :: pieces =>
    if pieceHash blake3 piece ≠ expected.hash then
      .error (.verification ("sidecar " ++ sidecar.logicalPath ++
        " materialized chunk hash mismatch at offset " ++ toString offset))
    else if expected.offsetBytes ≠ offset ||
        expected.sizeBytes ≠ UInt64.ofNat piece.length then
      .error (.verification ("sidecar " ++ sidecar.logicalPath ++
        " materialized chunk layout mismatch"))
    else
      verifyReads sidecar (saturatingAdd offset (UInt64.ofNat piece.length)) chunks pieces

def restoreFileMode (mode : String) : Except DevRelayError Unit :=
  if mode = "100755" || mode = "100644" then .ok ()
  else .error (.config ("unsupported sidecar file mode " ++ mode))

/-- What the directories of the target say to a path. -/
structure TargetDirectories where
  ensureMaterializationPathSafe : List Component → Except DevRelayError Unit
  createDirAll : List Component → Except DevRelayError Unit

/-- What is written over the target: the chunks, once every one of them is there. -/
def sidecarContents (target : TargetDirectories) (store : CasStore) (sidecar : SnapshotSidecar)
    (manifest : CasManifest) : Except DevRelayError (List UInt8) := do
  let path ← repoRelativePath sidecar.logicalPath
  target.ensureMaterializationPathSafe path
  target.createDirAll path
  target.ensureMaterializationPathSafe path
  writeChunks blake3 store sidecar manifest.chunks

/-- `materialize_sidecars` for one sidecar: the result, and the file at the target after it.
The file is in place before it is compared with the chunks; `reads` is what the reads of a file
return for its bytes. -/
def materializeSidecar (target : TargetDirectories) (store : CasStore) (sidecar : SnapshotSidecar)
    (reads : List UInt8 → List (List UInt8)) (before : Option (List UInt8)) :
    Except DevRelayError Unit × Option (List UInt8) :=
  match fetchSidecarManifest blake3 store sidecar with
  | .error e => (.error e, before)
  | .ok manifest =>
    match sidecarContents blake3 target store sidecar manifest with
    | .error e => (.error e, before)
    | .ok bytes =>
      (restoreFileMode sidecar.fileMode >>= fun _ =>
        verifyReads blake3 sidecar 0 manifest.chunks (reads bytes), some bytes)

end

end DevRelay.Upload

/-!
## Where sidecars are written

`materialize_sidecars` of `sidecar.rs` over the files of the target: the directories of a
sidecar are made, a file is moved onto its path, and it is read again.  A path that leads out
of the work tree or through a link is refused.
-/

namespace DevRelay.Upload

open DevRelay.Core DevRelay.Lib

/-- The files of the target, and the locations that were written with what was there before. -/
structure SidecarTarget where
  tree : FileTree
  written : List (Location × Option Node)

abbrev MaterializingSidecars := Prog SidecarTarget DevRelayError

def onTarget {α : Type} (program : Prog FileTree DevRelayError α) : MaterializingSidecars α :=
  program.within SidecarTarget.tree fun tree target => { target with tree }

/-- The names on the way to a path without a root and without `..`. -/
def pathNames (path : List Component) : List String :=
  path.filterMap fun
    | .normal name => some name
    | _ => none

/-- Below the root of the work tree a path crosses a link. -/
def crossesLink (tree : FileTree) (root : Location) (names : List String) : Bool :=
  names.inits.tail.any fun above =>
    match tree.node (root ++ above.map tree.fold) with
    | some (.symlink _) => true
    | _ => false

/-- `Path::exists` and `canonicalize` of the parent directory -/
def existingParent? (tree : FileTree) (root : Location) (path : List Component) : Option Location :=
  (tree.locate root path.dropLast).filter fun place => (tree.node place).isSome

/-- The path without a name is the root itself, whose parent is outside. -/
def ensureMaterializationPathSafe (root : Location) (path : List Component) (tree : FileTree) :
    Except DevRelayError Unit :=
  if pathNames path = [] then
    .error (.config "sidecar path escapes repository root")
  else if (existingParent? tree root path).any fun parent => !root.isPrefixOf parent then
    .error (.config "sidecar path escapes repository root")
  else if crossesLink tree root (pathNames path) then
    .error (.config "sidecar path crosses symlink")
  else .ok ()

section

variable (blake3 : Blake3) (store : CasStore)

def ensureSidecarAvailable (root : Location) (tree : FileTree) (sidecar : SnapshotSidecar) :
    Except DevRelayError Unit := do
  let path ← repoRelativePath sidecar.logicalPath
  ensureMaterializationPathSafe root path tree
  let manifest ← fetchSidecarManifest blake3 store sidecar
  let missing := store.missingChunks blake3 (manifest.chunks.map fun chunk => chunk.hash)
  require missing.isEmpty (.missingSourceObject ("missing " ++ toString missing.length ++
    " CAS chunks for sidecar " ++ sidecar.logicalPath))

def ensureSidecarsAvailable (root : Location) (sidecars : List SnapshotSidecar)
    (tree : FileTree) : Except DevRelayError Unit :=
  checkEach (ensureSidecarAvailable blake3 store root tree) sidecars

/-- `fs::rename` of the temporary file: not onto a directory, nor onto a path that is written
as one. -/
def renameTarget? (root : Location) (logicalPath : String) (path : List Component)
    (tree : FileTree) : Option Location :=
  match (logicalPath.toList.splitOn '/').getLast? with
  | none => none
  | some part =>
    if part = [] ∨ part = ['.'] then none
    else
      let location := root ++ (pathNames path).map tree.fold
      if tree.node location = some .directory then none else some location

def fileModeBits (mode : String) : UInt32 := if mode = "100755" then 0o755 else 0o644

/-- The chunks are written to a temporary file beside the target, which is moved onto it as the
last step; only this move is seen here. -/
def materializeOneSidecar (reads : List UInt8 → List (List UInt8)) (root : Location)
    (sidecar : SnapshotSidecar) (manifest : CasManifest) : MaterializingSidecars Unit := do
  let path ← Prog.ofExcept (repoRelativePath sidecar.logicalPath)
  let safe ← Prog.query fun target => ensureMaterializationPathSafe root path target.tree
  Prog.ofExcept safe
  onTarget (FileTree.createDirAll (.io ("cannot create a directory for " ++ sidecar.logicalPath))
    root ((pathNames path).dropLast.map .normal))
  let safe ← Prog.query fun target => ensureMaterializationPathSafe root path target.tree
  Prog.ofExcept safe
  let contents ← Prog.ofExcept (writeChunks blake3 store sidecar manifest.chunks)
  let location ← Prog.query fun target => renameTarget? root sidecar.logicalPath path target.tree
  let location ← Prog.orFail location (.io ("cannot rename onto " ++ sidecar.logicalPath))
  Prog.write fun target => {
    tree := target.tree.put location (.file contents FileTree.defaultMode)
    written := target.written ++ [(location, target.tree.node location)] }
  Prog.ofExcept (restoreFileMode sidecar.fileMode)
  Prog.write fun target => { target with
    tree := target.tree.setMode location (fileModeBits sidecar.fileMode) }
  Prog.ofExcept (verifyReads blake3 sidecar 0 manifest.chunks (reads contents))

def materializeSidecars (reads : List UInt8 → List (List UInt8)) (root : Location) :
    List SnapshotSidecar → MaterializingSidecars Unit
  | [] => pure ()
  | sidecar :: sidecars => do
    let manifest ← Prog.ofExcept (fetchSidecarManifest blake3 store sidecar)
    materializeOneSidecar blake3 store reads root sidecar manifest
    materializeSidecars reads root sidecars

end

/-! ## What the steps keep -/

section

variable {J : FileTree → Prop}

variable {blake3 : Blake3} {store : CasStore} {reads : List UInt8 → List (List UInt8)}
  {root : Location} {target : SidecarTarget}

/-- The property of the files of the target. -/
def OnTree (J : FileTree → Prop) (target : SidecarTarget) : Prop := J target.tree

theorem renameTarget?_eq_some {logicalPath : String} {path : List Component} {tree : FileTree}
    {location : Location} (h : renameTarget? root logicalPath path tree = some location) :
    location = root ++ (pathNames path).map tree.fold ∧ tree.node location ≠ some .directory := by
  unfold renameTarget? at h
  split at h
  · cases h
  · split at h
    · cases h
    · dsimp only at h
      split at h
      · cases h
      · rename_i hnode
        cases h
        exact ⟨rfl, hnode⟩

theorem run_onTarget {α : Type} (p : Prog FileTree DevRelayError α) : (onTarget p).run target =
    ((p.run target.tree).1, { target with tree := (p.run target.tree).2 }) := by
  unfold onTarget
  apply Prog.run_within
  · exact fun _ _ => rfl
  · exact fun _ => rfl
  · exact fun _ _ _ => rfl

/-- Where the target lets a sidecar in, its materialization over the files ends as the one over
the single file. -/
theorem run_materializeOneSidecar {sidecar : SnapshotSidecar} {manifest : CasManifest}
    {path : List Component} {tree : FileTree} {location : Location}
    {directories : TargetDirectories} (before : Option (List UInt8))
    (hmanifest : fetchSidecarManifest blake3 store sidecar = .ok manifest)
    (hpath : repoRelativePath sidecar.logicalPath = .ok path)
    (hsafe : ensureMaterializationPathSafe root path target.tree = .ok ())
    (hmade : (FileTree.createDirAll
        (DevRelayError.io ("cannot create a directory for " ++ sidecar.logicalPath)) root
        ((pathNames path).dropLast.map .normal)).run target.tree = (.ok (), tree))
    (hagain : ensureMaterializationPathSafe root path tree = .ok ())
    (hplace : renameTarget? root sidecar.logicalPath path tree = some location)
    (hopen : directories.ensureMaterializationPathSafe path = .ok ())
    (hcreate : directories.createDirAll path = .ok ()) :
    ((materializeOneSidecar blake3 store reads root sidecar manifest).run target).1 =
      (materializeSidecar blake3 directories store sidecar reads before).1 := by
  have hcontents : sidecarContents blake3 directories store sidecar manifest =
      writeChunks blake3 store sidecar manifest.chunks := by
    simp only [sidecarContents, hpath, hopen, hcreate, bind, Except.bind]
  rw [materializeSidecar, hmanifest]
  simp only [hcontents]
  unfold materializeOneSidecar
  rw [hpath]
  change ((Prog.query _ >>= _).run _).1 = _
  rw [Prog.run_query_bind, hsafe]
  change ((onTarget _ >>= _).run _).1 = _
  rw [Prog.run_bind, run_onTarget, hmade]
  simp only [Prog.run_query_bind, hagain]
  cases writeChunks blake3 store sidecar manifest.chunks with
  | error e => rfl
  | ok bytes =>
    change ((Prog.query _ >>= _).run _).1 = _
    rw [Prog.run_query_bind, hplace]
    change ((Prog.write _ >>= _).run _).1 = _
    rw [Prog.run_write_bind]
    cases restoreFileMode sidecar.fileMode with
    | error e => rfl
    | ok _ =>
      change ((Prog.write _ >>= _).run _).1 = verifyReads _ _ _ _ _
      rw [Prog.run_write_bind]
      cases verifyReads blake3 sidecar 0 manifest.chunks (reads bytes) with
      | error e => rfl
      | ok _ => rfl

theorem materializeOneSidecar_keeps (hJ : FileTree.KeptBySteps J) {sidecar : SnapshotSidecar}
    {manifest : CasManifest} (h : OnTree J target) :
    (materializeOneSidecar blake3 store reads root sidecar manifest).Ensures
      (OnTree J) (fun _ _ => True) target := by
  unfold materializeOneSidecar onTarget
  apply Prog.ensures_ofExcept_bind
  intro path _
  apply Prog.ensures_query_bind h
  apply Prog.ensures_ofExcept_bind
  intro _ _
  apply Prog.ensures_bind h
  · exact Prog.ensures_within (J := J) (fun _ _ => rfl) (fun tree _ htree _ => htree) h
      (FileTree.createDirAll_ensures hJ.makeDir _ h)
  intro _ made hmade _
  apply Prog.ensures_query_bind hmade
  apply Prog.ensures_ofExcept_bind
  intro _ _
  apply Prog.ensures_ofExcept_bind
  intro contents _
  apply Prog.ensures_query_bind hmade
  apply Prog.ensures_orFail_bind
  intro location hlocation
  have hmoved := hJ.moved made.tree location contents FileTree.defaultMode hmade
    (renameTarget?_eq_some hlocation).2
  refine Prog.ensures_write_bind hmoved ?_
  apply Prog.ensures_ofExcept_bind
  intro _ _
  refine Prog.ensures_write_bind (hJ.setMode _ _ _ hmoved) ?_
  apply Prog.ensures_ofExcept
  intro _ _
  trivial

theorem materializeSidecars_keeps (hJ : FileTree.KeptBySteps J) (sidecars : List SnapshotSidecar)
    (h : OnTree J target) :
    (materializeSidecars blake3 store reads root sidecars).Ensures
      (OnTree J) (fun _ _ => True) target := by
  induction sidecars generalizing target with
  | nil => trivial
  | cons sidecar sidecars ih =>
    unfold materializeSidecars
    apply Prog.ensures_ofExcept_bind
    intro manifest _
    apply Prog.ensures_bind h (materializeOneSidecar_keeps hJ h)
    intro _ target htarget _
    exact ih htarget

end

end DevRelay.Upload
