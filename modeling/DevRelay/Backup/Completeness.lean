import DevRelay.Backup.AllOrNothing
import DevRelay.Backup.Digest
import Mathlib.Logic.Relation

/-!
# What a verification proves

The manifest holds the hash of the metadata, the references of each repository
and the digest of the store.  A restore copies the directories as they are, with
what no summary covers: directories the manifest does not name, objects no
reference lists, and paths of the store that render to the same lines.
-/

namespace DevRelay.Backup

open DevRelay.Core DevRelay.Lib

/-! ## What is signed -/

/-- The files a generation is made of. -/
structure BackupSource where
  metadata : List UInt8
  cas : DirTree

/-- The summaries that `create_backup_anchor_generation` writes. -/
structure BackupEnv.Describes (env : BackupEnv) (manifest : BackupAnchorManifest)
    (source : BackupSource) : Prop where
  metadata : manifest.metadataBackupBlake3 = env.hashFile source.metadata
  digest : manifest.casDigestBlake3 = env.hashDirectory source.cas
  count : manifest.casFileCount = (directoryStats source.cas).1

def BackupAnchorManifest.unsigned (manifest : BackupAnchorManifest) : BackupAnchorManifest :=
  { manifest with rootPublicKeyHex := "", signatureHex := "" }

/-- A root key whose signatures nobody else makes. -/
structure RootKey (env : BackupEnv) where
  hex : String
  /-- the manifests it has signed, and what they were made of -/
  signed : BackupAnchorManifest → BackupSource → Prop
  described : ∀ manifest source, signed manifest source → env.Describes manifest source
  unforgeable : ∀ keyBytes payload signature,
    decodeFixedHex 32 "root_public_key_hex" hex = .ok keyBytes →
    env.signatureError keyBytes payload signature = none →
      ∃ manifest source, signed manifest source ∧ env.signedManifestPayload manifest = payload
  /-- `serde_json` writes no other manifest like one of these -/
  readable : ∀ manifest source other, signed manifest source →
    env.signedManifestPayload other = env.signedManifestPayload manifest →
      other.unsigned = manifest.unsigned

/-- What a manifest with this payload was made of. -/
def RootKey.SignedFor {env : BackupEnv} (key : RootKey env) (manifest : BackupAnchorManifest)
    (source : BackupSource) : Prop :=
  ∃ created, key.signed created source ∧
    env.signedManifestPayload manifest = env.signedManifestPayload created

/-- The inputs of the hash function for the metadata and the store. -/
inductive BackupEnv.Hashed (env : BackupEnv) (metadata : List UInt8) (cas : DirTree) :
    ByteArray → Prop where
  | metadata : Hashed env metadata cas ⟨metadata.toArray⟩
  | stream : Hashed env metadata cas (env.directoryStream cas)
  | file {location : Location} {contents : List UInt8} (h : (location, contents) ∈ filesIn cas) :
      Hashed env metadata cas ⟨contents.toArray⟩

/-- The hash function has no collision between a generation and its source. -/
def BackupEnv.NoCollision (env : BackupEnv) (metadata : List UInt8) (cas : DirTree)
    (source : BackupSource) : Prop :=
  ∀ bytes other, env.Hashed metadata cas bytes → env.Hashed source.metadata source.cas other →
    env.digest.hex bytes = env.digest.hex other → bytes = other

/-! ## What is restored -/

/-- Every object that a reference of DevRelay reaches is there. -/
def BareRepository.Complete (repository : BareRepository) : Prop :=
  ∀ name oid, (name, oid) ∈ (devrelayRefs repository).entries → ∀ object,
    Relation.ReflTransGen
      (fun parent child => ∃ named, repository.links parent = some named ∧ child ∈ named)
      oid object → (repository.links object).isSome

/-- The home has what the manifest describes, and nothing else. -/
structure RestoresExactly (env : BackupEnv) (manifest : BackupAnchorManifest)
    (source : BackupSource) (home : AnchorHome) : Prop where
  metadata : home.tree metadataLocation = some (.file source.metadata)
  repositories : ∀ repository ∈ manifest.repositories, ∃ found,
    env.git (below (snapshotsLocation ++ [repository.repositoryName]) home.tree) = some found ∧
      (devrelayRefs found).entries = repository.refTips.entries ∧ found.Complete
  noFurther : ∀ location, home.tree (snapshotsLocation ++ location) = some .directory →
    (env.git (below (snapshotsLocation ++ location) home.tree)).isSome →
      ∃ repository ∈ manifest.repositories, location = [repository.repositoryName]
  cas : ∀ location contents, home.tree (casLocation ++ location) = some (.file contents) ↔
    (location, contents) ∈ filesIn source.cas

/-! ## The gaps -/

/-- A directory of the generation, with what the home has in its place besides. -/
def withHome (base : Location) (tree : DirTree) (home : AnchorHome) : DirStore
  | [] => some .directory
  | location => (nodeIn tree location).or (home.tree (base ++ location))

/-- The home has nothing where the repository is restored. -/
def VacantAt (name : String) (home : AnchorHome) : Prop :=
  ∀ rest, home.tree (snapshotsLocation ++ name :: rest) = none

/-- Nothing hides where no summary looks. -/
structure Covered (env : BackupEnv) (manifest : BackupAnchorManifest) (source : BackupSource)
    (generation : Generation) (home : AnchorHome) : Prop where
  /-- the directory itself is a repository, with all its objects -/
  repositories : ∀ repository ∈ manifest.repositories, ∃ found,
    env.git (below [repository.repositoryName]
      (withHome snapshotsLocation generation.repos home)) = some found ∧ found.Complete ∧
      (VacantAt repository.repositoryName home ∨
        (devrelayRefs found).entries = repository.refTips.entries)
  named : ∀ location, withHome snapshotsLocation generation.repos home location =
      some .directory →
    (env.git (below location (withHome snapshotsLocation generation.repos home))).isSome →
      ∃ repository ∈ manifest.repositories, location = [repository.repositoryName]
  paths : List.Forall₂ env.CutAlike (sortedFilesRecursive generation.cas)
    (sortedFilesRecursive source.cas)
  vacant : ∀ name rest contents,
    home.tree (casLocation ++ name :: rest) = some (.file contents) →
      nodeIn generation.cas (name :: rest) ≠ none

section Restored

variable {env : BackupEnv} {manifest : BackupAnchorManifest} {source : BackupSource}
  {generation : Generation} {home : AnchorHome} {contents : List UInt8}

/-! ## The restored directories -/

theorem begun_of_ne {location : Location} (hmetadata : location ≠ metadataLocation)
    (hanchor : location ∉ anchorNodes.map Prod.fst) :
    (begun home contents).tree location = home.tree location := by
  unfold begun prepared
  dsimp only
  rw [assign_of_ne hmetadata, overlay_of_notMem hanchor]

theorem restored_eq_or (location : Location) :
    (restored home contents generation).tree location =
      ((generation.repos.rooted snapshotsLocation).lookup location).or
        (((generation.cas.rooted casLocation).lookup location).or
          ((begun home contents).tree location)) := by
  unfold restored
  dsimp only
  rw [overlay_eq_lookup (nodup_dataNodes generation), dataNodes, List.lookup_append,
    Option.or_assoc]

theorem restored_root {base : Location} (h : base = snapshotsLocation ∨ base = casLocation) :
    (restored home contents generation).tree base = some .directory := by
  have hmem : (base, DirNode.directory) ∈ dataNodes generation := by
    rcases h with rfl | rfl
    · exact List.mem_append_left _ List.mem_cons_self
    · exact List.mem_append_right _ List.mem_cons_self
  exact holds_restored home contents generation _ hmem

/-- In its place a directory is restored as it is, over what the home has there. -/
theorem restored_snapshots (location : Location) :
    (restored home contents generation).tree (snapshotsLocation ++ location) =
      withHome snapshotsLocation generation.repos home location := by
  cases location with
  | nil => exact restored_root (Or.inl rfl)
  | cons name rest =>
  have hother : ∀ below, snapshotsLocation ++ name :: rest ≠ casLocation ++ below := by
    intro below heq
    exact absurd (List.cons.inj heq).1 (by decide)
  have hmetadata : snapshotsLocation ++ name :: rest ≠ metadataLocation := by
    simp [snapshotsLocation, metadataLocation]
  have hanchor : snapshotsLocation ++ name :: rest ∉ anchorNodes.map Prod.fst := by
    simp [snapshotsLocation, casLocation, anchorNodes]
  rw [restored_eq_or, DirTree.lookup_rooted_cons, DirTree.lookup_rooted_of_ne hother,
    begun_of_ne hmetadata hanchor]
  rfl

theorem restored_cas (name : String) (rest : Location) :
    (restored home contents generation).tree (casLocation ++ name :: rest) =
      withHome casLocation generation.cas home (name :: rest) := by
  have hother : ∀ below, casLocation ++ name :: rest ≠ snapshotsLocation ++ below := by
    intro below heq
    exact absurd (List.cons.inj heq).1 (by decide)
  have hmetadata : casLocation ++ name :: rest ≠ metadataLocation := by
    simp [casLocation, metadataLocation]
  have hanchor : casLocation ++ name :: rest ∉ anchorNodes.map Prod.fst := by
    simp [snapshotsLocation, casLocation, anchorNodes]
  rw [restored_eq_or, DirTree.lookup_rooted_cons, DirTree.lookup_rooted_of_ne hother,
    begun_of_ne hmetadata hanchor]
  rfl

theorem below_restored (location : Location) :
    below (snapshotsLocation ++ location) (restored home contents generation).tree =
      below location (withHome snapshotsLocation generation.repos home) := by
  funext rest
  rw [below, List.append_assoc, restored_snapshots]
  rfl

/-! ## The repositories -/

theorem below_vacant {name : String} (h : VacantAt name home) :
    below [name] (withHome snapshotsLocation generation.repos home) =
      below [name] (nodeIn generation.repos) := by
  funext rest
  have hvacant : home.tree (snapshotsLocation ++ ([name] ++ rest)) = none := h rest
  rw [below, List.singleton_append, withHome, ← List.singleton_append, hvacant, Option.or_none]
  · rfl
  · exact nofun

/-- Each repository of the manifest has passed the comparison of its references. -/
theorem refTips_of_verified {repos : DirTree} {repositories : List BackupRepositoryManifest}
    (h : env.verifyRepositories repos repositories = .ok ()) :
    ∀ repository ∈ repositories, ∃ tips,
      env.refTips repos repository.repositoryName = .ok tips ∧
        tips.entries = repository.refTips.entries := by
  induction repositories with
  | nil => exact fun repository hmem => absurd hmem List.not_mem_nil
  | cons first rest ih =>
    unfold BackupEnv.verifyRepositories at h
    simp only [bind_eq_ok_iff, guard_eq_ok, ne_eq, not_not] at h
    obtain ⟨tips, htips, hsame, hrest⟩ := h
    intro repository hmem
    rcases List.mem_cons.mp hmem with rfl | hlater
    · exact ⟨tips, htips, hsame⟩
    · exact ih hrest repository hlater

/-- In a vacant place the references are those the verification has seen. -/
theorem refs_of_vacant {repository : BackupRepositoryManifest} {found : BareRepository}
    {tips : SortedMap String String}
    (htips : env.refTips generation.repos repository.repositoryName = .ok tips)
    (hvacant : VacantAt repository.repositoryName home)
    (hfound : env.git (below [repository.repositoryName]
      (withHome snapshotsLocation generation.repos home)) = some found) :
    devrelayRefs found = tips := by
  rw [below_vacant hvacant] at hfound
  unfold BackupEnv.refTips at htips
  split at htips
  · rw [hfound] at htips
    exact Except.ok.inj htips
  · cases htips

theorem repositories_iff (home : AnchorHome) (contents : List UInt8)
    (hverified : env.verifyRepositories generation.repos manifest.repositories = .ok ()) :
    (∀ repository ∈ manifest.repositories, ∃ found,
      env.git (below (snapshotsLocation ++ [repository.repositoryName])
        (restored home contents generation).tree) = some found ∧
        (devrelayRefs found).entries = repository.refTips.entries ∧ found.Complete) ↔
    ∀ repository ∈ manifest.repositories, ∃ found,
      env.git (below [repository.repositoryName]
        (withHome snapshotsLocation generation.repos home)) = some found ∧ found.Complete ∧
        (VacantAt repository.repositoryName home ∨
          (devrelayRefs found).entries = repository.refTips.entries) := by
  constructor
  · intro h repository hmem
    obtain ⟨found, hfound, hrefs, hcomplete⟩ := h repository hmem
    rw [below_restored] at hfound
    exact ⟨found, hfound, hcomplete, Or.inr hrefs⟩
  · intro h repository hmem
    obtain ⟨found, hfound, hcomplete, hrefs⟩ := h repository hmem
    refine ⟨found, ?_, ?_, hcomplete⟩
    · rw [below_restored]
      exact hfound
    · rcases hrefs with hvacant | hrefs
      · obtain ⟨tips, htips, hsame⟩ := refTips_of_verified hverified repository hmem
        rw [refs_of_vacant htips hvacant hfound, hsame]
      · exact hrefs

/-! ## The store -/

theorem nil_notMem_filesIn {tree : DirTree} {bytes : List UInt8} : ([], bytes) ∉ filesIn tree := by
  intro hmem
  rw [mem_filesIn] at hmem
  unfold nodeIn at hmem
  rw [lookup_eq_some_iff_mem tree.distinct] at hmem
  obtain ⟨name, rest, hlocation⟩ := Entries.ne_of_mem_nodes hmem
  cases hlocation

/-- A file of the restored store is one of the generation, or was in the home. -/
theorem restored_cas_file (location : Location) (bytes : List UInt8) :
    (restored home contents generation).tree (casLocation ++ location) = some (.file bytes) ↔
      (location, bytes) ∈ filesIn generation.cas ∨
        nodeIn generation.cas location = none ∧
          location ≠ [] ∧ home.tree (casLocation ++ location) = some (.file bytes) := by
  cases location with
  | nil =>
    have hroot : (restored home contents generation).tree (casLocation ++ []) =
        some .directory := restored_root (Or.inr rfl)
    rw [hroot]
    simp [nil_notMem_filesIn]
  | cons name rest =>
    have hplace : withHome casLocation generation.cas home (name :: rest) =
        (nodeIn generation.cas (name :: rest)).or (home.tree (casLocation ++ name :: rest)) := rfl
    rw [restored_cas, hplace, mem_filesIn]
    cases nodeIn generation.cas (name :: rest) with
    | none => simp
    | some node => simp

theorem hashFile_inj_of_noCollision {metadata : List UInt8}
    (h : env.NoCollision metadata generation.cas source) :
    ∀ file ∈ sortedFilesRecursive generation.cas, ∀ file' ∈ sortedFilesRecursive source.cas,
      env.hashFile file.2 = env.hashFile file'.2 → file.2 = file'.2 := by
  intro file hfile file' hfile' hhash
  have hbytes := h _ _ (.file (mem_sortedFiles.mp hfile)) (.file (mem_sortedFiles.mp hfile')) hhash
  have harray := congrArg (fun bytes => bytes.data.toList) hbytes
  exact harray

theorem cas_iff (home : AnchorHome) (contents : List UInt8) {metadata : List UInt8}
    (hcollision : env.NoCollision metadata generation.cas source)
    (hdigest : env.hashDirectory generation.cas = env.hashDirectory source.cas) :
    (∀ location bytes, (restored home contents generation).tree (casLocation ++ location) =
        some (.file bytes) ↔ (location, bytes) ∈ filesIn source.cas) ↔
      List.Forall₂ env.CutAlike (sortedFilesRecursive generation.cas)
          (sortedFilesRecursive source.cas) ∧
        ∀ name rest bytes, home.tree (casLocation ++ name :: rest) = some (.file bytes) →
          nodeIn generation.cas (name :: rest) ≠ none := by
  have hstream := directoryStream_inj.mp (hcollision _ _ .stream .stream hdigest)
  constructor
  · intro h
    have hsubset : ∀ file ∈ filesIn generation.cas, file ∈ filesIn source.cas :=
      fun file hfile => (h file.1 file.2).mp ((restored_cas_file _ _).mpr (Or.inl hfile))
    have hsame := sortedFiles_eq_of_subset hsubset hstream
    refine ⟨?_, ?_⟩
    · rw [hsame]
      exact forall₂_cutAlike_self env _
    · intro name rest bytes hhome hnone
      have hrestored : (restored home contents generation).tree (casLocation ++ name :: rest) =
          some (.file bytes) :=
        (restored_cas_file _ _).mpr (Or.inr ⟨hnone, List.cons_ne_nil name rest, hhome⟩)
      have hfile := mem_sortedFiles.mpr ((h _ _).mp hrestored)
      rw [← hsame, mem_sortedFiles, mem_filesIn, hnone] at hfile
      cases hfile
  · rintro ⟨hpaths, hvacant⟩ location bytes
    have hsame := eq_of_cutAlike hpaths (hashFile_inj_of_noCollision hcollision) hstream
    rw [restored_cas_file, ← mem_sortedFiles, ← mem_sortedFiles, hsame]
    constructor
    · rintro (hfile | ⟨hnone, hne, hhome⟩)
      · exact hfile
      · obtain ⟨name, rest, rfl⟩ := List.exists_cons_of_ne_nil hne
        exact absurd hnone (hvacant name rest bytes hhome)
    · exact Or.inl

theorem noFurther_iff :
    (∀ location, (restored home contents generation).tree (snapshotsLocation ++ location) =
        some .directory →
      (env.git (below (snapshotsLocation ++ location)
        (restored home contents generation).tree)).isSome →
          ∃ repository ∈ manifest.repositories, location = [repository.repositoryName]) ↔
    ∀ location, withHome snapshotsLocation generation.repos home location = some .directory →
      (env.git (below location (withHome snapshotsLocation generation.repos home))).isSome →
        ∃ repository ∈ manifest.repositories, location = [repository.repositoryName] := by
  simp only [below_restored, restored_snapshots]

/-! ## The manifest -/

/-- The description goes with the payload. -/
theorem describes_of_signedFor {key : RootKey env} (h : key.SignedFor manifest source) :
    env.Describes manifest source := by
  obtain ⟨created, hsigned, hpayload⟩ := h
  have hsame := key.readable created source manifest hsigned hpayload
  have hdescribed := key.described created source hsigned
  have hmetadata := congrArg BackupAnchorManifest.metadataBackupBlake3 hsame
  have hdigest := congrArg BackupAnchorManifest.casDigestBlake3 hsame
  have hcount := congrArg BackupAnchorManifest.casFileCount hsame
  exact ⟨hmetadata.trans hdescribed.metadata, hdigest.trans hdescribed.digest,
    hcount.trans hdescribed.count⟩

/-- A manifest that is accepted under the key was signed with it. -/
theorem exists_signedFor (key : RootKey env) (hkey : manifest.rootPublicKeyHex = key.hex)
    (h : env.verifyRootSignature manifest.rootPublicKeyHex (env.signedManifestPayload manifest)
      manifest.signatureHex = .ok ()) : ∃ source, key.SignedFor manifest source := by
  unfold BackupEnv.verifyRootSignature at h
  simp only [bind_eq_ok_iff] at h
  obtain ⟨keyBytes, hbytes, signatureBytes, _, haccepted⟩ := h
  rw [hkey] at hbytes
  split at haccepted
  · cases haccepted
  · split at haccepted
    · cases haccepted
    · rename_i _ _ hsignature
      obtain ⟨created, source, hsigned, hpayload⟩ :=
        key.unforgeable keyBytes _ signatureBytes hbytes hsignature
      exact ⟨source, created, hsigned, hpayload.symm⟩

/-- What a restore leaves that returns has exactly what the signed manifest describes if and
only if nothing hides in the gaps of the verification. -/
theorem restoresExactly_iff_covered {targetDb : String} {verification : BackupAnchorVerification}
    {t : AnchorHome} (key : RootKey env) (hmanifest : generation.manifest = .ok manifest)
    (hkey : manifest.rootPublicKeyHex = key.hex)
    (hcollision : ∀ source metadata, key.SignedFor manifest source →
      generation.metadata = some metadata → env.NoCollision metadata generation.cas source)
    (hrestored : (restoreBackupAnchorGeneration env targetDb generation).run home =
      (.ok verification, t)) :
    (∃ source, key.SignedFor manifest source) ∧
      ∀ source, key.SignedFor manifest source →
        (RestoresExactly env manifest source t ↔ Covered env manifest source generation home) := by
  obtain ⟨contents, hverified, habsent, hcontents, rfl⟩ := restored_of_run_ok hrestored
  obtain ⟨passed, metadata, hpassed⟩ := env.verified_of_ok hverified
  cases hmanifest.symm.trans hpassed.manifest_read
  cases hcontents.symm.trans (readMetadata_eq_ok.mp hpassed.metadata_read)
  refine ⟨exists_signedFor key hkey hpassed.signature, ?_⟩
  intro source hsource
  have hdescribed := describes_of_signedFor hsource
  have hnone := hcollision source contents hsource hcontents
  have hdigest := hpassed.cas_digest.trans hdescribed.digest
  have hmetadata : contents = source.metadata := by
    have hbytes := hnone _ _ .metadata .metadata
      (hpassed.metadata_hash.trans hdescribed.metadata)
    exact congrArg (fun bytes => bytes.data.toList) hbytes
  have hrepositories := repositories_iff home contents hpassed.repositories
  have hcas := cas_iff home contents hnone hdigest
  constructor
  · intro h
    obtain ⟨hpaths, hvacant⟩ := hcas.mp h.cas
    exact ⟨hrepositories.mp h.repositories, noFurther_iff.mp h.noFurther, hpaths, hvacant⟩
  · intro h
    refine ⟨?_, hrepositories.mpr h.repositories, noFurther_iff.mpr h.named,
      hcas.mpr ⟨h.paths, h.vacant⟩⟩
    rw [restored_metadata, hmetadata]

end Restored

/-! ## A directory that the manifest does not name -/

namespace Stranger

/-- The digest of no bytes. -/
def emptyDigest : Blake3 where
  hex _ := "af1349b9f5f9a1a6a0404dea36dcc9499bcb25c9adc112b7cc9a93cae41f3262"
  hex_length _ := by decide
  hex_digits _ := by decide

def manifest : BackupAnchorManifest where
  schemaVersion := 1
  generationId := "bg_0"
  fabricId := "fabric"
  sourceAnchorDeviceId := "anchor"
  createdAtUnixSeconds := 0
  metadataBackupBlake3 := "af1349b9f5f9a1a6a0404dea36dcc9499bcb25c9adc112b7cc9a93cae41f3262"
  metadataBackupBytes := 0
  repositories := []
  casFileCount := 0
  casByteCount := 0
  casDigestBlake3 := "af1349b9f5f9a1a6a0404dea36dcc9499bcb25c9adc112b7cc9a93cae41f3262"
  revocationCount := 0
  latestRevocationAtUnixSeconds := none
  rootPublicKeyHex := Stopped.zeros 64
  signatureHex := Stopped.zeros 128

@[irreducible] def payload : ByteArray :=
  ("\x7b\"schema_version\":1,\"generation_id\":\"bg_0\",\"fabric_id\":\"fabric\"," ++
    "\"source_anchor_device_id\":\"anchor\",\"created_at_unix_seconds\":0," ++
    "\"metadata_backup_blake3\":" ++
    "\"af1349b9f5f9a1a6a0404dea36dcc9499bcb25c9adc112b7cc9a93cae41f3262\"," ++
    "\"metadata_backup_bytes\":0,\"repositories\":[],\"cas_file_count\":0," ++
    "\"cas_byte_count\":0,\"cas_digest_blake3\":" ++
    "\"af1349b9f5f9a1a6a0404dea36dcc9499bcb25c9adc112b7cc9a93cae41f3262\"," ++
    "\"revocation_count\":0,\"latest_revocation_at_unix_seconds\":null," ++
    "\"root_public_key_hex\":\"\",\"signature_hex\":\"\"\x7d").toByteArray

/-- `ref: refs/heads/main` -/
def headOfMain : List UInt8 :=
  [114, 101, 102, 58, 32, 114, 101, 102, 115, 47, 104, 101, 97, 100, 115, 47, 109, 97, 105, 110, 10]

/-- The test of git: a `HEAD` that names a reference, and the directories of a repository. -/
def isGitDirectory (store : DirStore) : Bool :=
  (match store ["HEAD"] with
    | some (.file contents) => (headOfMain.take 10).isPrefixOf contents
    | _ => false) &&
    store ["objects"] = some .directory && store ["refs"] = some .directory

/-- No repository here has a reference. -/
def env : BackupEnv where
  digest := emptyDigest
  toJson m := if m = manifest.unsigned then payload else ByteArray.empty
  keyError _ := none
  signatureError _ signed _ := if signed.data = payload.data then none else some "signature error"
  git store :=
    if isGitDirectory (below [".git"] store) || isGitDirectory store then
      some ⟨SortedMap.empty, fun _ => none⟩
    else none
  enclosing := none
  renderPath location := "/".intercalate location

/-- `repos/stranger.git` was put there after the signing. -/
def generation : Generation where
  manifest := .ok manifest
  metadata := some []
  repos := ⟨.dir "stranger.git"
    (.file "HEAD" headOfMain (.dir "objects" .nil (.dir "refs" .nil .nil))) .nil, by decide⟩
  cas := DirTree.empty

def source : BackupSource := ⟨[], DirTree.empty⟩

theorem payload_ne_empty : payload ≠ ByteArray.empty := by
  unfold payload
  rw [ne_eq, String.toByteArray_eq_empty_iff]
  simp only [String.append_eq_empty_iff, not_and]
  intro hfirst
  exact absurd hfirst (by decide)

theorem signedManifestPayload_eq (other : BackupAnchorManifest) :
    env.signedManifestPayload other = payload ↔ other.unsigned = manifest.unsigned := by
  show (if other.unsigned = manifest.unsigned then payload else ByteArray.empty) = payload ↔ _
  split
  · simp_all
  · rename_i hne
    exact iff_of_false payload_ne_empty.symm hne

def key : RootKey env where
  hex := Stopped.zeros 64
  signed m s := m = manifest ∧ s = source
  described := by
    rintro _ _ ⟨rfl, rfl⟩
    exact ⟨rfl, rfl, rfl⟩
  unforgeable := by
    intro _ signed _ _ haccepted
    have hpayload : signed = payload := by
      by_contra hne
      have hrefused : env.signatureError = fun _ signed _ =>
        if signed.data = payload.data then none else some "signature error" := rfl
      rw [hrefused] at haccepted
      have hdata : signed.data ≠ payload.data := fun hdata => hne (ByteArray.ext hdata)
      simp [hdata] at haccepted
    exact ⟨manifest, source, ⟨rfl, rfl⟩, hpayload ▸ (signedManifestPayload_eq manifest).mpr rfl⟩
  readable := by
    rintro _ _ other ⟨rfl, rfl⟩ hsame
    exact (signedManifestPayload_eq other).mp
      (hsame.trans ((signedManifestPayload_eq manifest).mpr rfl))

theorem hashed_empty {bytes : ByteArray} (h : env.Hashed [] DirTree.empty bytes) :
    bytes = ByteArray.empty := by
  cases h with
  | metadata => rfl
  | stream => rfl
  | file h => exact absurd h List.not_mem_nil

theorem noCollision (found : BackupSource) (metadata : List UInt8)
    (hsigned : key.SignedFor manifest found) (hmetadata : generation.metadata = some metadata) :
    env.NoCollision metadata generation.cas found := by
  obtain ⟨_, ⟨_, rfl⟩, _⟩ := hsigned
  cases hmetadata
  intro bytes other hbytes hother _
  rw [hashed_empty hbytes, hashed_empty hother]

theorem signature_accepted : env.verifyRootSignature manifest.rootPublicKeyHex
    (env.signedManifestPayload manifest) manifest.signatureHex = .ok () := by
  have hpayload := (signedManifestPayload_eq manifest).mpr rfl
  have haccepts : ∀ keyBytes signature,
      env.signatureError keyBytes payload signature = none := by
    intro _ _
    show (if payload.data = payload.data then none else some "signature error") = none
    exact if_pos rfl
  rw [hpayload]
  unfold BackupEnv.verifyRootSignature
  have hkey : ∃ bytes, decodeFixedHex 32 "root_public_key_hex" manifest.rootPublicKeyHex =
      .ok bytes := ⟨_, rfl⟩
  have hsignature : ∃ bytes, decodeFixedHex 64 "signature_hex" manifest.signatureHex =
      .ok bytes := ⟨_, rfl⟩
  obtain ⟨keyBytes, hkey⟩ := hkey
  obtain ⟨signatureBytes, hsignature⟩ := hsignature
  rw [hkey, hsignature]
  simp only [bind_eq_ok_iff]
  refine ⟨keyBytes, rfl, signatureBytes, rfl, ?_⟩
  rw [haccepts]
  rfl

theorem verify_generation :
    env.verifyBackupAnchorGeneration generation = .ok ⟨"bg_0", true, 0, 0, true⟩ := by
  have hread : generation.manifest = .ok manifest := rfl
  unfold BackupEnv.verifyBackupAnchorGeneration
  rw [hread]
  simp only [bind_eq_ok_iff, guard_eq_ok, ne_eq, not_not]
  refine ⟨manifest, rfl, rfl, (), signature_accepted, [], rfl, rfl, (), rfl, rfl, rfl, rfl⟩

/-- The home behind the restore. -/
def after : AnchorHome := restored Stopped.freshHome [] generation

theorem fits_anchorNodes : ∀ node ∈ anchorNodes, Fits Stopped.freshHome.tree node := by
  rintro ⟨location, _ | contents⟩ _
  · exact fun contents hat => by cases hat
  · exact fun hat => by cases hat

theorem fits_dataNodes :
    ∀ node ∈ dataNodes generation, Fits (prepared Stopped.freshHome).tree node := by
  have hnodes : dataNodes generation = [(["snapshots"], .directory),
    (["snapshots", "stranger.git"], .directory),
    (["snapshots", "stranger.git", "HEAD"], .file headOfMain),
    (["snapshots", "stranger.git", "objects"], .directory),
    (["snapshots", "stranger.git", "refs"], .directory), (["cas"], .directory)] := rfl
  intro node hmem
  rw [hnodes] at hmem
  simp only [List.mem_cons, List.not_mem_nil, or_false] at hmem
  rcases hmem with rfl | rfl | rfl | rfl | rfl | rfl
  · exact fun contents hat => by cases hat
  · exact fun contents hat => by cases hat
  · exact fun hat => by cases hat
  · exact fun contents hat => by cases hat
  · exact fun contents hat => by cases hat
  · exact fun contents hat => by cases hat

theorem restores : (restoreBackupAnchorGeneration env "metadata.sqlite" generation).run
    Stopped.freshHome = (.ok ⟨"bg_0", true, 0, 0, true⟩, after) := by
  have hempty : NoAnchor Stopped.freshHome := rfl
  obtain ⟨t, hrun, -⟩ := restore_whole "metadata.sqlite" verify_generation hempty
    fits_anchorNodes fits_dataNodes
  obtain ⟨contents, -, -, hcontents, rfl⟩ := restored_of_run_ok hrun
  cases hcontents
  exact hrun

theorem stranger_restored : after.tree (snapshotsLocation ++ ["stranger.git"]) = some .directory ∧
    (env.git (below (snapshotsLocation ++ ["stranger.git"]) after.tree)).isSome = true := by
  decide

/-- The repository is restored with the others. -/
theorem not_always_restoresExactly :
    ¬∀ (env : BackupEnv) (manifest : BackupAnchorManifest) (generation : Generation)
      (home t : AnchorHome) (targetDb : String) (verification : BackupAnchorVerification)
      (key : RootKey env), generation.manifest = .ok manifest →
        manifest.rootPublicKeyHex = key.hex →
        (∀ source metadata, key.SignedFor manifest source → generation.metadata = some metadata →
          env.NoCollision metadata generation.cas source) →
        (restoreBackupAnchorGeneration env targetDb generation).run home =
          (.ok verification, t) →
        ∀ source, key.SignedFor manifest source → RestoresExactly env manifest source t := by
  intro h
  have hexact := h env manifest generation Stopped.freshHome after "metadata.sqlite" _ key rfl rfl
    noCollision restores source ⟨manifest, ⟨rfl, rfl⟩, rfl⟩
  obtain ⟨repository, hmem, _⟩ :=
    hexact.noFurther ["stranger.git"] stranger_restored.1 stranger_restored.2
  exact absurd hmem List.not_mem_nil

theorem restoresExactly_iff_covered_stranger :
    (∃ source, key.SignedFor manifest source) ∧
      ∀ source, key.SignedFor manifest source →
        (RestoresExactly env manifest source after ↔
          Covered env manifest source generation Stopped.freshHome) :=
  restoresExactly_iff_covered key rfl rfl noCollision restores

end Stranger

end DevRelay.Backup
