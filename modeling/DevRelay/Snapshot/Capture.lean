import DevRelay.Snapshot.Create

/-!
# What a capture records

A capture succeeds exactly on the repositories that `Accepts` describes, and
then records `capturedMetadata`: the commit that is checked out, the tree of
the index, and the tree of the work tree with what the names of the included
paths select.
-/

namespace DevRelay.Snapshot

open DevRelay.Core DevRelay.Git DevRelay.Lib

section

variable (env : CaptureEnv) (manifest : Manifest) (repo : Repository)
  (classified : List ClassifiedPath)

/-- The tree of the work tree, where these names are included. -/
def workTreeOf (add : AddPaths) (repo : Repository) (names : List String) : Files :=
  capturedTree add names repo.index repo.files (repo.ignored repo.files)

def indexCommitOf (headOid : String) : Commit :=
  ⟨repo.indexTree, [headOid], env.commitInfo "DevRelay synthetic index snapshot"⟩

def workCommitOf (names : List String) (indexCommitOid : String) : Commit :=
  ⟨workTreeOf env.add repo names, [indexCommitOid],
    env.commitInfo "DevRelay synthetic work snapshot"⟩

/-- The metadata of a capture under which the untracked paths are classified so. -/
def capturedMetadata : SnapshotMetadata :=
  let status := gitStatus env.objects repo
  let names := includedPaths classified
  let indexCommitOid := env.objects.commitOid (indexCommitOf env repo status.headOid)
  withStateHash env.digest (snapshotMetadata env manifest status repo.indexTree
    (workTreeOf env.add repo names) indexCommitOid
    (env.objects.commitOid (workCommitOf env repo names indexCommitOid)) names
    (excludedPaths classified))

/-- `create_snapshot` accepts the repository, whose untracked paths it classifies so. -/
structure Accepts : Prop where
  operation : repo.operation = none
  head : ∃ oid, repo.headOid = some oid ∧ (env.objects.commitOf oid).isSome
  unmerged : repo.unmerged = []
  lfsObjects : env.lfsObjects = .ok ()
  classifies :
    classifyUntrackedPaths env.classification manifest (untrackedPaths repo) = .ok classified
  added : includedPaths classified ≠ [] →
    env.add.refuses (includedPaths classified) (addUpdate repo.index repo.files) repo.files
      (repo.ignored repo.files) = none
  valid : (capturedMetadata env manifest repo classified).validate = .ok ()

end

variable {env : CaptureEnv} {manifest : Manifest} {repo : Repository}
  {classified : List ClassifiedPath} {m : SnapshotMetadata}

/-! ## The steps of a capture -/

theorem ensureCheckpointSupported_eq_ok {u : Unit} :
    ensureCheckpointSupported repo (gitStatus env.objects repo) = .ok u ↔
      repo.operation = none ∧ (gitStatus env.objects repo).isInitial = false ∧
        repo.unmerged = [] := by
  unfold ensureCheckpointSupported ensureStatusSupportsCheckpoint
  cases repo.operation with
  | some name => simp
  | none =>
    cases (gitStatus env.objects repo).isInitial with
    | true => simp
    | false =>
      have hcount : (gitStatus env.objects repo).counts.unmerged = repo.unmerged.length := rfl
      by_cases hunmerged : repo.unmerged = []
      · simp [hcount, hunmerged]
      · have hpos : 0 < repo.unmerged.length := List.length_pos_of_ne_nil hunmerged
        simp [hcount, hunmerged, hpos]

theorem commitTree_eq_ok {tree : Files} {parentOid message oid : String} :
    commitTree env tree parentOid message = .ok oid ↔
      (env.objects.commitOf parentOid).isSome ∧
        env.objects.commitOid ⟨tree, [parentOid], env.commitInfo message⟩ = oid := by
  unfold commitTree
  cases env.objects.commitOf parentOid with
  | none => simp
  | some commit => simp

theorem writeWorkTree_eq_ok {add : AddPaths} {names : List String} {tree : Files} :
    writeWorkTree add repo names = .ok tree ↔
      (names ≠ [] → add.refuses names (addUpdate repo.index repo.files) repo.files
        (repo.ignored repo.files) = none) ∧ workTreeOf add repo names = tree := by
  unfold writeWorkTree workTreeOf capturedTree
  by_cases hnames : names = []
  · simp [hnames]
  · cases hrefuses : add.refuses names (addUpdate repo.index repo.files) repo.files
      (repo.ignored repo.files) with
    | none => simp [hnames, hrefuses]
    | some stderr => simp [hnames, hrefuses]

/-- What names a commit is not the placeholder of a repository without one. -/
theorem isInitial_of_resolves {oid : String} (hhead : repo.headOid = some oid)
    (hcommit : (env.objects.commitOf oid).isSome) :
    (gitStatus env.objects repo).isInitial = false := by
  obtain ⟨commit, hcommit⟩ := Option.isSome_iff_exists.mp hcommit
  have hdigits := env.objects.commitOf_digits oid commit hcommit
  have hstatus : (gitStatus env.objects repo).headOid = oid := by
    change repo.headOid.getD "(initial)" = oid
    rw [hhead, Option.getD_some]
  unfold GitStatus.isInitial
  rw [hstatus]
  apply decide_eq_false
  intro heq
  rw [heq] at hdigits
  exact absurd hdigits (by decide)

/-- A capture records the metadata of a repository that is accepted, and no other. -/
theorem captureSnapshot_eq_ok :
    captureSnapshot env manifest repo = .ok m ↔
      ∃ classified, Accepts env manifest repo classified ∧
        m = capturedMetadata env manifest repo classified := by
  unfold captureSnapshot
  simp only [bind_eq_ok_iff, ensureCheckpointSupported_eq_ok, commitTree_eq_ok, writeWorkTree_eq_ok]
  constructor
  · rintro ⟨_, ⟨hoperation, hinitial, hunmerged⟩, _, hlfs, classified, hclassified, indexOid,
      ⟨hindexParent, hindexOid⟩, tree, ⟨hadded, htree⟩, workOid, ⟨hworkParent, hworkOid⟩, _,
      hvalid, hm⟩
    subst hindexOid htree hworkOid
    refine ⟨classified, ?_, ?_⟩
    · have hhead : ∃ oid, repo.headOid = some oid ∧ (env.objects.commitOf oid).isSome := by
        change (env.objects.commitOf (repo.headOid.getD "(initial)")).isSome at hindexParent
        cases hhead : repo.headOid with
        | none =>
          have hstatus : (gitStatus env.objects repo).headOid = "(initial)" := by
            change repo.headOid.getD "(initial)" = "(initial)"
            rw [hhead, Option.getD_none]
          unfold GitStatus.isInitial at hinitial
          rw [hstatus] at hinitial
          cases hinitial
        | some oid =>
          rw [hhead] at hindexParent
          exact ⟨oid, rfl, hindexParent⟩
      exact ⟨hoperation, hhead, hunmerged, hlfs, hclassified, hadded, hvalid⟩
    · exact (Except.ok.inj hm).symm
  · rintro ⟨classified, h, rfl⟩
    obtain ⟨oid, hhead, hcommit⟩ := h.head
    have hparent : (env.objects.commitOf (gitStatus env.objects repo).headOid).isSome := by
      change (env.objects.commitOf (repo.headOid.getD "(initial)")).isSome
      rw [hhead]
      exact hcommit
    have hinitial := isInitial_of_resolves hhead hcommit
    refine ⟨(), ⟨h.operation, hinitial, h.unmerged⟩, (), h.lfsObjects, classified,
      h.classifies, _, ⟨hparent, rfl⟩, _, ⟨h.added, rfl⟩, _, ⟨?_, rfl⟩, (), h.valid, rfl⟩
    rw [env.objects.commitOf_commitOid]
    rfl

/-! ## The fields of the metadata -/

namespace Accepts

theorem headOid (h : Accepts env manifest repo classified) :
    repo.headOid = some (capturedMetadata env manifest repo classified).headOid := by
  obtain ⟨oid, hhead, -⟩ := h.head
  change repo.headOid = some (repo.headOid.getD "(initial)")
  rw [hhead, Option.getD_some]

theorem resolves (h : Accepts env manifest repo classified) :
    (env.objects.commitOf (capturedMetadata env manifest repo classified).headOid).isSome := by
  obtain ⟨oid, hhead, hcommit⟩ := h.head
  have hself := h.headOid
  rw [hhead] at hself
  rw [← Option.some.inj hself]
  exact hcommit

end Accepts

theorem commitOf_indexCommitOid :
    env.objects.commitOf (capturedMetadata env manifest repo classified).indexCommitOid =
      some (indexCommitOf env repo (capturedMetadata env manifest repo classified).headOid) :=
  env.objects.commitOf_commitOid _

theorem commitOf_workCommitOid :
    env.objects.commitOf (capturedMetadata env manifest repo classified).workCommitOid =
      some (workCommitOf env repo (includedPaths classified)
        (capturedMetadata env manifest repo classified).indexCommitOid) :=
  env.objects.commitOf_commitOid _

/-! ## The metadata is valid -/

theorem isAsciiHexdigit_of_isLowerHexdigit {c : Char} (h : isLowerHexdigit c = true) :
    isAsciiHexdigit c = true := by
  unfold isLowerHexdigit at h
  unfold isAsciiHexdigit
  rw [h, Bool.true_or]

/-- The id that is made of a digest is well formed. -/
theorem isValidSnapshotId_snapshotId (digest : Blake3) (status : GitStatus)
    (indexTreeOid workTreeOid : String) (unixNanos : ByteArray) :
    isValidSnapshotId (snapshotId digest status indexTreeOid workTreeOid unixNanos) = true := by
  have hdigits : ∀ bytes, snapshotIdPrefix.toList.isPrefixOf?
      (snapshotIdPrefix ++ String.ofList ((digest.hex bytes).toList.take 24)).toList =
        some ((digest.hex bytes).toList.take 24) := by
    intro bytes
    rw [String.toList_append, String.toList_ofList]
    simp [snapshotIdPrefix, List.isPrefixOf?]
  have hlength : ∀ bytes, ((digest.hex bytes).toList.take 24).length = snapshotIdHexLen := by
    intro bytes
    rw [List.length_take, digest.hex_length]
    rfl
  have hhex : ∀ bytes, ((digest.hex bytes).toList.take 24).all isAsciiHexdigit = true := by
    intro bytes
    rw [List.all_eq_true]
    intro c hc
    apply isAsciiHexdigit_of_isLowerHexdigit
    exact List.all_eq_true.mp (digest.hex_digits bytes) c (List.mem_of_mem_take hc)
  unfold isValidSnapshotId snapshotId
  rw [hdigits]
  simp only [hlength, hhex, decide_true, Bool.and_true]

theorem validate_capturedMetadata (hproject : manifest.projectId ≠ "")
    (hname : manifest.name ≠ "") (hhead : (gitStatus env.objects repo).headOid ≠ "")
    (hcommits : ∀ commit, env.objects.commitOid commit ≠ "") :
    (capturedMetadata env manifest repo classified).validate = .ok () := by
  have hid : isValidSnapshotId (capturedMetadata env manifest repo classified).snapshotId =
      true := isValidSnapshotId_snapshotId ..
  have hhash : ∀ bytes, env.digest.hex bytes ≠ "" := by
    intro bytes h
    have hlength := env.digest.hex_length bytes
    rw [h] at hlength
    cases hlength
  have hfields : requireNonEmpty [
      ("project_id", manifest.projectId), ("project_name", manifest.name),
      ("head_oid", (gitStatus env.objects repo).headOid),
      ("index_tree_oid", env.objects.treeOid repo.indexTree),
      ("index_commit_oid", (capturedMetadata env manifest repo classified).indexCommitOid),
      ("work_tree_oid", (capturedMetadata env manifest repo classified).workTreeOid),
      ("work_commit_oid", (capturedMetadata env manifest repo classified).workCommitOid),
      ("state_hash", (capturedMetadata env manifest repo classified).stateHash)] = .ok () := by
    rw [requireNonEmpty_eq_ok]
    simp only [List.forall_mem_cons]
    exact ⟨hproject, hname, hhead, env.objects.treeOid_ne_empty _, hcommits _,
      env.objects.treeOid_ne_empty _, hcommits _, hhash _, nofun⟩
  unfold SnapshotMetadata.validate
  simp only [hid]
  exact bind_eq_ok.mpr ⟨hfields, rfl⟩

/-- A path in the work tree of a capture has the file that is on the disk. -/
theorem find?_workTreeOf {add : AddPaths} {names : List String} {path : String} :
    (workTreeOf add repo names).find? path =
      if tracked repo.index path ||
          (names ≠ [] && add.selects names (untrackedPaths repo) path &&
            !repo.ignored repo.files path) then
        repo.files.find? path
      else none :=
  find?_capturedTree

/-- The references and the metadata that `create_snapshot` leaves. -/
theorem run_createSnapshot_ok {repo' : Repository} :
    (createSnapshot env manifest).run repo = (.ok m, repo') ↔
      captureSnapshot env manifest repo = .ok m ∧
        repo' = updateRef m.workRef m.workCommitOid
          (updateRef m.indexRef m.indexCommitOid repo) := by
  unfold createSnapshot
  simp only [Prog.run_query_bind, Prog.run_ofExcept_bind_ok, Prog.run_write_bind, Prog.run_pure_ok]
  constructor
  · rintro ⟨captured, hcaptured, rfl, rfl⟩
    exact ⟨hcaptured, rfl⟩
  · rintro ⟨hcaptured, rfl⟩
    exact ⟨m, hcaptured, rfl, rfl⟩

end DevRelay.Snapshot
