import DevRelay.Secrets.Materialize

/-!
# Secret files are kept out of snapshots

The target of a file secret is used twice: as the path that is written, and as a
pattern for the paths that `git` reports.  The file system drops `.` and repeated
separators and follows links; the pattern is matched as it is spelled.
-/

namespace DevRelay.Secrets

open DevRelay.Lib DevRelay.Core DevRelay.Journal

/-- Characters of a class or of alternatives. -/
def globGroups : List Char := ['[', ']', '{', '}']

/-- Characters that are not themselves in a pattern. -/
def globSpecials : List Char := '?' :: '*' :: '\\' :: globGroups

/-- What the code relies on of the `globset` crate. -/
structure GlobLibrary where
  build : List String → Except DevRelayError (String → Bool)
  /-- whether a pattern matches a path -/
  isMatch : String → String → Bool
  build_any : ∀ patterns matcher, build patterns = .ok matcher →
    ∀ path, matcher path = patterns.any fun pattern => isMatch pattern path
  /-- `?` and `*` match themselves, among others -/
  self : ∀ pattern, (∀ c ∈ pattern.toList, c ∉ '\\' :: globGroups) →
    isMatch pattern pattern = true
  literal : ∀ pattern path, (∀ c ∈ pattern.toList, c ∉ globSpecials) →
    isMatch pattern path = decide (path = pattern)

def classification (glob : GlobLibrary) (probes : PathProbes) : ClassificationEnv where
  probes := probes
  buildGlobset := glob.build
  secretHardExcludePatterns := secretHardExcludePatterns

/-! ## The classification of one path -/

variable {glob : GlobLibrary} {probes : PathProbes} {manifest : Manifest} {path : String}

/-- Whatever the checks in front find, a path that is excluded by a pattern is not included. -/
theorem classifyOne_exclude {context : ClassificationContext}
    (h : context.exclude path = true) : (classifyOne context path).decision = .exclude := by
  unfold classifyOne
  cases secretPathReason path with
  | some reason => rfl
  | none =>
    cases context.userSecretPaths path with
    | true => rfl
    | false =>
      cases context.probes.reparsePoint path with
      | true => rfl
      | false =>
        cases context.probes.symlinkTargetEscapes path with
        | true => rfl
        | false =>
          cases context.probes.secretContentReason context.scanner path with
          | some reason => rfl
          | none =>
            rw [h]
            rfl

/-- The patterns of a classification are those of the manifest, the defaults, and the targets
of the secrets. -/
theorem exclude_of_classificationContext {context : ClassificationContext}
    (h : classificationContext (classification glob probes) manifest = .ok context)
    (path : String) :
    context.exclude path = (manifest.workspace.exclude.patterns ++ defaultExcludePatterns ++
      secretHardExcludePatterns manifest).any fun pattern => glob.isMatch pattern path := by
  obtain ⟨exclude, hexclude, h⟩ := bind_eq_ok_iff.mp h
  obtain ⟨«include», -, h⟩ := bind_eq_ok_iff.mp h
  obtain ⟨userSecretPaths, -, h⟩ := bind_eq_ok_iff.mp h
  cases h
  exact glob.build_any _ _ hexclude path

/-- A path that the target of a secret matches is excluded. -/
theorem classify_exclude_of_secret {context : ClassificationContext} {pattern : String}
    (h : classificationContext (classification glob probes) manifest = .ok context)
    (hpattern : pattern ∈ secretHardExcludePatterns manifest)
    (hmatch : glob.isMatch pattern path = true) :
    (classifyOne context path).decision = .exclude := by
  apply classifyOne_exclude
  rw [exclude_of_classificationContext h, List.any_append, Bool.or_eq_true]
  exact Or.inr (List.any_eq_true.mpr ⟨pattern, hpattern, hmatch⟩)

/-! ## The patterns of the secrets -/

theorem normalizeSecretTarget_eq_ok {target relative : String} :
    normalizeSecretTarget target = .ok relative ↔
      isBlank target = false ∧ isAbsolute target = false ∧
        (∀ component ∈ components target, component ≠ .parentDir ∧ component ≠ .rootDir) ∧
        relative = target := by
  unfold normalizeSecretTarget
  split
  · rename_i hbad
    simp only [reduceCtorEq, false_iff]
    rintro ⟨hblank, habsolute, hplain, -⟩
    rw [hblank, habsolute, Bool.false_or, Bool.false_or, List.any_eq_true] at hbad
    obtain ⟨component, hmem, hcomponent⟩ := hbad
    have hne := hplain component hmem
    simp [hne.1, hne.2] at hcomponent
  · rename_i hgood
    simp only [Bool.not_eq_true, Bool.or_eq_false_iff, List.any_eq_false] at hgood
    obtain ⟨⟨hblank, habsolute⟩, hplain⟩ := hgood
    constructor
    · intro h
      cases h
      refine ⟨hblank, habsolute, ?_, rfl⟩
      intro component hmem
      simpa using hplain component hmem
    · rintro ⟨-, -, -, rfl⟩
      rfl

/-- A secret whose file is written to the target. -/
def FileSecret (manifest : Manifest) (target : String) : Prop :=
  ∃ secret ∈ manifest.secrets.values, secret.mode = .file ∧ secret.target = target ∧
    normalizeSecretTarget target = .ok target

theorem mem_secretHardExcludePatterns {pattern : String} :
    pattern ∈ secretHardExcludePatterns manifest ↔
      ∃ target, FileSecret manifest target ∧ normalizeRepoPath target = pattern := by
  unfold secretHardExcludePatterns
  simp only [List.mem_map, List.mem_filterMap, List.mem_filter]
  constructor
  · rintro ⟨relative, ⟨secret, ⟨hsecret, hmode⟩, hrelative⟩, rfl⟩
    cases hok : normalizeSecretTarget secret.target with
    | error e =>
      rw [hok] at hrelative
      cases hrelative
    | ok target =>
      rw [hok] at hrelative
      cases hrelative
      obtain ⟨-, -, -, rfl⟩ := normalizeSecretTarget_eq_ok.mp hok
      exact ⟨secret.target, ⟨secret, hsecret, of_decide_eq_true hmode, rfl, hok⟩, rfl⟩
  · rintro ⟨target, ⟨secret, hsecret, hmode, rfl, hok⟩, rfl⟩
    refine ⟨secret.target, ⟨secret, ⟨hsecret, decide_eq_true hmode⟩, ?_⟩, rfl⟩
    rw [hok]
    rfl

/-! ## The files that are written -/

theorem plain_of_normalizeSecretTarget {target relative : String}
    (h : normalizeSecretTarget target = .ok relative) : ∃ names, Plain (steps target) names := by
  obtain ⟨-, -, hplain, -⟩ := normalizeSecretTarget_eq_ok.mp h
  apply exists_plain
  intro component hmem
  have hcomponent := hplain component (List.mem_filter.mp hmem).1
  have hcur : component ≠ .curDir := by
    rintro rfl
    exact curDir_notMem_steps target hmem
  cases component with
  | rootDir => exact absurd rfl hcomponent.2
  | curDir => exact absurd rfl hcur
  | parentDir => exact absurd rfl hcomponent.1
  | normal name => exact ⟨name, rfl⟩

/-- What the materialization keeps, from a tree to the workspace it leaves: every file was
written for a file secret, and where the target says unless there is a link on the way. -/
structure Materialized (manifest : Manifest) (root : Location) (before : FileTree)
    (workspace : Workspace) : Prop where
  fold : workspace.tree.fold = before.fold
  links : before.NoNewLinks workspace.tree
  secrets : ∀ entry ∈ workspace.written, FileSecret manifest entry.1
  located : ∀ entry ∈ workspace.written, ∃ names, Plain (steps entry.1) names ∧
    (before.NoLinkOn root names → entry.2 = root ++ names.map before.fold)

section Run

variable {rootPath : String} {root : Location} {localConfig : SecretProviderLocalConfig}
  {provider : SecretProvider} {before tree : FileTree} {workspace : Workspace}

theorem Materialized.withTree (h : Materialized manifest root before workspace)
    (hfold : tree.fold = before.fold) (hlinks : before.NoNewLinks tree) :
    Materialized manifest root before { workspace with tree } :=
  ⟨hfold, hlinks, h.secrets, h.located⟩

theorem Materialized.wrote {target : String} {location : Location} {contents : List UInt8}
    (h : Materialized manifest root before workspace) (hsecret : FileSecret manifest target)
    (hwritable : workspace.tree.writable? root (steps target) = some location) :
    Materialized manifest root before {
      tree := workspace.tree.writeAt location contents
      written := workspace.written ++ [(target, location)] } := by
  refine ⟨?_, h.links.writeAt, ?_, ?_⟩
  · rw [← h.fold]
    unfold FileTree.writeAt
    split
    · rfl
    · rfl
  · intro entry hentry
    rcases List.mem_append.mp hentry with hold | hnew
    · exact h.secrets entry hold
    · rw [List.mem_singleton.mp hnew]
      exact hsecret
  · intro entry hentry
    rcases List.mem_append.mp hentry with hold | hnew
    · exact h.located entry hold
    · rw [List.mem_singleton.mp hnew]
      obtain ⟨secret, -, -, -, hok⟩ := hsecret
      obtain ⟨names, hnames⟩ := plain_of_normalizeSecretTarget hok
      refine ⟨names, hnames, ?_⟩
      intro hway
      have hlocate : workspace.tree.locate root (steps target) = some location := by
        unfold FileTree.writable? at hwritable
        split at hwritable
        · cases hwritable
        · rename_i found hfound
          split at hwritable
          · rw [hfound, Option.some_inj.mp hwritable]
          · rw [hfound, Option.some_inj.mp hwritable]
          · cases hwritable
      rw [FileTree.locate_of_noLinkOn (hway.of_noNewLinks h.links h.fold) hnames hlocate, h.fold]

theorem writeSecretFile_ensures {target value : String} (hsecret : FileSecret manifest target)
    (h : Materialized manifest root before workspace) :
    (writeSecretFile root target value).Ensures (Materialized manifest root before)
      (fun _ _ => True) workspace := by
  unfold writeSecretFile onTree
  apply Prog.ensures_bind h
  · apply Prog.ensures_within (J := fun tree => tree.fold = before.fold ∧
      before.NoNewLinks tree)
    · exact fun _ _ => rfl
    · intro tree workspace htree hkept
      exact hkept.withTree htree.1 htree.2
    · exact h
    · apply FileTree.createDirAll_ensures
      · intro here name tree made htree hmade
        refine ⟨?_, FileTree.NoNewLinks.makeDir? htree.2 hmade⟩
        rw [FileTree.fold_makeDir? hmade, htree.1]
      · exact ⟨h.fold, h.links⟩
  · intro _ made hmade _
    apply Prog.ensures_query_bind hmade
    apply Prog.ensures_orFail_bind
    intro location hlocation
    split at hlocation
    · cases hlocation
    · have hwritten := @Materialized.wrote _ _ _ _ _ _ value.toUTF8.toList hmade hsecret hlocation
      apply Prog.ensures_write_bind hwritten
      refine ⟨hwritten.withTree ?_ hwritten.links.setMode, trivial⟩
      rw [FileTree.fold_setMode, hwritten.fold]

theorem materializeSecret_ensures {secretName : String} {secret : SecretConfig}
    {report : SecretMaterializationReport} (hsecret : secret ∈ manifest.secrets.values)
    (h : Materialized manifest root before workspace) :
    (materializeSecret rootPath root localConfig provider secretName secret report).Ensures
      (Materialized manifest root before) (fun _ _ => True) workspace := by
  unfold materializeSecret
  apply Prog.ensures_ofExcept_bind
  intro value _
  cases value with
  | none =>
    apply Prog.ensures_ofExcept
    intro _ _
    trivial
  | some value =>
    dsimp only
    split
    · rename_i hmode
      apply Prog.ensures_ofExcept_bind
      intro relative hrelative
      obtain ⟨-, -, -, rfl⟩ := normalizeSecretTarget_eq_ok.mp hrelative
      have hfile : FileSecret manifest secret.target :=
        ⟨secret, hsecret, hmode, rfl, hrelative⟩
      apply Prog.ensures_bind h (writeSecretFile_ensures hfile h)
      intro _ _ _ _
      exact Prog.ensures_pure trivial
    · exact Prog.ensures_pure trivial

theorem materializeSecrets_ensures (entries : List (String × SecretConfig))
    (report : SecretMaterializationReport)
    (hentries : ∀ entry ∈ entries, entry.2 ∈ manifest.secrets.values)
    (h : Materialized manifest root before workspace) :
    (materializeSecrets rootPath root localConfig provider entries report).Ensures
      (Materialized manifest root before) (fun _ _ => True) workspace := by
  induction entries generalizing workspace report with
  | nil => exact Prog.ensures_pure trivial
  | cons entry rest ih =>
    unfold materializeSecrets
    apply Prog.ensures_bind h
      (materializeSecret_ensures (hentries entry List.mem_cons_self) h)
    intro report' next hnext _
    exact ih report' (fun other hother => hentries other (List.mem_cons_of_mem _ hother)) hnext

/-- Wherever the materialization stops. -/
theorem materialized (fault : Fault DevRelayError) (tree : FileTree) :
    Materialized manifest root tree ((materializeProjectSecrets rootPath root localConfig
      provider manifest).exec fault 0 ⟨tree, []⟩).2 := by
  have hstart : Materialized manifest root tree ⟨tree, []⟩ := by
    refine ⟨rfl, fun _ _ hlink => hlink, ?_, ?_⟩
    · intro entry hentry
      cases hentry
    · intro entry hentry
      cases hentry
  refine Prog.exec_ensures (Q := fun _ _ => True) fault 0 _ _ hstart ?_
  apply materializeSecrets_ensures _ _ _ hstart
  intro entry hentry
  exact List.mem_map_of_mem hentry

end Run

/-- The path that `git` reports for names below the workspace. -/
def gitPath (names : List String) : String := "/".intercalate names

/-- The path leads to its own location only: no name of it is a link, and the file system
knows it under no other spelling. -/
structure Straight (tree : FileTree) (root : Location) (names : List String) : Prop where
  noLink : tree.NoLinkOn root names
  apart : ∀ other : List String, other.map tree.fold = names.map tree.fold → other = names

/-- The target is spelled as `git` reports the file that is written to it. -/
structure SpelledAsReported (tree : FileTree) (root : Location) (target : String) : Prop where
  straight : ∀ names, Plain (steps target) names → Straight tree root names
  /-- no `.`, and one separator between two names -/
  spelled : ∀ names, Plain (steps target) names → target = gitPath names
  /-- no class and no alternatives -/
  plain : ∀ c ∈ target.toList, c ∉ globGroups

section Written

variable {rootPath : String} {root location : Location} {localConfig : SecretProviderLocalConfig}
  {provider : SecretProvider} {fault : Fault DevRelayError} {tree : FileTree} {target : String}
  {names : List String}

/-- On a straight path the names that `git` reports are those of the target. -/
theorem plain_of_written
    (hstraight : ∀ names, Plain (steps target) names → Straight tree root names)
    (hwritten : (target, location) ∈ ((materializeProjectSecrets rootPath root localConfig
      provider manifest).exec fault 0 ⟨tree, []⟩).2.written)
    (hreported : location = root ++ names.map tree.fold) : Plain (steps target) names := by
  obtain ⟨spelled, hspelled, hlocation⟩ := (materialized fault tree).located _ hwritten
  have hway := hstraight spelled hspelled
  have hsame := hreported.symm.trans (hlocation hway.noLink)
  rw [hway.apart names (List.append_cancel_left hsame)]
  exact hspelled

/-- A target without special characters covers its own file exactly when it is spelled as `git`
reports it. -/
theorem own_pattern_iff
    (hstraight : ∀ names, Plain (steps target) names → Straight tree root names)
    (hliteral : ∀ c ∈ target.toList, c ∉ globSpecials)
    (hwritten : (target, location) ∈ ((materializeProjectSecrets rootPath root localConfig
      provider manifest).exec fault 0 ⟨tree, []⟩).2.written)
    (hreported : location = root ++ names.map tree.fold) :
    Plain (steps target) names ∧
      (glob.isMatch (normalizeRepoPath target) (normalizeRepoPath (gitPath names)) = true ↔
        normalizeRepoPath (gitPath names) = target) := by
  have hbackslash : '\\' ∉ target.toList := by
    intro hmem
    exact hliteral _ hmem (by decide)
  refine ⟨plain_of_written hstraight hwritten hreported, ?_⟩
  rw [normalizeRepoPath_eq_self.mpr hbackslash, glob.literal target _ hliteral, decide_eq_true_eq]

end Written

/-- As a pattern a target without classes and alternatives matches its own spelling. -/
theorem isMatch_self {target : String} (h : ∀ c ∈ target.toList, c ∉ globGroups) :
    glob.isMatch (normalizeRepoPath target) (normalizeRepoPath target) = true := by
  apply glob.self
  intro c hc hspecial
  rw [normalizeRepoPath, String.toList_ofList] at hc
  obtain ⟨spelled, hmem, rfl⟩ := List.mem_map.mp hc
  split at hspecial
  · exact absurd hspecial (by decide)
  · rename_i hback
    rcases List.mem_cons.mp hspecial with heq | hgroup
    · exact hback heq
    · exact h spelled hmem hgroup

/-- A secret file is kept out of the snapshot where its target is spelled as `git` reports it. -/
theorem written_excluded_of_spelled (glob : GlobLibrary) (probes : PathProbes)
    (manifest : Manifest) (rootPath : String) (root : Location)
    (localConfig : SecretProviderLocalConfig) (provider : SecretProvider)
    (fault : Fault DevRelayError) (tree : FileTree) (target : String) (location : Location)
    (names paths : List String) (classified : List ClassifiedPath) (result : ClassifiedPath)
    (hspelled : SpelledAsReported tree root target)
    (hwritten : (target, location) ∈ ((materializeProjectSecrets rootPath root localConfig
      provider manifest).exec fault 0 ⟨tree, []⟩).2.written)
    (hreported : location = root ++ names.map tree.fold)
    (hclassified : classifyUntrackedPaths (classification glob probes) manifest paths =
      .ok classified)
    (hresult : result ∈ classified) (hpath : result.path = normalizeRepoPath (gitPath names)) :
    result.decision = .exclude := by
  have hsecret : FileSecret manifest target := (materialized fault tree).secrets _ hwritten
  have hnames := plain_of_written hspelled.straight hwritten hreported
  obtain ⟨context, hcontext, h⟩ := bind_eq_ok_iff.mp hclassified
  cases h
  obtain ⟨path, -, rfl⟩ := List.mem_map.mp hresult
  rw [classifyOne_path, ← hspelled.spelled names hnames] at hpath
  rw [hpath]
  exact classify_exclude_of_secret hcontext
    (mem_secretHardExcludePatterns.mpr ⟨target, hsecret, rfl⟩) (isMatch_self hspelled.plain)

/-! ## A leading dot -/

def equalGlobs : GlobLibrary where
  build patterns := .ok fun path => patterns.any fun pattern => path = pattern
  isMatch pattern path := path = pattern
  build_any patterns matcher h path := by
    cases h
    rfl
  self _ _ := decide_eq_true rfl
  literal _ _ _ := rfl

def silentProbes : PathProbes where
  reparsePoint _ := false
  symlinkTargetEscapes _ := false
  secretContentReason _ _ := none
  exceedsThreshold _ _ := false

/-- One secret, written to the target. -/
def tokenManifest (target : String) : Manifest where
  schema := 1
  projectId := "12345678"
  name := "demo"
  workspace := {
    untracked := .safe
    largeFileThresholdMib := 32
    exclude := ⟨[]⟩
    «include» := ⟨[]⟩
    secretScanner := ⟨[], [], []⟩ }
  environment := none
  secrets := .singleton "token" { target }
  tasks := .empty

def tokenConfig : SecretProviderLocalConfig :=
  ⟨.singleton "token" ⟨.onePasswordCli, "op://vault/token", []⟩⟩

/-- The workspace is an empty directory. -/
def emptyWorkspace : FileTree where
  node location := if location = ["work"] then some .directory else none
  fold := id

def tokenProvider : SecretProvider := fun _ => .ok (some "value")

def includedToken : ClassifiedPath := included "config/token" ClassificationReason.safeUntracked

/-- `./` in front of the path. -/
def dottedManifest : Manifest := tokenManifest "./config/token"

theorem dottedManifest_accepted : dottedManifest.validate = .ok () := by decide

theorem written_token : ("./config/token", ["work", "config", "token"]) ∈
    ((materializeProjectSecrets "/work" ["work"] tokenConfig tokenProvider
      dottedManifest).exec noFault 0 ⟨emptyWorkspace, []⟩).2.written := by
  decide

theorem classified_token :
    classifyUntrackedPaths (classification equalGlobs silentProbes) dottedManifest
      ["config/token"] = .ok [includedToken] := by
  decide

theorem written_secret_is_included : ¬∀ (glob : GlobLibrary) (probes : PathProbes)
    (manifest : Manifest) (rootPath : String) (root : Location)
    (localConfig : SecretProviderLocalConfig) (provider : SecretProvider)
    (fault : Fault DevRelayError) (tree : FileTree) (target : String) (location : Location)
    (names paths : List String) (classified : List ClassifiedPath) (result : ClassifiedPath),
    manifest.validate = .ok () →
    (target, location) ∈ ((materializeProjectSecrets rootPath root localConfig provider
      manifest).exec fault 0 ⟨tree, []⟩).2.written →
    location = root ++ names.map tree.fold →
    classifyUntrackedPaths (classification glob probes) manifest paths = .ok classified →
    result ∈ classified → result.path = normalizeRepoPath (gitPath names) →
      result.decision = .exclude := by
  intro hall
  have hexcluded := hall _ _ _ _ _ _ _ _ _ _ _ ["config", "token"] _ _ includedToken
    dottedManifest_accepted written_token rfl classified_token List.mem_cons_self
    (by decide)
  cases hexcluded

/-- `*` in a name is no exception. -/
def starredManifest : Manifest := tokenManifest "config/*.token"

def excludedToken : ClassifiedPath :=
  excluded "config/*.token" ClassificationReason.manifestOrGeneratedExclude

theorem plain_starred {names : List String} (h : Plain (steps "config/*.token") names) :
    names = ["config", "*.token"] := by
  have hsteps : steps "config/*.token" = ["config", "*.token"].map .normal := by decide
  rw [hsteps] at h
  exact (List.map_injective_iff.mpr (fun _ _ heq => Component.normal.inj heq) h).symm

theorem spelledAsReported_starred :
    SpelledAsReported emptyWorkspace ["work"] "config/*.token" where
  straight names hnames := by
    rw [plain_starred hnames]
    exact ⟨⟨nofun, nofun, trivial⟩, fun other hother => by simpa [emptyWorkspace] using hother⟩
  spelled names hnames := by
    rw [plain_starred hnames]
    decide
  plain c hc := by
    have hplain : "config/*.token".toList.all (fun c => !globGroups.contains c) = true := by
      decide
    simpa using List.all_eq_true.mp hplain c hc

theorem written_excluded_of_spelled_starred : excludedToken.decision = .exclude :=
  written_excluded_of_spelled equalGlobs silentProbes starredManifest "/work" ["work"] tokenConfig
    tokenProvider noFault emptyWorkspace "config/*.token" ["work", "config", "*.token"]
    ["config", "*.token"] ["config/*.token"] [excludedToken] excludedToken
    spelledAsReported_starred (by decide) rfl (by decide) List.mem_cons_self (by decide)

end DevRelay.Secrets
