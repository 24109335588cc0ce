import DevRelay.Core.SnapshotSchema
import DevRelay.Manifest.Schema

/-!
# Classification of untracked paths

`policy.rs`: which untracked paths a snapshot may carry.  What the classification
reads from the disk, the scan of a file's content included, and the compiled
glob sets are parameters; the order of the checks decides the reason.
-/

namespace DevRelay.Core

namespace ClassificationReason

def secretFilename : String := "secret-filename"
def sshCredentialPath : String := "ssh-credential-path"
def privateKeyFilename : String := "private-key-filename"
def userSecretScanner : String := "user-secret-scanner"
def windowsReparsePoint : String := "windows-reparse-point"
def symlinkTargetOutsideWorkspace : String := "symlink-target-outside-workspace"
def manifestOrGeneratedExclude : String := "manifest-or-generated-exclude"
def largeFileThreshold : String := "large-file-threshold"
def manifestUntrackedNone : String := "manifest-untracked-none"
def safeUntracked : String := "safe-untracked"
def manifestInclude : String := "manifest-include"
def manifestUntrackedExplicit : String := "manifest-untracked-explicit"

end ClassificationReason

/-- `path.replace('\\', "/")` -/
def normalizeRepoPath (path : String) : String :=
  String.ofList (path.toList.map fun c => if c = '\\' then '/' else c)

def toAsciiLowercase (path : String) : String :=
  String.ofList (path.toList.map fun c =>
    if 'A' ≤ c ∧ c ≤ 'Z' then Char.ofNat (c.toNat + 32) else c)

/-- The part after the last slash. -/
def basename (path : String) : List Char :=
  (path.toList.reverse.takeWhile fun c => c ≠ '/').reverse

def startsWith (text : List Char) (word : String) : Bool := word.toList.isPrefixOf text

def endsWith (text : List Char) (word : String) : Bool := word.toList.isSuffixOf text

def containsWord (text : List Char) (word : String) : Bool :=
  text.tails.any fun tail => startsWith tail word

def isSecretFilename (name : List Char) : Bool :=
  String.ofList name = ".env" || startsWith name ".env." ||
    [".npmrc", ".pypirc", ".netrc", "auth.json", "credentials", "credentials.json",
      "secret.json", "secrets.json", "service-account.json"].contains (String.ofList name) ||
    [".secret", ".secrets", ".credentials", ".p12", ".pfx", ".jks", ".keystore", ".kdbx",
      ".age", ".gpg"].any (endsWith name) ||
    ["firebase-adminsdk", "service_account", "service-account", "client-secret",
      "client_secret"].any (containsWord name)

def isSshPath (normalized : String) : Bool :=
  normalized = ".ssh" || startsWith normalized.toList ".ssh/" ||
    containsWord normalized.toList "/.ssh/"

def isPrivateKeyFilename (name : List Char) : Bool :=
  endsWith name ".pem" || endsWith name ".key" ||
    ["id_rsa", "id_ed25519", "id_ecdsa", "id_dsa", "id_xmss", "id_ed25519_sk",
      "id_ecdsa_sk"].contains (String.ofList name)

def secretPathReason (path : String) : Option String :=
  let normalized := toAsciiLowercase (normalizeRepoPath path)
  let name := basename normalized
  if isSecretFilename name then some ClassificationReason.secretFilename
  else if isSshPath normalized then some ClassificationReason.sshCredentialPath
  else if isPrivateKeyFilename name then some ClassificationReason.privateKeyFilename
  else
    none

/-- What the classification finds on the disk under a path; nothing under a path that
does not exist. -/
structure PathProbes where
  reparsePoint : String → Bool
  symlinkTargetEscapes : String → Bool
  /-- `secret_content_reason`, with the patterns of the scanner -/
  secretContentReason : SecretScannerConfig → String → Option String
  /-- a regular file of more bytes than the threshold -/
  exceedsThreshold : UInt64 → String → Bool

structure ClassificationContext where
  probes : PathProbes
  policy : UntrackedPolicy
  exclude : String → Bool
  «include» : String → Bool
  scanner : SecretScannerConfig
  userSecretPaths : String → Bool
  thresholdBytes : UInt64

def included (path reason : String) : ClassifiedPath := ⟨path, .include, reason⟩

def excluded (path reason : String) : ClassifiedPath := ⟨path, .exclude, reason⟩

def classifyByPolicy (context : ClassificationContext) (path : String) : ClassifiedPath :=
  match context.policy with
  | .none => excluded path ClassificationReason.manifestUntrackedNone
  | .safe => included path ClassificationReason.safeUntracked
  | .allNonignored => included path ClassificationReason.safeUntracked
  | .explicit =>
    if context.include path then included path ClassificationReason.manifestInclude
    else excluded path ClassificationReason.manifestUntrackedExplicit

def classifyOne (context : ClassificationContext) (path : String) : ClassifiedPath :=
  match secretPathReason path with
  | some reason => excluded path reason
  | none =>
    if context.userSecretPaths path then
      excluded path ClassificationReason.userSecretScanner
    else if context.probes.reparsePoint path then
      excluded path ClassificationReason.windowsReparsePoint
    else if context.probes.symlinkTargetEscapes path then
      excluded path ClassificationReason.symlinkTargetOutsideWorkspace
    else
      match context.probes.secretContentReason context.scanner path with
      | some reason => excluded path reason
      | none =>
        if context.exclude path then
          excluded path ClassificationReason.manifestOrGeneratedExclude
        else if context.probes.exceedsThreshold context.thresholdBytes path then
          excluded path ClassificationReason.largeFileThreshold
        else
          classifyByPolicy context path

def defaultExcludePatterns : List String :=
  ["node_modules/**", ".venv/**", "target/**", "dist/**", ".next/**", "*.sqlite-wal", "*.pid",
    "*.sock", "*.lock"]

/-- What the classification takes from outside: the probes of the work tree, the glob
library, and the targets of the file secrets. -/
structure ClassificationEnv where
  probes : PathProbes
  buildGlobset : List String → Except DevRelayError (String → Bool)
  secretHardExcludePatterns : Manifest → List String

def classificationContext (env : ClassificationEnv) (manifest : Manifest) :
    Except DevRelayError ClassificationContext := do
  let exclude ← env.buildGlobset (manifest.workspace.exclude.patterns ++
    defaultExcludePatterns ++ env.secretHardExcludePatterns manifest)
  let «include» ← env.buildGlobset manifest.workspace.include.patterns
  let userSecretPaths ← env.buildGlobset manifest.workspace.secretScanner.filenamePatterns
  return {
    probes := env.probes
    policy := manifest.workspace.untracked
    exclude := exclude
    «include» := «include»
    scanner := manifest.workspace.secretScanner
    userSecretPaths := userSecretPaths
    thresholdBytes := manifest.workspace.largeFileThresholdMib * 1024 * 1024 }

def classifyUntrackedPaths (env : ClassificationEnv) (manifest : Manifest)
    (paths : List String) : Except DevRelayError (List ClassifiedPath) := do
  let context ← classificationContext env manifest
  return paths.map fun path => classifyOne context (normalizeRepoPath path)

/-! ## What the classification reports -/

/-- The classification reports the path it was given. -/
@[simp] theorem classifyOne_path (context : ClassificationContext) (path : String) :
    (classifyOne context path).path = path := by
  unfold classifyOne classifyByPolicy
  repeat' split
  all_goals rfl

/-- A secret name is excluded under every policy. -/
theorem classifyOne_of_secret {context : ClassificationContext} {path reason : String}
    (h : secretPathReason path = some reason) :
    classifyOne context path = excluded path reason := by
  unfold classifyOne
  rw [h]

theorem normalizeRepoPath_eq_self {path : String} :
    normalizeRepoPath path = path ↔ '\\' ∉ path.toList := by
  unfold normalizeRepoPath
  rw [← String.toList_inj, String.toList_ofList]
  constructor
  · intro h hmem
    rw [← h, List.mem_map] at hmem
    obtain ⟨c, -, hc⟩ := hmem
    split_ifs at hc with hback
    · cases hc
    · exact hback hc
  · intro h
    have hid : ∀ c ∈ path.toList, (if c = '\\' then '/' else c) = id c := by
      intro c hc
      rw [if_neg]
      · rfl
      · intro heq
        rw [heq] at hc
        exact h hc
    rw [List.map_congr_left hid, List.map_id]

end DevRelay.Core
