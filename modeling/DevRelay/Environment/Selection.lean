import DevRelay.Manifest.Schema
import Mathlib.Data.String.Basic

/-!
# Choosing an environment profile

`select_environment_profile` of `environment.rs`: the kinds are tried in a fixed order, the
profiles of a kind in the order of their names, and the first one that nothing speaks
against is taken.
-/

namespace DevRelay.Environment

open DevRelay.Core DevRelay.Lib

structure EnvironmentSelectionContext where
  platformKey : String
  availableKinds : List EnvironmentKind
  trustedCommandScopes : List String
  deriving DecidableEq

structure EnvironmentProfileSelection where
  profileName : Option String
  kind : Option EnvironmentKind
  commandScope : Option String
  explanation : List String
  deriving DecidableEq

def environmentProfileCommandScope (profileName : String) : String :=
  "environment.profile." ++ profileName

def platformAliases (platformKey : String) : List String :=
  if "darwin-".toList.isPrefixOf platformKey.toList then ["darwin", "macos"]
  else if "wsl2-linux-gnu-".toList.isPrefixOf platformKey.toList then
    ["wsl2", "linux", "linux-gnu"]
  else if "linux-gnu-".toList.isPrefixOf platformKey.toList then ["linux", "linux-gnu"]
  else if "windows-native-".toList.isPrefixOf platformKey.toList then
    ["windows", "windows-native"]
  else []

def targetMatchesPlatformKey (target platformKey : String) : Bool :=
  let target := trim target.toList
  if target = ['*'] || target = "local".toList || target = platformKey.toList then true
  else if "-*".toList.isSuffixOf target then
    (target.take (target.length - 2)).isPrefixOf platformKey.toList
  else (platformAliases platformKey).contains (String.ofList target)

def profileTargetsPlatform (targets : List String) (platformKey : String) : Bool :=
  targets.any fun target => targetMatchesPlatformKey target platformKey

def kindAvailable (kind : EnvironmentKind) (availableKinds : List EnvironmentKind) : Bool :=
  kind = .manual || availableKinds.contains kind

/-- The `\x7b:?\x7d` rendering of a kind. -/
def debugKind : EnvironmentKind → String
  | .nix => "Nix"
  | .devcontainer => "Devcontainer"
  | .native => "Native"
  | .script => "Script"
  | .manual => "Manual"

def kindOrder : List EnvironmentKind := [.nix, .devcontainer, .native, .script, .manual]

/-- Why a profile is not taken. -/
def skipReason (context : EnvironmentSelectionContext) (entry : String × EnvironmentProfile) :
    Option String :=
  if !profileTargetsPlatform entry.2.targets context.platformKey then
    some ("skipped " ++ entry.1 ++ ": targets do not match " ++ context.platformKey)
  else if !kindAvailable entry.2.kind context.availableKinds then
    some ("skipped " ++ entry.1 ++ ": " ++ debugKind entry.2.kind ++ " adapter unavailable")
  else if entry.2.kind = .script &&
      !context.trustedCommandScopes.contains (environmentProfileCommandScope entry.1) then
    some ("skipped " ++ entry.1 ++ ": bootstrap command is not trusted")
  else none

/-- The profiles in the order of the two loops. -/
def candidates (manifest : Manifest) : List (String × EnvironmentProfile) :=
  kindOrder.flatMap fun kind => manifest.profiles.filter fun entry => entry.2.kind = kind

/-- The body of the loops, with the explanation so far. -/
def selectFrom (manifest : Manifest) (context : EnvironmentSelectionContext)
    (explanation : List String) :
    List (String × EnvironmentProfile) → EnvironmentProfileSelection
  | [] => {
      profileName := none
      kind := none
      commandScope := none
      explanation := explanation ++ [if manifest.profiles = [] then
        "manifest environment has no profiles"
      else "no environment profile matches " ++ context.platformKey ++
        " with available adapters"] }
  | entry :: rest =>
    match skipReason context entry with
    | some reason => selectFrom manifest context (explanation ++ [reason]) rest
    | none => {
        profileName := some entry.1
        kind := some entry.2.kind
        commandScope := some (environmentProfileCommandScope entry.1)
        explanation := explanation ++ ["selected " ++ entry.1 ++ ": " ++
          debugKind entry.2.kind ++ " profile matches " ++ context.platformKey] }

def selectEnvironmentProfile (manifest : Manifest) (context : EnvironmentSelectionContext) :
    EnvironmentProfileSelection :=
  match manifest.environment with
  | none => {
      profileName := none
      kind := none
      commandScope := none
      explanation := ["manifest has no environment profiles"] }
  | some _ => selectFrom manifest context [] (candidates manifest)

/-! ## What is chosen -/

/-- The profile that is taken. -/
def chosen? (manifest : Manifest) (context : EnvironmentSelectionContext) :
    Option (String × EnvironmentProfile) :=
  (candidates manifest).find? fun entry => (skipReason context entry).isNone

theorem profileName_selectFrom (manifest : Manifest) (context : EnvironmentSelectionContext)
    (explanation : List String) (entries : List (String × EnvironmentProfile)) :
    (selectFrom manifest context explanation entries).profileName =
      (entries.find? fun entry => (skipReason context entry).isNone).map Prod.fst := by
  induction entries generalizing explanation with
  | nil => rfl
  | cons entry rest ih =>
    rw [selectFrom, List.find?_cons]
    cases hskip : skipReason context entry with
    | some reason =>
      simp only [Option.isNone_some]
      exact ih (explanation ++ [reason])
    | none => rfl

theorem profileName_selectEnvironmentProfile (manifest : Manifest)
    (context : EnvironmentSelectionContext) :
    (selectEnvironmentProfile manifest context).profileName =
      (chosen? manifest context).map Prod.fst := by
  unfold selectEnvironmentProfile chosen?
  cases henv : manifest.environment with
  | none =>
    have hnil : candidates manifest = [] := by
      simp [candidates, Manifest.profiles, henv]
    rw [hnil]
    rfl
  | some environment => exact profileName_selectFrom manifest context [] _

theorem mem_candidates {manifest : Manifest} {entry : String × EnvironmentProfile} :
    entry ∈ candidates manifest ↔ entry ∈ manifest.profiles := by
  have hkind : entry.2.kind ∈ kindOrder := by
    cases entry.2.kind <;> decide
  simp only [candidates, List.mem_flatMap, List.mem_filter, decide_eq_true_eq]
  constructor
  · rintro ⟨kind, -, hmem, -⟩
    exact hmem
  · intro hmem
    exact ⟨entry.2.kind, hkind, hmem, rfl⟩

/-- The profile that is taken is found under its name. -/
theorem chosen?_eq_some {manifest : Manifest} {context : EnvironmentSelectionContext}
    {entry : String × EnvironmentProfile} (h : chosen? manifest context = some entry) :
    entry ∈ manifest.profiles ∧ skipReason context entry = none := by
  constructor
  · exact mem_candidates.mp (List.mem_of_find?_eq_some h)
  · exact Option.isNone_iff_eq_none.mp
      (List.find?_some (p := fun entry => (skipReason context entry).isNone) h)

theorem skipReason_eq_none {context : EnvironmentSelectionContext}
    {entry : String × EnvironmentProfile} :
    skipReason context entry = none ↔
      profileTargetsPlatform entry.2.targets context.platformKey = true ∧
        kindAvailable entry.2.kind context.availableKinds = true ∧
        (entry.2.kind = .script →
          environmentProfileCommandScope entry.1 ∈ context.trustedCommandScopes) := by
  unfold skipReason
  split_ifs with htargets hkind hscript
  · simp_all
  · simp_all
  · simp_all
  · simp_all

/-- Where no kind before it can be used, a profile of the kind is taken. -/
theorem chosen?_of_kind {manifest : Manifest} {context : EnvironmentSelectionContext}
    (before : List EnvironmentKind) {after : List EnvironmentKind} {kind : EnvironmentKind}
    {entry : String × EnvironmentProfile} (horder : kindOrder = before ++ kind :: after)
    (hbefore : ∀ k ∈ before, kindAvailable k context.availableKinds = false)
    (havailable : kindAvailable kind context.availableKinds = true) (hscript : kind ≠ .script)
    (hmem : entry ∈ manifest.profiles) (hkind : entry.2.kind = kind)
    (htargets : profileTargetsPlatform entry.2.targets context.platformKey = true) :
    ∃ chosen, chosen? manifest context = some chosen ∧ chosen.2.kind = kind := by
  have hskipped : ((before.flatMap fun k => manifest.profiles.filter fun e => e.2.kind = k).find?
      fun e => (skipReason context e).isNone) = none := by
    rw [List.find?_eq_none]
    intro e he hfree
    obtain ⟨k, hk, hek⟩ := List.mem_flatMap.mp he
    have hav := (skipReason_eq_none.mp (Option.isNone_iff_eq_none.mp hfree)).2.1
    rw [of_decide_eq_true (List.mem_filter.mp hek).2, hbefore k hk] at hav
    cases hav
  have hfree : skipReason context entry = none := by
    rw [skipReason_eq_none, hkind]
    exact ⟨htargets, havailable, fun h => absurd h hscript⟩
  have hfound : ((manifest.profiles.filter fun e => e.2.kind = kind).find?
      fun e => (skipReason context e).isNone).isSome = true := by
    rw [List.find?_isSome]
    exact ⟨entry, List.mem_filter.mpr ⟨hmem, decide_eq_true hkind⟩,
      Option.isNone_iff_eq_none.mpr hfree⟩
  obtain ⟨chosen, hchosen⟩ := Option.isSome_iff_exists.mp hfound
  refine ⟨chosen, ?_, ?_⟩
  · rw [chosen?, candidates, horder, List.flatMap_append, List.find?_append, hskipped,
      List.flatMap_cons, List.find?_append, hchosen]
    rfl
  · exact of_decide_eq_true (List.mem_filter.mp (List.mem_of_find?_eq_some hchosen)).2

end DevRelay.Environment
