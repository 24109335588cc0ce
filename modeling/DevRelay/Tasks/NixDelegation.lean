import DevRelay.Environment.Adapters
import DevRelay.Lib.AsciiChars
import DevRelay.Lib.NixText
import DevRelay.Lib.ShellWords
import DevRelay.Scheduler.Score

/-!
# Nix delegation plans

`nix_delegation.rs`: whether a task goes to a Nix builder, and the builder file for
it.  The file has the command of the task as a line for a shell, and the names and
the outputs as Nix strings.
-/

namespace DevRelay.Tasks

open DevRelay.Lib DevRelay.Core DevRelay.Scheduler DevRelay.Environment

/-! ## Texts of the builder file -/

/-- The characters that `shell_quote` leaves as they are. -/
def isShellPlain (c : Char) : Bool :=
  c.isAlphanum || ['_', '-', '.', '/', ':', '=', ',', '+'].contains c

def shellQuote (value : List Char) : List Char :=
  if value.all isShellPlain then value else '\'' :: quotesSplit value ++ ['\'']

def shellCommand (command : List (List Char)) : List Char :=
  [' '].intercalate (command.map shellQuote)

def nixEscape (c : Char) : List Char :=
  if c = '\\' then ['\\', '\\']
  else if c = '"' then ['\\', '"']
  else if c = '\n' then ['\\', 'n']
  else if c = '\r' then ['\\', 'r']
  else if c = '\t' then ['\\', 't']
  else [c]

def nixString (value : List Char) : List Char := '"' :: value.flatMap nixEscape ++ ['"']

def nixStringList (values : List (List Char)) : List Char :=
  "[ ".toList ++ [' '].intercalate (values.map nixString) ++ " ]".toList

/-! ## Identifiers -/

def identifierChar (c : Char) : Char :=
  if c.isAlphanum || c = '-' || c = '_' then c.toLower else '-'

/-- One `replace("--", "-")`. -/
def halveDashes : List Char → List Char
  | '-' :: '-' :: rest => '-' :: halveDashes rest
  | c :: rest => c :: halveDashes rest
  | [] => []

theorem length_halveDashes (text : List Char) : (halveDashes text).length ≤ text.length := by
  fun_induction halveDashes text with
  | case1 rest ih =>
    simp only [List.length_cons]
    omega
  | case2 c rest hne ih =>
    simp only [List.length_cons]
    omega
  | case3 => exact Nat.le_refl _

theorem length_halveDashes_lt {text : List Char} (h : ['-', '-'] <:+: text) :
    (halveDashes text).length < text.length := by
  fun_induction halveDashes text with
  | case1 rest ih =>
    have hle := length_halveDashes rest
    simp only [List.length_cons]
    omega
  | case2 c rest hne ih =>
    have hrest : ['-', '-'] <:+: rest := by
      rcases List.infix_cons_iff.mp h with hprefix | hrest
      · obtain ⟨more, hmore⟩ := hprefix
        obtain ⟨rfl, rfl⟩ := List.cons.inj hmore
        exact absurd rfl (hne more rfl)
      · exact hrest
    have hlt := ih hrest
    simp only [List.length_cons]
    omega
  | case3 =>
    have hlength := h.length_le
    simp at hlength

/-- `while sanitized.contains("--")` -/
def collapseDashes (text : List Char) : List Char :=
  if _h : ['-', '-'] <:+: text then collapseDashes (halveDashes text) else text
termination_by text.length
decreasing_by exact length_halveDashes_lt _h

/-- `trim_matches('-')` -/
def trimDashes (text : List Char) : List Char :=
  ((text.dropWhile (· = '-')).reverse.dropWhile (· = '-')).reverse

def sanitizeNixIdentifier (value : List Char) : List Char :=
  let sanitized := trimDashes (collapseDashes (value.map identifierChar))
  let sanitized := if sanitized.isEmpty then "task".toList else sanitized
  if sanitized.head?.any Char.isDigit then "task-".toList ++ sanitized else sanitized

section

variable {value text : List Char}

/-! ## What a shell reads -/

theorem isShellPlain_notMem {c : Char} (h : isShellPlain c = true) : c ∉ shellSpecials := by
  have hall : (shellSpecials.all fun c => !isShellPlain c) = true := by decide
  intro hmem
  have hspecial := List.all_eq_true.mp hall c hmem
  rw [h] at hspecial
  cases hspecial

theorem reads_shellQuote (value : List Char) : ReadsAs (shellQuote value) value := by
  intro rest
  unfold shellQuote
  split
  · rename_i hplain
    cases value with
    | nil => rfl
    | cons c value =>
      rw [shellWordsFrom_plain (List.cons_ne_nil c value) fun d hd =>
        isShellPlain_notMem (List.all_eq_true.mp hplain d hd)]
      rfl
  · rename_i hquoted
    have hne : value ≠ [] := by
      rintro rfl
      exact hquoted rfl
    have hopen : shellWordsFrom false none ('\'' :: quotesSplit value ++ ['\''] ++ rest) =
        shellWordsFrom true (some []) (quotesSplit value ++ '\'' :: rest) := by
      rw [List.append_assoc]
      rfl
    rw [hopen, shellWordsFrom_quotesSplit, if_neg hne]
    rfl

/-- A shell splits the command line of a task into the arguments of the task, without those
that are empty.  Only the splitting is modelled: a first word `FOO=bar` or a reserved word
is no command to a shell. -/
theorem shellWords_shellCommand (command : List (List Char)) :
    shellWords (shellCommand command) = some (command.filter fun arg => arg ≠ []) := by
  apply shellWords_join
  induction command with
  | nil => exact List.Forall₂.nil
  | cons arg command ih => exact List.Forall₂.cons (reads_shellQuote arg) ih

/-! ## What Nix reads -/

theorem nixWritten_nixEscape (c : Char) : NixWritten (nixEscape c) c := by
  unfold nixEscape
  split
  · rename_i h
    subst h
    exact Or.inl ⟨'\\', rfl, rfl, by decide, by decide⟩
  · rename_i hbackslash
    split
    · rename_i h
      subst h
      exact Or.inl ⟨'"', rfl, rfl, by decide, by decide⟩
    · rename_i hquote
      split
      · rename_i h
        subst h
        exact Or.inl ⟨'n', rfl, rfl, by decide, by decide⟩
      · split
        · rename_i h
          subst h
          exact Or.inl ⟨'r', rfl, rfl, by decide, by decide⟩
        · split
          · rename_i h
            subst h
            exact Or.inl ⟨'t', rfl, rfl, by decide, by decide⟩
          · exact Or.inr ⟨rfl, hquote, hbackslash⟩

/-- Nix reads a written string as its value exactly when the value has no brace behind an
odd number of dollars. -/
theorem readNixString_nixString_iff (value rest : List Char) :
    readNixString (nixString value ++ rest) = some (value, rest) ↔ ¬Antiquotes value := by
  have hread : readNixString (nixString value ++ rest) =
      readNixText (oddDollars []) (value.flatMap nixEscape ++ '"' :: rest) := by
    unfold nixString
    rw [List.append_assoc]
    rfl
  rw [hread]
  exact readNixText_written nixWritten_nixEscape [] value rest

/-! ## Identifiers that Nix accepts -/

/-- The characters of a sanitized identifier. -/
def isIdentifierChar (c : Char) : Bool := c.isLower || c.isDigit || c = '-' || c = '_'

/-- A name in lower case with single dashes between its parts, that begins with a letter
or an underscore. -/
structure NixIdentifier (text : List Char) : Prop where
  chars : ∀ c ∈ text, isIdentifierChar c = true
  starts : ∃ c rest, text = c :: rest ∧ (c.isLower = true ∨ c = '_')
  single : ¬['-', '-'] <:+: text
  ends : text.getLast? ≠ some '-'

theorem not_isUpper_of_identifierChar {c : Char} (h : isIdentifierChar c = true) :
    c.isUpper = false := by
  simp only [isIdentifierChar, Bool.or_eq_true, decide_eq_true_eq] at h
  rw [← Bool.not_eq_true, isUpper_iff]
  rcases h with ((h | h) | rfl) | rfl
  · have hbounds := isLower_iff.mp h
    omega
  · have hbounds := isDigit_iff.mp h
    omega
  · decide
  · decide

theorem isIdentifierChar_identifierChar (c : Char) :
    isIdentifierChar (identifierChar c) = true := by
  unfold identifierChar
  split
  · rename_i h
    simp only [Bool.or_eq_true, decide_eq_true_eq] at h
    rcases h with (h | rfl) | rfl
    · cases hupper : c.isUpper with
      | true =>
        have hlower : c.toLower.isLower = true := isLower_toLower hupper
        simp [isIdentifierChar, hlower]
      | false =>
        have hsame : c.toLower = c := toLower_of_not_isUpper hupper
        have hkind : c.isLower = true ∨ c.isDigit = true := by
          simpa [isAlphanum_iff, hupper] using h
        rcases hkind with hkind | hkind
        · simp [isIdentifierChar, hsame, hkind]
        · simp [isIdentifierChar, hsame, hkind]
    · decide
    · decide
  · decide

theorem identifierChar_eq_self {c : Char} (h : isIdentifierChar c = true) :
    identifierChar c = c := by
  have hsame : c.toLower = c :=
    toLower_of_not_isUpper (not_isUpper_of_identifierChar h)
  have hkept : (c.isAlphanum || c = '-' || c = '_') = true := by
    simp only [isIdentifierChar, Bool.or_eq_true, decide_eq_true_eq] at h
    rcases h with ((h | h) | rfl) | rfl
    · simp [isAlphanum_iff, h]
    · simp [isAlphanum_iff, h]
    · decide
    · decide
  unfold identifierChar
  rw [if_pos hkept, hsame]

theorem halveDashes_subset (text : List Char) : ∀ c ∈ halveDashes text, c ∈ text := by
  fun_induction halveDashes text with
  | case1 rest ih =>
    intro c hc
    rcases List.mem_cons.mp hc with rfl | hc
    · exact List.mem_cons_self ..
    · exact List.mem_cons_of_mem _ (List.mem_cons_of_mem _ (ih c hc))
  | case2 d rest hne ih =>
    intro c hc
    rcases List.mem_cons.mp hc with rfl | hc
    · exact List.mem_cons_self ..
    · exact List.mem_cons_of_mem _ (ih c hc)
  | case3 => exact fun _ hc => hc

theorem collapseDashes_subset (text : List Char) : ∀ c ∈ collapseDashes text, c ∈ text := by
  fun_induction collapseDashes text with
  | case1 text h ih => exact fun c hc => halveDashes_subset text c (ih c hc)
  | case2 text h => exact fun _ hc => hc

theorem single_collapseDashes (text : List Char) : ¬['-', '-'] <:+: collapseDashes text := by
  fun_induction collapseDashes text with
  | case1 text h ih => exact ih
  | case2 text h => exact h

theorem collapseDashes_eq_self (h : ¬['-', '-'] <:+: text) : collapseDashes text = text := by
  rw [collapseDashes, dif_neg h]

theorem trimDashes_begins (text : List Char) : trimDashes text <+: text.dropWhile (· = '-') := by
  have hsuffix := List.dropWhile_suffix (l := (text.dropWhile (· = '-')).reverse) (· = '-')
  simpa [trimDashes] using List.reverse_prefix.mpr hsuffix

theorem trimDashes_within (text : List Char) : trimDashes text <:+: text :=
  (trimDashes_begins text).isInfix.trans (List.dropWhile_suffix _).isInfix

theorem head?_trimDashes (text : List Char) : (trimDashes text).head? ≠ some '-' := by
  intro h
  obtain ⟨more, hmore⟩ := trimDashes_begins text
  have hhead := List.head?_dropWhile_not (· = '-') text
  rw [← hmore, List.head?_append, h] at hhead
  simp at hhead

theorem getLast?_trimDashes (text : List Char) : (trimDashes text).getLast? ≠ some '-' := by
  intro h
  rw [trimDashes, List.getLast?_reverse] at h
  have hhead := List.head?_dropWhile_not (· = '-') (text.dropWhile (· = '-')).reverse
  rw [h] at hhead
  simp at hhead

theorem dropWhile_dashes_eq_self (h : text.head? ≠ some '-') : text.dropWhile (· = '-') = text := by
  cases text with
  | nil => rfl
  | cons c text =>
    apply List.dropWhile_cons_of_neg
    intro hdash
    exact h (congrArg some (of_decide_eq_true hdash))

theorem trimDashes_eq_self (hhead : text.head? ≠ some '-') (hlast : text.getLast? ≠ some '-') :
    trimDashes text = text := by
  have hback : text.reverse.head? ≠ some '-' := by
    rwa [List.head?_reverse]
  rw [trimDashes, dropWhile_dashes_eq_self hhead, dropWhile_dashes_eq_self hback,
    List.reverse_reverse]

theorem nixIdentifier_task : NixIdentifier "task".toList where
  chars := by
    have htask : ("task".toList.all isIdentifierChar) = true := by decide
    exact List.all_eq_true.mp htask
  starts := ⟨'t', "ask".toList, rfl, Or.inl (by decide)⟩
  single := by decide
  ends := by decide

/-- The prefix in front of a name that begins with a digit. -/
theorem nixIdentifier_prefixed {c : Char} (hdigit : c.isDigit = true)
    (hchars : ∀ d ∈ c :: text, isIdentifierChar d = true) (hsingle : ¬['-', '-'] <:+: c :: text)
    (hends : (c :: text).getLast? ≠ some '-') : NixIdentifier ("task-".toList ++ c :: text) where
  chars := by
    have htask : ("task-".toList.all isIdentifierChar) = true := by decide
    intro d hd
    rcases List.mem_append.mp hd with hd | hd
    · exact List.all_eq_true.mp htask d hd
    · exact hchars d hd
  starts := ⟨'t', _, rfl, Or.inl (by decide)⟩
  single := by
    have hdash : c ≠ '-' := by
      rintro rfl
      exact absurd hdigit (by decide)
    intro hdashes
    have hfront : "task-".toList ++ c :: text = 't' :: 'a' :: 's' :: 'k' :: '-' :: c :: text := rfl
    rw [hfront] at hdashes
    simp [List.infix_cons_iff, Ne.symm hdash] at hdashes
    exact hsingle (hdashes.trans (List.suffix_cons c text).isInfix)
  ends := by
    rw [List.getLast?_append_cons]
    exact hends

/-- What is sanitized is an identifier. -/
theorem nixIdentifier_sanitize (value : List Char) :
    NixIdentifier (sanitizeNixIdentifier value) := by
  have hchars : ∀ c ∈ trimDashes (collapseDashes (value.map identifierChar)),
      isIdentifierChar c = true := by
    intro c hc
    have hmem := collapseDashes_subset _ c ((trimDashes_within _).subset hc)
    obtain ⟨d, -, rfl⟩ := List.mem_map.mp hmem
    exact isIdentifierChar_identifierChar d
  have hsingle : ¬['-', '-'] <:+: trimDashes (collapseDashes (value.map identifierChar)) :=
    fun h => single_collapseDashes _ (h.trans (trimDashes_within _))
  have hhead := head?_trimDashes (collapseDashes (value.map identifierChar))
  have hends := getLast?_trimDashes (collapseDashes (value.map identifierChar))
  unfold sanitizeNixIdentifier
  cases htrimmed : trimDashes (collapseDashes (value.map identifierChar)) with
  | nil => exact nixIdentifier_task
  | cons c text =>
    rw [htrimmed] at hchars hsingle hhead hends
    dsimp only
    rw [List.isEmpty_cons, if_neg Bool.false_ne_true, List.head?_cons, Option.any_some]
    split
    · rename_i hdigit
      exact nixIdentifier_prefixed hdigit hchars hsingle hends
    · rename_i hdigit
      have hdash : c ≠ '-' := fun h => hhead (congrArg some h)
      have hfirst := hchars c (List.mem_cons_self ..)
      refine ⟨hchars, ⟨c, text, rfl, ?_⟩, hsingle, hends⟩
      simpa [isIdentifierChar, hdigit, hdash] using hfirst

/-- An identifier is sanitized to itself. -/
theorem NixIdentifier.sanitize_eq_self (h : NixIdentifier text) :
    sanitizeNixIdentifier text = text := by
  obtain ⟨c, rest, rfl, hstart⟩ := h.starts
  have hmap : (c :: rest).map identifierChar = c :: rest := by
    rw [List.map_congr_left fun d hd => identifierChar_eq_self (h.chars d hd), List.map_id']
  have hdash : (c :: rest).head? ≠ some '-' := by
    intro hhead
    rcases hstart with hlower | rfl
    · cases Option.some.inj hhead
      exact absurd hlower (by decide)
    · simp at hhead
  have hdigit : c.isDigit = false := by
    rcases hstart with hlower | rfl
    · have hbounds := isLower_iff.mp hlower
      rw [← Bool.not_eq_true, isDigit_iff]
      omega
    · decide
  unfold sanitizeNixIdentifier
  rw [hmap, collapseDashes_eq_self h.single, trimDashes_eq_self hdash h.ends]
  simp [hdigit]

/-- Every value is sanitized to an identifier, and the identifiers are the values that
stay as they are. -/
theorem sanitizeNixIdentifier_law (value : List Char) :
    NixIdentifier (sanitizeNixIdentifier value) ∧
      sanitizeNixIdentifier (sanitizeNixIdentifier value) = sanitizeNixIdentifier value ∧
      (sanitizeNixIdentifier value = value ↔ NixIdentifier value) := by
  have hidentifier := nixIdentifier_sanitize value
  refine ⟨hidentifier, hidentifier.sanitize_eq_self, ?_, NixIdentifier.sanitize_eq_self⟩
  intro hsame
  rwa [hsame] at hidentifier

end

/-! ## Plans -/

/-- What `inspect_nix_environment` finds and a plan reads. -/
structure NixAdapterReport where
  nixAvailable : Bool
  flakeFingerprint : Option String
  healthcheck : NixDevelopHealthcheck
  deriving DecidableEq, Repr

/-- The fingerprint of the flake files is `compute_nix_flake_fingerprint`. -/
def inspectNixEnvironment (context : AdapterContext)
    (fingerprint : Except DevRelayError (Option String)) (healthcheck : List String) :
    Running NixAdapterReport := do
  let nixAvailable ← detectNixAvailability context
  let flakeFingerprint ← Prog.ofExcept fingerprint
  let healthcheck ← runNixDevelopHealthcheck context healthcheck nixAvailable
  return ⟨nixAvailable, flakeFingerprint, healthcheck⟩

structure NixDelegationOptions where
  flakeReference : String
  builderName : String
  /-- the `store_uri` of the target -/
  lanBinaryCache : Option String
  deriving DecidableEq, Repr

inductive NixDelegationDecision where
  | delegated
  | notNixTask
  | deviceRejected
  | nixUnavailable
  | nixHealthcheckFailed
  deriving DecidableEq, Repr

structure NixTemporaryBuilderSet where
  fileName : String
  attrName : String
  sourceReference : String
  expression : String
  buildCommand : List String
  outputs : List String
  deriving DecidableEq, Repr

structure NixRemoteBuilderLogPlan where
  enabled : Bool
  command : List String
  explanation : String
  deriving DecidableEq, Repr

structure NixLanBinaryCachePublishPlan where
  enabled : Bool
  command : List String
  storeUri : Option String
  explanation : String
  deriving DecidableEq, Repr

structure NixDelegationPlan where
  decision : NixDelegationDecision
  delegated : Bool
  taskName : String
  deviceId : String
  platformKey : String
  builderSet : Option NixTemporaryBuilderSet
  remoteLogs : NixRemoteBuilderLogPlan
  lanBinaryCache : NixLanBinaryCachePublishPlan
  explanation : List String
  deriving DecidableEq, Repr

def NixDelegationOptions.defaultForTask (definition : TaskDefinition) : NixDelegationOptions where
  flakeReference := "."
  builderName :=
    "devrelay-" ++ String.ofList (sanitizeNixIdentifier definition.taskName.toList)
  lanBinaryCache := none

/-- `validate_non_empty` -/
def validateNixOption (field value : String) : Except DevRelayError Unit :=
  if (trim value.toList).isEmpty then
    .error (.config ("Nix delegation " ++ field ++ " must not be empty"))
  else .ok ()

def nixEnding : List Char := ".nix".toList

/-- The text of the builder file. -/
def builderExpression (attrName : List Char) (definition : TaskDefinition) : String :=
  let command := String.ofList (shellCommand (definition.command.map String.toList))
  let outputs := String.ofList (nixStringList (definition.outputs.map String.toList))
  "# Generated by DevRelay. This file is safe to delete.\n" ++
  "\x7b pkgs ? import <nixpkgs> \x7b\x7d \x7d:\n\n\x7b\n  " ++ String.ofList attrName ++
  " = pkgs.stdenv.mkDerivation \x7b\n    name = " ++ String.ofList (nixString attrName) ++
  ";\n    src = ./.;\n    dontConfigure = true;\n    dontBuild = false;\n" ++
  "    buildPhase = ''\n      set -euo pipefail\n      " ++ command ++
  "\n    '';\n    installPhase = ''\n      mkdir -p \"$out/devrelay-artifacts\"\n" ++
  "      cat > \"$out/devrelay-artifacts/outputs.txt\" <<'DEVRELAY_OUTPUTS'\n" ++
  "\n".intercalate definition.outputs ++
  "\nDEVRELAY_OUTPUTS\n    '';\n    passthru.devrelayOutputs = " ++ outputs ++
  ";\n  \x7d;\n\x7d\n"

def temporaryBuilderSet (definition : TaskDefinition) (options : NixDelegationOptions) :
    NixTemporaryBuilderSet :=
  let attrName := sanitizeNixIdentifier options.builderName.toList
  { fileName := String.ofList (attrName ++ nixEnding)
    attrName := String.ofList attrName
    sourceReference := options.flakeReference
    expression := builderExpression attrName definition
    buildCommand := definition.command
    outputs := definition.outputs }

def lanBinaryCachePublishPlan (builderSet : NixTemporaryBuilderSet)
    (options : NixDelegationOptions) : NixLanBinaryCachePublishPlan :=
  match options.lanBinaryCache with
  | none => ⟨false, [], none,
      "LAN binary cache publish is skipped because no cache target was configured"⟩
  | some storeUri => ⟨true,
      ["nix", "copy", "--to", storeUri, "--file", builderSet.fileName, builderSet.attrName],
      some storeUri,
      "successful Nix result will be copied to LAN binary cache " ++ storeUri⟩

def remoteLogPlan (builderSet : NixTemporaryBuilderSet) : NixRemoteBuilderLogPlan where
  enabled := true
  command := ["nix", "build", "--print-build-logs", "--file", builderSet.fileName,
    builderSet.attrName]
  explanation := "remote Nix build logs are streamed through nix build --print-build-logs"

def disabledPlan (decision : NixDelegationDecision) (definition : TaskDefinition)
    (device : SchedulerDeviceSnapshot) (explanation : List String) : NixDelegationPlan where
  decision := decision
  delegated := false
  taskName := definition.taskName
  deviceId := device.deviceId
  platformKey := device.platformKey
  builderSet := none
  remoteLogs := ⟨false, [],
    "remote builder logs are disabled because delegation was not selected"⟩
  lanBinaryCache := ⟨false, [], none,
    "LAN binary cache publish is disabled because delegation was not selected"⟩
  explanation := explanation

def delegatedPlan (definition : TaskDefinition) (device : SchedulerDeviceSnapshot)
    (nix : NixAdapterReport) (options : NixDelegationOptions) : NixDelegationPlan :=
  let builderSet := temporaryBuilderSet definition options
  let remoteLogs := remoteLogPlan builderSet
  let lanBinaryCache := lanBinaryCachePublishPlan builderSet options
  { decision := .delegated
    delegated := true
    taskName := definition.taskName
    deviceId := device.deviceId
    platformKey := device.platformKey
    builderSet := some builderSet
    remoteLogs := remoteLogs
    lanBinaryCache := lanBinaryCache
    explanation := ["task " ++ definition.taskName ++ " uses a Nix profile",
      "device " ++ device.deviceId ++ " satisfies scheduler constraints for " ++
        device.platformKey,
      "Nix healthcheck reports a ready shell",
      "temporary builder " ++ builderSet.fileName ++ " will run the task command from " ++
        builderSet.sourceReference ++ " and expose declared outputs",
      remoteLogs.explanation, lanBinaryCache.explanation] ++
      (nix.flakeFingerprint.map fun fingerprint =>
        "flake fingerprint " ++ fingerprint ++ " participates in scheduling").toList }

/-- `isMatch` is the glob matcher of the scheduler, `debug` the rendering of rejections. -/
def planNixDelegation (isMatch : String → String → Bool)
    (debug : SchedulerConstraintRejection → String) (definition : TaskDefinition)
    (device : SchedulerDeviceSnapshot) (nix : NixAdapterReport)
    (options : NixDelegationOptions) : Except DevRelayError NixDelegationPlan := do
  validateNixOption "flake_reference" options.flakeReference
  validateNixOption "builder_name" options.builderName
  if definition.profileKind ≠ .nix then
    return disabledPlan .notNixTask definition device
      ["task " ++ definition.taskName ++ " uses " ++ definition.profileKind.debug ++
        ", so Nix delegation is not applicable"]
  else if ¬Eligible isMatch definition device then
    return disabledPlan .deviceRejected definition device
      ["device " ++ device.deviceId ++ " cannot satisfy task constraints: " ++
        ", ".intercalate
          ((evaluateSchedulerConstraints isMatch definition device).rejections.map debug)]
  else if ¬nix.nixAvailable then
    return disabledPlan .nixUnavailable definition device
      ["device " ++ device.deviceId ++ " cannot run Nix because nix is unavailable"]
  else if ¬nix.healthcheck.shellReady then
    return disabledPlan .nixHealthcheckFailed definition device
      ["device " ++ device.deviceId ++ " failed Nix healthcheck: " ++
        nix.healthcheck.failureLogs]
  else
    return delegatedPlan definition device nix options

def nixDelegationDir : String := ".devrelay/nix"

def validateBuilderFileName (fileName : String) : Except DevRelayError Unit :=
  let singleNormalComponent := match components fileName with
    | [.normal _] => true
    | _ => false
  if (trim fileName.toList).isEmpty || !singleNormalComponent ||
      !nixEnding.isSuffixOf fileName.toList then
    .error (.config ("Nix builder file name must be a safe .nix file name: " ++
      debugString fileName))
  else .ok ()

/-- `write_nix_temporary_builder_set`: the file it writes, and what it holds then. -/
def writeNixTemporaryBuilderSet (root : String) (builderSet : NixTemporaryBuilderSet) :
    Except DevRelayError (String × String) := do
  validateBuilderFileName builderSet.fileName
  return (join (join root nixDelegationDir) builderSet.fileName, builderSet.expression)

/-! ## When a task is delegated -/

section

variable {context : AdapterContext} {ran ran' : List EnvironmentCommand}

/-- The runner answers to the command, and with success. -/
def CommandSucceeds (context : AdapterContext) (ran : List EnvironmentCommand)
    (command : EnvironmentCommand) : Prop :=
  ∃ output, context.runner ran command = .ok output ∧ output.succeeded = true

theorem run_probe_ok {program : String} {found : Bool}
    (h : (probe context program).run ran = (.ok found, ran')) :
    ran' = ran ++ [versionProbe program] ∧
      (found = true ↔ CommandSucceeds context ran (versionProbe program)) := by
  unfold CommandSucceeds
  replace h : (attemptCommand context (versionProbe program) >>= _).run ran = (.ok found, ran') :=
    h
  unfold attemptCommand at h
  rw [Prog.run_update_bind] at h
  cases hanswer : context.runner ran (versionProbe program) with
  | ok output =>
    rw [hanswer] at h
    obtain ⟨hfound, hran⟩ := Prod.mk.inj h
    refine ⟨hran.symm, ?_⟩
    rw [← Except.ok.inj hfound]
    simp
  | error failure =>
    rw [hanswer] at h
    cases failure with
    | notFound detail =>
      obtain ⟨hfound, hran⟩ := Prod.mk.inj h
      refine ⟨hran.symm, ?_⟩
      rw [← Except.ok.inj hfound]
      simp
    | failed error => cases (Prod.mk.inj h).1

theorem run_runCommand_ok {command : EnvironmentCommand} {output : EnvironmentCommandOutput}
    (h : (runCommand context command).run ran = (.ok output, ran')) :
    context.runner ran command = .ok output := by
  replace h : (attemptCommand context command >>= _).run ran = (.ok output, ran') := h
  unfold attemptCommand at h
  rw [Prog.run_update_bind] at h
  cases hanswer : context.runner ran command with
  | ok found =>
    rw [hanswer] at h
    exact congrArg Except.ok (Except.ok.inj (Prod.mk.inj h).1)
  | error failure =>
    rw [hanswer] at h
    cases (Prod.mk.inj h).1

/-- A shell is ready when there is a Nix, a flake, and the check in its shell succeeds. -/
theorem run_runNixDevelopHealthcheck_ok {arguments : List String} {nixAvailable : Bool}
    {report : NixDevelopHealthcheck}
    (h : (runNixDevelopHealthcheck context arguments nixAvailable).run ran =
      (.ok report, ran')) :
    report.shellReady = true ↔ nixAvailable = true ∧
      context.tree.isFile "flake.nix" = true ∧
      CommandSucceeds context ran { program := "nix", args := nixDevelopCommand arguments } := by
  unfold CommandSucceeds
  cases nixAvailable with
  | false =>
    obtain rfl : _ = report := Except.ok.inj (Prod.mk.inj h).1
    simp
  | true =>
    cases hflake : context.tree.isFile "flake.nix" with
    | false =>
      unfold runNixDevelopHealthcheck at h
      rw [hflake] at h
      obtain rfl : _ = report := Except.ok.inj (Prod.mk.inj h).1
      simp
    | true =>
      unfold runNixDevelopHealthcheck at h
      rw [hflake] at h
      replace h : (runCommand context _ >>= _).run ran = (.ok report, ran') := h
      obtain ⟨output, u, houtput, hreport⟩ := (Prog.run_bind_ok _ _ _ _ _).mp h
      obtain rfl : _ = report := Except.ok.inj (Prod.mk.inj hreport).1
      rw [run_runCommand_ok houtput]
      simp

theorem run_inspectNixEnvironment_ok {fingerprint : Except DevRelayError (Option String)}
    {arguments : List String} {report : NixAdapterReport}
    (h : (inspectNixEnvironment context fingerprint arguments).run ran = (.ok report, ran')) :
    (report.nixAvailable = true ↔ CommandSucceeds context ran (versionProbe "nix")) ∧
      (report.healthcheck.shellReady = true ↔ report.nixAvailable = true ∧
        context.tree.isFile "flake.nix" = true ∧
        CommandSucceeds context (ran ++ [versionProbe "nix"])
          { program := "nix", args := nixDevelopCommand arguments }) := by
  unfold inspectNixEnvironment at h
  obtain ⟨found, u, hprobe, hrest⟩ := (Prog.run_bind_ok _ _ _ _ _).mp h
  obtain ⟨rfl, hfound⟩ := run_probe_ok hprobe
  obtain ⟨flakeFingerprint, -, hrest⟩ := (Prog.run_ofExcept_bind_ok _ _ _ _ _).mp hrest
  obtain ⟨healthcheck, u, hhealth, hreport⟩ := (Prog.run_bind_ok _ _ _ _ _).mp hrest
  obtain rfl : _ = report := Except.ok.inj (Prod.mk.inj hreport).1
  exact ⟨hfound, run_runNixDevelopHealthcheck_ok hhealth⟩

end

section

variable {isMatch : String → String → Bool} {debug : SchedulerConstraintRejection → String}
  {definition : TaskDefinition} {device : SchedulerDeviceSnapshot} {nix : NixAdapterReport}
  {options : NixDelegationOptions} {plan : NixDelegationPlan} {name : List Char}

theorem planNixDelegation_cases
    (h : planNixDelegation isMatch debug definition device nix options = .ok plan) :
    (definition.profileKind = .nix ∧ Eligible isMatch definition device ∧
        nix.nixAvailable = true ∧ nix.healthcheck.shellReady = true ∧
        plan = delegatedPlan definition device nix options) ∨
      (¬(definition.profileKind = .nix ∧ Eligible isMatch definition device ∧
          nix.nixAvailable = true ∧ nix.healthcheck.shellReady = true) ∧
        ∃ decision explanation, plan = disabledPlan decision definition device explanation) := by
  unfold planNixDelegation at h
  obtain ⟨-, -, h⟩ := bind_eq_ok_iff.mp h
  obtain ⟨-, -, h⟩ := bind_eq_ok_iff.mp h
  split at h
  · rename_i hkind
    exact Or.inr ⟨fun hall => hkind hall.1, _, _, (Except.ok.inj h).symm⟩
  · rename_i hkind
    split at h
    · rename_i heligible
      exact Or.inr ⟨fun hall => heligible hall.2.1, _, _, (Except.ok.inj h).symm⟩
    · rename_i heligible
      split at h
      · rename_i havailable
        exact Or.inr ⟨fun hall => havailable hall.2.2.1, _, _, (Except.ok.inj h).symm⟩
      · rename_i havailable
        split at h
        · rename_i hready
          exact Or.inr ⟨fun hall => hready hall.2.2.2, _, _, (Except.ok.inj h).symm⟩
        · rename_i hready
          exact Or.inl ⟨not_not.mp hkind, not_not.mp heligible, not_not.mp havailable,
            not_not.mp hready, (Except.ok.inj h).symm⟩

theorem NixIdentifier.slash_notMem (h : NixIdentifier name) : '/' ∉ name := by
  intro hmem
  exact absurd (h.chars _ hmem) (by decide)

/-- An identifier with the ending of a Nix file is the name of a file. -/
theorem NixIdentifier.components_file (h : NixIdentifier name) :
    components (String.ofList (name ++ nixEnding)) =
      [.normal (String.ofList (name ++ nixEnding))] := by
  have hlength : 4 ≤ (name ++ nixEnding).length := by
    rw [List.length_append]
    exact Nat.le_add_left 4 _
  apply components_of_name
  · rw [List.mem_append, not_or]
    exact ⟨h.slash_notMem, by decide⟩
  · intro hnil
    rw [hnil] at hlength
    exact absurd hlength (by decide)
  · intro hdot
    rw [hdot] at hlength
    exact absurd hlength (by decide)
  · intro hdots
    rw [hdots] at hlength
    exact absurd hlength (by decide)

theorem isSpace_of_start {c : Char} (h : c.isLower = true ∨ c = '_') : isSpace c = false := by
  rcases h with h | rfl
  · have hbounds := isLower_iff.mp h
    simp only [isSpace, Bool.or_eq_false_iff, Bool.and_eq_false_iff, decide_eq_false_iff_not]
    omega
  · decide

theorem NixIdentifier.validate_file (h : NixIdentifier name) :
    validateBuilderFileName (String.ofList (name ++ nixEnding)) = .ok () := by
  have hfront : (trim (name ++ nixEnding)).isEmpty = false := by
    obtain ⟨c, rest, rfl, hstart⟩ := h.starts
    rw [List.isEmpty_eq_false_iff]
    exact trim_ne_nil (isSpace_of_start hstart) _
  have hsuffix : nixEnding.isSuffixOf (name ++ nixEnding) = true :=
    List.isSuffixOf_iff_suffix.mpr (List.suffix_append ..)
  unfold validateBuilderFileName
  rw [h.components_file, String.toList_ofList, hfront, hsuffix]
  rfl

/-- The file of a builder lies right below `.devrelay/nix`. -/
theorem NixIdentifier.write_file (h : NixIdentifier name) (root : String)
    {builderSet : NixTemporaryBuilderSet}
    (hname : builderSet.fileName = String.ofList (name ++ nixEnding)) :
    ∃ path, writeNixTemporaryBuilderSet root builderSet = .ok (path, builderSet.expression) ∧
      steps path = steps root ++
        [.normal ".devrelay", .normal "nix", .normal builderSet.fileName] := by
  have hsteps : steps builderSet.fileName = [.normal builderSet.fileName] := by
    unfold steps
    rw [hname, h.components_file]
    rfl
  have hrelative : isAbsolute builderSet.fileName = false := by
    rw [Bool.eq_false_iff, Ne, isAbsolute_iff, hsteps]
    simp
  have hdir : steps nixDelegationDir = [.normal ".devrelay", .normal "nix"] := by decide
  refine ⟨join (join root nixDelegationDir) builderSet.fileName, ?_, ?_⟩
  · unfold writeNixTemporaryBuilderSet
    rw [hname, h.validate_file]
    rfl
  · rw [steps_join hrelative, steps_join (by decide), hdir, hsteps, List.append_assoc]
    rfl

/-- What a device showed before a task is delegated to it: its `nix` answered, it has the
flake, and the check in the shell of the flake succeeded. -/
def ShowedNix (context : AdapterContext) (ran : List EnvironmentCommand)
    (arguments : List String) : Prop :=
  CommandSucceeds context ran (versionProbe "nix") ∧ context.tree.isFile "flake.nix" = true ∧
    CommandSucceeds context (ran ++ [versionProbe "nix"])
      { program := "nix", args := nixDevelopCommand arguments }

/-- A builder whose file can be written, and the commands that name it. -/
structure BuildsWith (plan : NixDelegationPlan) (builderSet : NixTemporaryBuilderSet)
    (options : NixDelegationOptions) : Prop where
  attr : NixIdentifier builderSet.attrName.toList
  file : builderSet.fileName.toList = builderSet.attrName.toList ++ nixEnding
  writes : ∀ root, ∃ path,
    writeNixTemporaryBuilderSet root builderSet = .ok (path, builderSet.expression) ∧
      steps path = steps root ++
        [.normal ".devrelay", .normal "nix", .normal builderSet.fileName]
  logs : plan.remoteLogs.command = ["nix", "build", "--print-build-logs", "--file",
    builderSet.fileName, builderSet.attrName]
  publishes : plan.lanBinaryCache.command = (options.lanBinaryCache.map fun storeUri =>
    ["nix", "copy", "--to", storeUri, "--file", builderSet.fileName,
      builderSet.attrName]).getD []

theorem buildsWith_delegatedPlan :
    BuildsWith (delegatedPlan definition device nix options)
      (temporaryBuilderSet definition options) options where
  attr := by
    unfold temporaryBuilderSet
    rw [String.toList_ofList]
    exact nixIdentifier_sanitize _
  file := by
    unfold temporaryBuilderSet
    rw [String.toList_ofList, String.toList_ofList]
  writes root := (nixIdentifier_sanitize _).write_file root rfl
  logs := rfl
  publishes := by
    show (lanBinaryCachePublishPlan _ options).command = _
    unfold lanBinaryCachePublishPlan
    cases options.lanBinaryCache with
    | none => rfl
    | some storeUri => rfl

/-- Delegation fails closed: a task goes to a builder exactly when it is a Nix task, the
device can take it and showed that its Nix works; a plan for anything else has no builder
and no command. -/
theorem nixDelegation_law {context : AdapterContext} {ran ran' : List EnvironmentCommand}
    {fingerprint : Except DevRelayError (Option String)} {arguments : List String}
    (hinspect : (inspectNixEnvironment context fingerprint arguments).run ran = (.ok nix, ran'))
    (hplan : planNixDelegation isMatch debug definition device nix options = .ok plan) :
    (plan.delegated = true ↔ definition.profileKind = .nix ∧
        Eligible isMatch definition device ∧ ShowedNix context ran arguments) ∧
      (plan.delegated = true → ∃ builderSet, plan.builderSet = some builderSet ∧
        BuildsWith plan builderSet options) ∧
      (plan.delegated = false → plan.builderSet = none ∧ plan.remoteLogs.command = [] ∧
        plan.lanBinaryCache.command = []) := by
  obtain ⟨havailable, hready⟩ := run_inspectNixEnvironment_ok hinspect
  have hshowed : nix.nixAvailable = true ∧ nix.healthcheck.shellReady = true ↔
      ShowedNix context ran arguments := by
    rw [hready, havailable]
    exact ⟨fun h => h.2, fun h => ⟨h.1, h⟩⟩
  rcases planNixDelegation_cases hplan with ⟨hkind, heligible, hnix, hshell, rfl⟩ |
    ⟨hnot, decision, explanation, rfl⟩
  · refine ⟨?_, fun _ => ⟨_, rfl, buildsWith_delegatedPlan⟩, fun h => by cases h⟩
    exact ⟨fun _ => ⟨hkind, heligible, hshowed.mp ⟨hnix, hshell⟩⟩, fun _ => rfl⟩
  · refine ⟨?_, fun h => (by cases h), fun _ => ⟨rfl, rfl, rfl⟩⟩
    constructor
    · intro h
      cases h
    · intro ⟨hkind, heligible, h⟩
      exact absurd ⟨hkind, heligible, hshowed.mpr h⟩ hnot

end

def nixTask : TaskDefinition where
  projectId := "project"
  taskName := "Build All!"
  profileName := "dev"
  profileKind := .nix
  command := ["cargo", "build"]
  platforms := []
  cpu := none
  memoryMib := none
  diskMib := none
  interactive := false
  cache := none
  outputs := ["dist/**"]
  features := []
  sandbox := none
  commandDefinitionHash := "hash"

def nixDevice : SchedulerDeviceSnapshot where
  deviceId := "device"
  platformKey := "darwin-arm64"
  cpuCores := 8
  memoryTotalMib := none
  diskTotalMib := none
  features := []
  policy := ⟨true, none⟩
  dynamic := ⟨none, none, none, .ac, false, .idle, .good⟩

/-- A machine with a flake, where every command succeeds. -/
def nixMachine : AdapterContext where
  root := "/repo"
  tree := ⟨fun path => path = "flake.nix", fun _ => .error "not readable"⟩
  runner := fun _ _ => .ok ⟨some 0, "", "", false⟩
  digest := zeroDigest
  redactText := id

def readyReport : NixAdapterReport :=
  ⟨true, none, ⟨.shellReady, nixDevelopCommand [], true, some 0, "", "", ""⟩⟩

def nixOptions : NixDelegationOptions := ⟨".", "devrelay build", some "ssh://cache"⟩

theorem nixDelegation_law_demo :
    (delegatedPlan nixTask nixDevice readyReport nixOptions).delegated = true ↔
      nixTask.profileKind = .nix ∧ Eligible (fun _ _ => false) nixTask nixDevice ∧
        ShowedNix nixMachine [] [] :=
  have hinspect : (inspectNixEnvironment nixMachine (.ok none) []).run [] =
      (.ok readyReport, [versionProbe "nix",
        { program := "nix", args := nixDevelopCommand [] }]) := rfl
  have hplan : planNixDelegation (fun _ _ => false) (fun _ => "") nixTask nixDevice readyReport
      nixOptions = .ok (delegatedPlan nixTask nixDevice readyReport nixOptions) := rfl
  (nixDelegation_law hinspect hplan).1

end DevRelay.Tasks
