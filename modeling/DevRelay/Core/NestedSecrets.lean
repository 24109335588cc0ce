import DevRelay.Core.Policy

/-!
# Secret paths in subdirectories

`secret_path_reason` reads the last component of a path, and looks for the directory `.ssh`
among its components.  A path that is moved into a subdirectory keeps its last component; the
path `.ssh` itself is found at the top only.
-/

namespace DevRelay.Core

/-- The path as the rules see it. -/
def normalizedPath (path : String) : String := toAsciiLowercase (normalizeRepoPath path)

/-- The rules for the last component. -/
def isSecretName (name : List Char) : Bool := isSecretFilename name || isPrivateKeyFilename name

theorem secretPathReason_isSome (path : String) :
    (secretPathReason path).isSome =
      (isSecretName (basename (normalizedPath path)) || isSshPath (normalizedPath path)) := by
  unfold secretPathReason isSecretName normalizedPath
  dsimp only
  cases isSecretFilename (basename (toAsciiLowercase (normalizeRepoPath path))) <;>
    cases isPrivateKeyFilename (basename (toAsciiLowercase (normalizeRepoPath path))) <;>
    cases isSshPath (toAsciiLowercase (normalizeRepoPath path)) <;> rfl

/-! ## Components -/

/-- The word is a component of the path. -/
def HasComponent (word path : List Char) : Prop := '/' :: word ++ ['/'] <:+: '/' :: path ++ ['/']

theorem startsWith_iff {text : List Char} {word : String} :
    startsWith text word = true ↔ word.toList <+: text := List.isPrefixOf_iff_prefix

theorem containsWord_iff {text : List Char} {word : String} :
    containsWord text word = true ↔ word.toList <:+: text := by
  rw [containsWord, List.any_eq_true, List.infix_iff_prefix_suffix]
  simp only [startsWith_iff, List.mem_tails]
  exact exists_congr fun tail => and_comm

theorem isSshPath_iff {normalized : String} :
    isSshPath normalized = true ↔
      normalized = ".ssh" ∨ "/.ssh/".toList <:+: '/' :: normalized.toList := by
  have hfront : ".ssh/".toList <+: normalized.toList ↔
      "/.ssh/".toList <+: '/' :: normalized.toList := by
    show _ ↔ '/' :: ".ssh/".toList <+: _
    rw [List.cons_prefix_cons, and_iff_right rfl]
  rw [isSshPath, Bool.or_eq_true, Bool.or_eq_true, decide_eq_true_eq, startsWith_iff,
    containsWord_iff, List.infix_cons_iff, hfront, or_assoc]

/-- A text that ends in a slash and occurs before a component occurs in front of it. -/
theorem infix_of_infix_append {word rest tail : List Char} (hslash : '/' ∉ tail)
    (h : word ++ ['/'] <:+: rest ++ tail) : word ++ ['/'] <:+: rest := by
  obtain ⟨before, after, heq⟩ := h
  rcases List.append_eq_append_iff.mp heq with ⟨middle, hrest, -⟩ | ⟨middle, hword, htail⟩
  · exact ⟨before, middle, hrest.symm⟩
  · rcases List.eq_nil_or_concat middle with rfl | ⟨start, c, rfl⟩
    · rw [List.append_nil] at hword
      exact ⟨before, [], by rw [List.append_nil, hword]⟩
    · rw [List.concat_eq_append, ← List.append_assoc, ← List.append_assoc] at hword
      have hlast := congrArg List.getLast? hword
      rw [List.getLast?_concat, List.getLast?_concat] at hlast
      have hc : c = '/' := (Option.some.inj hlast).symm
      have hmem : '/' ∈ tail := by
        rw [htail, hc]
        simp
      exact absurd hmem hslash

/-! ## Joined paths -/

theorem normalizedPath_join (dir path : String) :
    (normalizedPath (dir ++ "/" ++ path)).toList =
      (normalizedPath dir).toList ++ '/' :: (normalizedPath path).toList := by
  unfold normalizedPath toAsciiLowercase normalizeRepoPath
  simp only [String.toList_ofList, String.toList_append, List.map_append]
  rw [List.append_assoc]
  rfl

theorem takeWhile_append_cons {p : Char → Bool} {c : Char} (hstop : p c = false)
    (before after : List Char) :
    (before ++ c :: after).takeWhile p = before.takeWhile p := by
  induction before with
  | nil => rw [List.nil_append, List.takeWhile_cons, hstop, List.takeWhile_nil]; rfl
  | cons d before ih =>
    rw [List.cons_append, List.takeWhile_cons, List.takeWhile_cons, ih]

/-- A path keeps its last component. -/
theorem basename_join (dir path : String) :
    basename (normalizedPath (dir ++ "/" ++ path)) = basename (normalizedPath path) := by
  unfold basename
  rw [normalizedPath_join, List.reverse_append, List.reverse_cons, List.append_assoc,
    List.singleton_append, takeWhile_append_cons]
  exact decide_eq_false (not_not_intro rfl)

/-- A path under `.ssh` stays one, except for `.ssh` itself. -/
theorem isSshPath_join {dir path : String} (h : isSshPath (normalizedPath path) = true) :
    isSshPath (normalizedPath (dir ++ "/" ++ path)) = true ↔
      (normalizedPath path = ".ssh" → HasComponent ".ssh".toList (normalizedPath dir).toList) := by
  have hlength : normalizedPath (dir ++ "/" ++ path) ≠ ".ssh" ∨
      normalizedPath path ≠ ".ssh" := by
    by_contra hboth
    rw [not_or, not_not, not_not] at hboth
    have hjoin := normalizedPath_join dir path
    rw [hboth.1, hboth.2] at hjoin
    have hcount := congrArg List.length hjoin
    rw [List.length_append, List.length_cons] at hcount
    omega
  rw [isSshPath_iff, normalizedPath_join]
  rcases isSshPath_iff.mp h with htop | hinside
  · rw [or_iff_right (hlength.resolve_right (not_not_intro htop)), htop]
    have hgroup : '/' :: ((normalizedPath dir).toList ++ '/' :: ".ssh".toList) =
        ('/' :: (normalizedPath dir).toList ++ ['/']) ++ ".ssh".toList := by
      rw [List.cons_append, List.cons_append, List.append_assoc, List.singleton_append]
    rw [hgroup]
    constructor
    · intro hfound _
      have hfront : "/.ssh".toList ++ ['/'] <:+: ('/' :: (normalizedPath dir).toList ++ ['/']) ++
          ".ssh".toList := hfound
      exact infix_of_infix_append (by decide) hfront
    · intro hcomponent
      exact (hcomponent rfl).trans (List.prefix_append _ _).isInfix
  · constructor
    · intro _ htop
      rw [htop] at hinside
      exact absurd hinside (by decide)
    · intro _
      refine Or.inr (hinside.trans ?_)
      rw [← List.cons_append]
      exact (List.suffix_append _ _).isInfix

/-! ## Nesting -/

/-- In the directory the path is as secret as outside of it, and no context admits it. -/
def SurvivesNesting (dir path : String) : Prop :=
  (secretPathReason path).isSome = true →
    (secretPathReason (dir ++ "/" ++ path)).isSome = true ∧
      ∀ context, (classifyOne context (dir ++ "/" ++ path)).decision = .exclude

/-- A secret path stays secret in a directory exactly when it is not `.ssh` itself or has `.ssh`
in the directory's path as well. -/
theorem survivesNesting_iff (dir path : String) :
    SurvivesNesting dir path ↔
      (normalizedPath path = ".ssh" →
        HasComponent ".ssh".toList (normalizedPath dir).toList) := by
  have hkept : SurvivesNesting dir path ↔ ((secretPathReason path).isSome = true →
      (secretPathReason (dir ++ "/" ++ path)).isSome = true) := by
    constructor
    · exact fun h hsecret => (h hsecret).1
    · intro h hsecret
      obtain ⟨reason, hreason⟩ := Option.isSome_iff_exists.mp (h hsecret)
      refine ⟨h hsecret, fun context => ?_⟩
      rw [classifyOne_of_secret hreason]
      rfl
  rw [hkept, secretPathReason_isSome, secretPathReason_isSome, basename_join]
  by_cases hname : isSecretName (basename (normalizedPath path)) = true
  · refine iff_of_true (fun _ => by rw [hname, Bool.true_or]) fun htop => ?_
    rw [htop] at hname
    exact absurd hname (by decide)
  · rw [Bool.not_eq_true] at hname
    rw [hname, Bool.false_or, Bool.false_or]
    by_cases hssh : isSshPath (normalizedPath path) = true
    · rw [← isSshPath_join hssh]
      exact ⟨fun h => h hssh, fun h _ => h⟩
    · refine iff_of_true (fun h => absurd h hssh) fun htop => ?_
      rw [htop] at hssh
      exact absurd rfl hssh

/-- A file named `.ssh` is secret at the top and not in a package. -/
theorem nested_ssh_is_admitted : ¬∀ dir path, SurvivesNesting dir path := by
  intro hclaim
  have htop : (secretPathReason ".ssh").isSome = true := by decide
  have hnested : (secretPathReason ("pkg" ++ "/" ++ ".ssh")).isSome = false := by
    decide
  obtain ⟨hsecret, -⟩ := hclaim "pkg" ".ssh" htop
  rw [hnested] at hsecret
  cases hsecret

end DevRelay.Core
