import DevRelay.Core.Policy
import DevRelay.Lib.LinkExpansion

/-!
# Where included symlinks lead

`symlink_target_escapes_workspace` reads the target of a symlink as a text.  The
file system follows the symlinks on the way, so the text that counts is the one
with the target of each of them in its place.
-/

namespace DevRelay.Core

open DevRelay.Lib

/-- One turn of the loop; `none` when the path is given up. -/
def pushComponent (normalized : List String) : Component → Option (List String)
  | .curDir => some normalized
  | .normal part => some (normalized ++ [part])
  | .parentDir => if normalized = [] then none else some normalized.dropLast
  | .rootDir => none

def normalizeWorkspaceRelativePath (path : List Component) : Option (List String) :=
  path.foldlM pushComponent []

/-- The components of `link_parent.join(target)`, but for a leading `.` of the target. -/
def targetFromWorkspace (path target : String) : List Component :=
  (parent? (components path)).getD [] ++ components target

def symlinkTargetEscapesWorkspace (tree : FileTree) (repoRoot : Location) (path : String) : Bool :=
  match tree.lstat repoRoot path with
  | some (.symlink target) =>
    if isAbsolute target then true
    else (normalizeWorkspaceRelativePath (targetFromWorkspace path target)).isNone
  | _ => false

/-! ## The check -/

theorem isSome_foldlM_pushComponent (normalized : List String) (path : List Component) :
    (path.foldlM pushComponent normalized).isSome = staysBelow normalized.length path := by
  induction path generalizing normalized with
  | nil => cases normalized <;> rfl
  | cons component rest ih =>
    rw [List.foldlM_cons]
    cases component with
    | rootDir => cases normalized <;> rfl
    | curDir =>
      show (rest.foldlM pushComponent normalized).isSome = _
      rw [ih]
      cases normalized <;> rfl
    | parentDir =>
      rcases List.eq_nil_or_concat normalized with rfl | ⟨front, last, rfl⟩
      · rfl
      · have hpush : pushComponent (front.concat last) .parentDir = some front := by
          rw [List.concat_eq_append, pushComponent, if_neg (by simp),
            List.dropLast_concat]
        rw [hpush, List.length_concat]
        exact ih front
    | normal part =>
      show (rest.foldlM pushComponent (normalized ++ [part])).isSome = _
      rw [ih, List.length_append, List.length_singleton]
      cases normalized <;> rfl

theorem normalizeWorkspaceRelativePath_ne_none (path : List Component) :
    normalizeWorkspaceRelativePath path ≠ none ↔ staysBelow 0 path = true := by
  rw [← Option.isSome_iff_ne_none, normalizeWorkspaceRelativePath, isSome_foldlM_pushComponent]
  rfl

/-! ## Symlinks of a workspace -/

/-- The path, as `git` reports it, of a symlink of the workspace. -/
structure SymlinkAt (workspace : FileTree) (path : String) (names : List String)
    (target : String) : Prop where
  plain : Plain (components path) names
  last : (FileTree.lastComponent? path).isSome = true
  directories : ∀ front, front ≠ [] → front <+: names → front ≠ names →
    workspace.node (front.map workspace.fold) = some .directory
  link : workspace.node (names.map workspace.fold) = some (.symlink target)

section

variable {workspace : FileTree} {path target : String} {names : List String}

/-- Wherever the workspace is kept, the symlink is what is found under the path. -/
theorem SymlinkAt.lstat (h : SymlinkAt workspace path names target) (place : Place) :
    (place.world workspace).lstat place.root path = some (.symlink target) := by
  obtain ⟨component, hlast⟩ := Option.isSome_iff_exists.mp h.last
  have hend := FileTree.getLast?_of_lastComponent? hlast
  have hplain : components path = names.map .normal := h.plain
  rw [hplain, List.getLast?_map] at hend
  obtain ⟨name, hname, rfl⟩ := Option.map_eq_some_iff.mp hend
  obtain ⟨front, rfl⟩ := List.getLast?_eq_some_iff.mp hname
  have hlocate : (place.world workspace).locate place.root (components path).dropLast =
      some (place.root ++ front.map workspace.fold) := by
    rw [hplain, List.map_append, List.map_singleton, List.dropLast_concat]
    apply FileTree.walk_of_directories
    intro part hne hpart
    rw [FileTree.fold_world, FileTree.node_world_inside]
    apply h.directories part hne (hpart.trans (List.prefix_append front [name]))
    intro heq
    have hlength := hpart.length_le
    rw [heq, List.length_append, List.length_singleton] at hlength
    omega
  have hlink := h.link
  rw [List.map_append, List.map_singleton] at hlink
  unfold FileTree.lstat
  rw [hlast]
  dsimp only
  rw [hlocate, Option.bind_some, List.append_assoc, FileTree.fold_world,
    FileTree.node_world_inside, hlink]

/-- The policy asks only for the target, as a text. -/
theorem SymlinkAt.escapes (h : SymlinkAt workspace path names target) (place : Place) :
    symlinkTargetEscapesWorkspace (place.world workspace) place.root path = true ↔
      isAbsolute target = true ∨
        normalizeWorkspaceRelativePath (targetFromWorkspace path target) = none := by
  unfold symlinkTargetEscapesWorkspace
  rw [h.lstat place]
  dsimp only
  cases isAbsolute target with
  | true => simp
  | false => simp

/-- Wherever the workspace is kept: under a policy that includes the path, it leads to a place
inside the workspace. -/
def IncludedStaysInside (workspace : FileTree) (path : String) : Prop :=
  ∀ (place : Place) (context : ClassificationContext),
    context.probes.symlinkTargetEscapes path =
      symlinkTargetEscapesWorkspace (place.world workspace) place.root path →
    (classifyOne context path).decision = .include →
    ∀ location, (place.world workspace).locate place.root (components path) = some location →
      place.root <+: location

/-- The check lets the path and the target through. -/
def PassesCheck (path target : String) : Prop :=
  secretPathReason path = none ∧ isAbsolute target = false ∧
    normalizeWorkspaceRelativePath (targetFromWorkspace path target) ≠ none

/-- So it does with the way of the path, the target of each symlink written in its place. -/
def ExpansionPassesCheck (workspace : FileTree) (path : String) : Prop :=
  ∀ word, workspace.expand FileTree.maxLinks [] (components path) = some word →
    normalizeWorkspaceRelativePath word ≠ none

theorem expansionPassesCheck_iff :
    ExpansionPassesCheck workspace path ↔
      workspace.Below FileTree.maxLinks [] (components path) := by
  unfold ExpansionPassesCheck FileTree.Below
  simp only [normalizeWorkspaceRelativePath_ne_none, List.length_nil]

theorem passesCheck_of_include (h : SymlinkAt workspace path names target) {place : Place}
    {context : ClassificationContext} (hprobe : context.probes.symlinkTargetEscapes path =
      symlinkTargetEscapesWorkspace (place.world workspace) place.root path)
    (hinclude : (classifyOne context path).decision = .include) : PassesCheck path target := by
  unfold classifyOne at hinclude
  cases hsecret : secretPathReason path with
  | some reason =>
    rw [hsecret] at hinclude
    cases hinclude
  | none =>
    rw [hsecret] at hinclude
    dsimp only at hinclude
    split at hinclude
    · cases hinclude
    · split at hinclude
      · cases hinclude
      · split at hinclude
        · cases hinclude
        · rename_i hescapes
          rw [hprobe, h.escapes place, not_or, Bool.not_eq_true] at hescapes
          exact ⟨hsecret, hescapes⟩

/-- A policy that takes everything but what a check finds. -/
def takesAll (escapes : String → Bool) : ClassificationContext where
  probes := {
    reparsePoint := fun _ => false
    symlinkTargetEscapes := escapes
    secretContentReason := fun _ _ => none
    exceedsThreshold := fun _ _ => false }
  policy := .safe
  exclude _ := false
  «include» _ := false
  scanner := ⟨[], [], []⟩
  userSecretPaths _ := false
  thresholdBytes := 0

theorem include_of_passesCheck (h : SymlinkAt workspace path names target) (place : Place)
    (hpasses : PassesCheck path target) :
    (classifyOne (takesAll (symlinkTargetEscapesWorkspace (place.world workspace) place.root))
      path).decision = .include := by
  obtain ⟨hsecret, hrelative, hnormal⟩ := hpasses
  have hescapes : symlinkTargetEscapesWorkspace (place.world workspace) place.root path =
      false := by
    rw [← Bool.not_eq_true, h.escapes place, not_or, Bool.not_eq_true]
    exact ⟨hrelative, hnormal⟩
  unfold classifyOne
  rw [hsecret]
  simp [takesAll, hescapes, classifyByPolicy, included]

/-- An included symlink stays inside exactly when the check would also let the whole way
through that the file system goes. -/
theorem included_symlink_staysInside_iff (h : SymlinkAt workspace path names target) :
    IncludedStaysInside workspace path ↔
      (PassesCheck path target → ExpansionPassesCheck workspace path) := by
  constructor
  · intro hstays hpasses
    rw [expansionPassesCheck_iff, ← FileTree.inside_everywhere_iff]
    intro place location hlocate
    exact hstays place (takesAll _) rfl (include_of_passesCheck h place hpasses) location hlocate
  · intro hcheck place context hprobe hinclude location hlocate
    have hbelow := hcheck (passesCheck_of_include h hprobe hinclude)
    rw [expansionPassesCheck_iff, ← FileTree.inside_everywhere_iff] at hbelow
    exact hbelow place location hlocate

end

/-- `sub/x/y` leads to the workspace, so that `sub/x/y/..` is the directory above it; `sub/x/z`
leads through the link `lib` back to its own directory. -/
def linkedWorkspace : FileTree where
  node location :=
    if location = ["sub"] ∨ location = ["sub", "x"] then some .directory
    else if location = ["sub", "x", "y"] then some (.symlink "../..")
    else if location = ["lib"] then some (.symlink "sub")
    else if location = ["sub", "x", "z"] then some (.symlink "../../lib/x")
    else if location = ["p"] then some (.symlink "sub/x/y/..")
    else none
  fold := id

theorem symlinkAt_nested :
    SymlinkAt linkedWorkspace "sub/x/z" ["sub", "x", "z"] "../../lib/x" where
  plain := show components _ = _ by decide
  last := by decide
  directories front hne hfront hall := by
    have hdirectories : ∀ front ∈ ["sub", "x", "z"].inits, front ≠ [] →
        front ≠ ["sub", "x", "z"] →
          linkedWorkspace.node (front.map linkedWorkspace.fold) = some .directory := by
      decide
    exact hdirectories front ((List.mem_inits _ _).mpr hfront) hne hall
  link := by decide

theorem symlinkAt_top : SymlinkAt linkedWorkspace "p" ["p"] "sub/x/y/.." where
  plain := show components _ = _ by decide
  last := by decide
  directories front hne hfront hall := by
    have hdirectories : ∀ front ∈ ["p"].inits, front ≠ [] → front ≠ ["p"] →
        linkedWorkspace.node (front.map linkedWorkspace.fold) = some .directory := by
      decide
    exact hdirectories front ((List.mem_inits _ _).mpr hfront) hne hall
  link := by decide

/-- A link whose way goes up to the workspace and down again through another link. -/
theorem included_symlink_staysInside_iff_nested :
    IncludedStaysInside linkedWorkspace "sub/x/z" := by
  refine (included_symlink_staysInside_iff symlinkAt_nested).mpr fun _ word hword => ?_
  have hexpanded : linkedWorkspace.expand FileTree.maxLinks [] (components "sub/x/z") =
      some [.normal "sub", .normal "x", .parentDir, .parentDir, .normal "sub", .normal "x"] := by
    decide +kernel
  rw [hexpanded] at hword
  rw [← Option.some.inj hword]
  decide +kernel

/-- The check reads `sub/x/y/..` as `sub/x`. -/
theorem included_symlink_leaves :
    SymlinkAt linkedWorkspace "p" ["p"] "sub/x/y/.." ∧
      ¬IncludedStaysInside linkedWorkspace "p" := by
  refine ⟨symlinkAt_top, fun hstays => ?_⟩
  have hinclude : (classifyOne (takesAll (symlinkTargetEscapesWorkspace
      ((FileTree.underName "ws").world linkedWorkspace) ["ws"])) "p").decision = .include := by
    decide +kernel
  have hlocate : ((FileTree.underName "ws").world linkedWorkspace).locate ["ws"]
      (components "p") = some [] := by decide +kernel
  have hroot := hstays (FileTree.underName "ws") _ rfl hinclude [] hlocate
  exact absurd hroot (by decide)

end DevRelay.Core
