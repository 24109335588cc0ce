import DevRelay.Lib.PartialMap
import DevRelay.Lib.Statements
import DevRelay.Lib.UnixPath

/-!
# File trees

A file system as what is at each location, with links that are followed when a
path is resolved.  A location is a list of names as the file system keeps them:
`fold` says which spellings of a name it does not tell apart.
-/

namespace DevRelay.Lib

/-- The names from the root down. -/
abbrev Location := List String

inductive Node where
  | directory
  | file (contents : List UInt8) (mode : UInt32)
  | symlink (target : String)
  deriving DecidableEq, Repr

structure FileTree where
  node : Location → Option Node
  /-- the spelling under which a name is looked up -/
  fold : String → String

namespace FileTree

variable {ε : Type}

/-- A resolution fails behind this many links. -/
def maxLinks : Nat := 40

def put (tree : FileTree) (location : Location) (node : Node) : FileTree :=
  { tree with node := assign tree.node location node }

@[simp] theorem node_put_self (tree : FileTree) (location : Location) (node : Node) :
    (tree.put location node).node location = some node := assign_self

theorem node_put_of_ne {tree : FileTree} {location other : Location} {node : Node}
    (h : other ≠ location) : (tree.put location node).node other = tree.node other :=
  assign_of_ne h

@[simp] theorem fold_put (tree : FileTree) (location : Location) (node : Node) :
    (tree.put location node).fold = tree.fold := rfl

def remove (tree : FileTree) (location : Location) : FileTree :=
  { tree with node := fun other => if other = location then none else tree.node other }

/-- Go along a path, and hand over to `follow` at a link.  Only the last name may be missing
or a file. -/
def walk (tree : FileTree) (follow : Location → List Component → Option Location) :
    Location → List Component → Option Location
  | here, [] => some here
  | _, .rootDir :: rest => walk tree follow [] rest
  | here, .curDir :: rest => walk tree follow here rest
  | here, .parentDir :: rest => walk tree follow here.dropLast rest
  | here, .normal name :: rest =>
    match tree.node (here ++ [tree.fold name]) with
    | some .directory => walk tree follow (here ++ [tree.fold name]) rest
    | some (.symlink target) => follow here (components target ++ rest)
    | some (.file _ _) => if rest = [] then some (here ++ [tree.fold name]) else none
    | none => if rest = [] then some (here ++ [tree.fold name]) else none

/-- Resolve a path with at most so many links. -/
def resolve (tree : FileTree) : Nat → Location → List Component → Option Location
  | 0 => walk tree fun _ _ => none
  | links + 1 => walk tree (resolve tree links)

/-- Where a path leads from a directory, links followed. -/
def locate (tree : FileTree) (base : Location) (path : List Component) : Option Location :=
  tree.resolve maxLinks base path

/-- One level of `create_dir_all`: a directory that is there, maybe behind a link, will do. -/
def makeDir? (here : Location) (name : String) (tree : FileTree) : Option FileTree :=
  match tree.node (here ++ [tree.fold name]) with
  | none => some (tree.put (here ++ [tree.fold name]) .directory)
  | some _ =>
    match (tree.locate here [.normal name]).bind tree.node with
    | some .directory => some tree
    | _ => none

/-- `create_dir_all`, one directory at a time. -/
def createDirAll (error : ε) : Location → List Component → Prog FileTree ε Unit
  | _, [] => pure ()
  | _, .rootDir :: rest => createDirAll error [] rest
  | here, .curDir :: rest => createDirAll error here rest
  | here, .parentDir :: rest => createDirAll error here.dropLast rest
  | here, .normal name :: rest => do
    Prog.attempt (makeDir? here name) error
    let next ← Prog.query fun tree => tree.locate here [.normal name]
    createDirAll error (next.getD here) rest

/-- The mode of a new file. -/
def defaultMode : UInt32 := 0o644

/-- Where `fs::write` of a path writes, if it can: not over a directory. -/
def writable? (tree : FileTree) (base : Location) (path : List Component) : Option Location :=
  match tree.locate base path with
  | none => none
  | some location =>
    match tree.node location with
    | some (.file _ _) => some location
    | none => some location
    | _ => none

/-- The file at a location gets new contents, or is made. -/
def writeAt (tree : FileTree) (location : Location) (contents : List UInt8) : FileTree :=
  match tree.node location with
  | some (.file _ mode) => tree.put location (.file contents mode)
  | _ => tree.put location (.file contents defaultMode)

def setMode (tree : FileTree) (location : Location) (mode : UInt32) : FileTree :=
  match tree.node location with
  | some (.file contents _) => tree.put location (.file contents mode)
  | _ => tree

section

variable {tree : FileTree} {here location : Location}

@[simp] theorem fold_setMode {mode : UInt32} : (tree.setMode location mode).fold = tree.fold := by
  unfold setMode
  split
  · rfl
  · rfl

theorem fold_makeDir? {name : String} {made : FileTree}
    (h : makeDir? here name tree = some made) : made.fold = tree.fold := by
  unfold makeDir? at h
  split at h
  · cases h
    rfl
  · split at h
    · cases h
      rfl
    · cases h

end

/-! ## Links -/

/-- Every link of a tree is one of the tree before. -/
def NoNewLinks (before tree : FileTree) : Prop :=
  ∀ location target, tree.node location = some (.symlink target) →
    before.node location = some (.symlink target)

/-- No name of a path is a link. -/
def NoLinkOn (tree : FileTree) : Location → List String → Prop
  | _, [] => True
  | here, name :: rest =>
    (∀ target, tree.node (here ++ [tree.fold name]) ≠ some (.symlink target)) ∧
      NoLinkOn tree (here ++ [tree.fold name]) rest

variable {before tree : FileTree} {here location : Location} {node : Node}

theorem NoNewLinks.put (h : before.NoNewLinks tree) (hnode : ∀ target, node ≠ .symlink target) :
    before.NoNewLinks (tree.put location node) := by
  intro other target hlink
  by_cases hother : other = location
  · rw [hother, node_put_self] at hlink
    exact absurd (Option.some_inj.mp hlink) (hnode target)
  · rw [node_put_of_ne hother] at hlink
    exact h other target hlink

theorem NoNewLinks.writeAt {contents : List UInt8} (h : before.NoNewLinks tree) :
    before.NoNewLinks (tree.writeAt location contents) := by
  unfold FileTree.writeAt
  split
  · exact h.put (by simp)
  · exact h.put (by simp)

theorem NoNewLinks.setMode {mode : UInt32} (h : before.NoNewLinks tree) :
    before.NoNewLinks (tree.setMode location mode) := by
  unfold FileTree.setMode
  split
  · exact h.put (by simp)
  · exact h

theorem NoNewLinks.makeDir? {name : String} {made : FileTree} (h : before.NoNewLinks tree)
    (hmade : FileTree.makeDir? here name tree = some made) : before.NoNewLinks made := by
  unfold FileTree.makeDir? at hmade
  split at hmade
  · cases hmade
    exact h.put (by simp)
  · split at hmade
    · cases hmade
      exact h
    · cases hmade

theorem NoLinkOn.of_noNewLinks {names : List String} (h : before.NoLinkOn here names)
    (hlinks : before.NoNewLinks tree) (hfold : tree.fold = before.fold) :
    tree.NoLinkOn here names := by
  induction names generalizing here with
  | nil => trivial
  | cons name rest ih =>
    unfold NoLinkOn at h ⊢
    rw [hfold]
    exact ⟨fun target hlink => h.1 target (hlinks _ _ hlink), ih h.2⟩

/-- Plain names lead where they say. -/
theorem walk_of_noLinkOn {follow : Location → List Component → Option Location}
    {names : List String} (h : tree.NoLinkOn here names)
    (hwalk : tree.walk follow here (names.map .normal) = some location) :
    location = here ++ names.map tree.fold := by
  induction names generalizing here with
  | nil =>
    cases hwalk
    rw [List.map_nil, List.append_nil]
  | cons name rest ih =>
    rw [List.map_cons, walk] at hwalk
    have hlast : ∀ {found : Option Location},
        (if rest.map Component.normal = [] then some (here ++ [tree.fold name]) else none) =
          found → found = some location → location = here ++ (name :: rest).map tree.fold := by
      rintro found rfl hfound
      split at hfound
      · rename_i hrest
        rw [List.map_eq_nil_iff] at hrest
        rw [hrest]
        exact (Option.some_inj.mp hfound).symm
      · cases hfound
    split at hwalk
    · rw [ih h.2 hwalk, List.append_assoc, List.singleton_append, List.map_cons]
    · rename_i target hlink
      exact absurd hlink (h.1 _)
    · exact hlast rfl hwalk
    · exact hlast rfl hwalk

theorem locate_of_noLinkOn {path : List Component} {names : List String}
    (h : tree.NoLinkOn here names) (hpath : Plain path names)
    (hlocate : tree.locate here path = some location) :
    location = here ++ names.map tree.fold := by
  rw [hpath] at hlocate
  exact walk_of_noLinkOn h hlocate

theorem createDirAll_ensures {error : ε} {J : FileTree → Prop}
    (hJ : ∀ here name tree made, J tree → makeDir? here name tree = some made → J made)
    (path : List Component) (h : J tree) :
    (createDirAll error here path).Ensures J (fun _ _ => True) tree := by
  induction path generalizing here tree with
  | nil => exact Prog.ensures_pure trivial
  | cons first rest ih =>
    cases first with
    | rootDir => exact ih h
    | curDir => exact ih h
    | parentDir => exact ih h
    | normal name =>
      rw [createDirAll]
      apply Prog.ensures_attempt_bind h
      intro made hmade
      have hkept := hJ here name tree made h hmade
      refine ⟨hkept, ?_⟩
      apply Prog.ensures_query_bind hkept
      exact ih hkept

/-! ## What steps keep -/

/-- A property of file trees that the steps of a writer keep: a directory that is made, a file
that is moved or written to a place without a directory, and the mode of a file. -/
structure KeptBySteps (J : FileTree → Prop) : Prop where
  makeDir : ∀ here name tree made, J tree → makeDir? here name tree = some made → J made
  moved : ∀ tree location contents mode, J tree → tree.node location ≠ some .directory →
    J (tree.put location (.file contents mode))
  setMode : ∀ tree location mode, J tree → J (tree.setMode location mode)

theorem KeptBySteps.writeAt {J : FileTree → Prop} (hJ : KeptBySteps J) {contents : List UInt8}
    (h : J tree) (hnode : tree.node location ≠ some .directory) :
    J (tree.writeAt location contents) := by
  unfold FileTree.writeAt
  split
  · exact hJ.moved _ _ _ _ h hnode
  · exact hJ.moved _ _ _ _ h hnode

theorem notDirectory_of_writable {base : Location} {path : List Component}
    (h : tree.writable? base path = some location) : tree.node location ≠ some .directory := by
  unfold writable? at h
  split at h
  · cases h
  · split at h
    · rename_i hfile
      cases h
      rw [hfile]
      simp
    · rename_i hnone
      cases h
      rw [hnone]
      simp
    · cases h

/-- A directory stays a directory. -/
theorem keptBySteps_directory (root : Location) :
    KeptBySteps fun tree => tree.node root = some .directory where
  makeDir here name tree made h hmade := by
    unfold makeDir? at hmade
    split at hmade
    · rename_i hnone
      cases hmade
      rw [node_put_of_ne, h]
      rintro rfl
      rw [h] at hnone
      cases hnone
    · split at hmade
      · cases hmade
        exact h
      · cases hmade
  moved tree location contents mode h hnode := by
    rw [node_put_of_ne, h]
    rintro rfl
    exact hnode h
  setMode tree location mode h := by
    unfold setMode
    split
    · rename_i hfile
      rw [node_put_of_ne, h]
      rintro rfl
      rw [h] at hfile
      cases hfile
    · exact h

end FileTree

end DevRelay.Lib
