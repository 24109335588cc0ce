import DevRelay.Core.Hashing
import DevRelay.Lib.SortedMap
import Mathlib.Data.Countable.Basic
import Mathlib.Data.String.Basic
import Mathlib.Logic.Encodable.Basic
import Mathlib.Logic.Equiv.List
import Mathlib.Logic.Relation

/-!
# Trees, the index and the files of a work tree

What Git documents about its commands, on trees: a tree is a map from full
paths to modes and blobs, and so are the files on the disk, as Git would record
them.  An index entry can be a mere intent to add a file, which no tree shows.
-/

namespace DevRelay.Git

open Lib

structure TreeEntry where
  mode : String
  blob : String
  deriving DecidableEq, Repr

/-- A tree, or the files of a work tree. -/
abbrev Files := SortedMap String TreeEntry

structure IndexEntry where
  file : TreeEntry
  intentToAdd : Bool
  deriving DecidableEq, Repr

abbrev Index := SortedMap String IndexEntry

def tracked (index : Index) (path : String) : Bool := (index.find? path).isSome

/-- `git write-tree`; an intent to add is not part of the tree. -/
def writeTree (index : Index) : Files :=
  index.filterMap fun _ entry => if entry.intentToAdd then none else some entry.file

/-- The index that `git read-tree` makes of a tree. -/
def readTree (tree : Files) : Index := tree.filterMap fun _ file => some ⟨file, false⟩

/-- `git add -u`: every tracked path takes its file, and one without a file goes. -/
def addUpdate (index : Index) (files : Files) : Index :=
  index.filterMap fun path _ => (files.find? path).map fun file => ⟨file, false⟩

/-- The files after an update from the paths of `index` to those of `tree`;
untracked files stay unless the tree has a file in their place. -/
def updateFiles (index : Index) (tree files : Files) : Files :=
  tree.covering (files.filterMap fun path file => if tracked index path then none else some file)

/-- The characters before the first one that makes a pattern of a path argument. -/
def literalPart (name : String) : String :=
  String.ofList (name.toList.takeWhile fun c => c ∉ ['*', '?', '[', '\\'])

/-- How `git add` reads its path arguments. -/
structure AddPaths where
  /-- the argument is the path, a directory above it, or a pattern that matches it -/
  matchesPath : String → String → Bool
  /-- the arguments select the path, when the paths of the list are looked at in order -/
  selects : List String → List String → String → Bool
  /-- the error of `git add` for these arguments, if it refuses them: a pathspec that
  matches no file, an ignored file named outright, unknown magic -/
  refuses : List String → Index → Files → (String → Bool) → Option String
  /-- "Any path matches itself", where no leading colon changes how an argument is read. -/
  matchesPath_self : ∀ name, name.toList.head? ≠ some ':' → matchesPath name name = true
  /-- An argument that has met the path of its own name matches nothing behind it. -/
  selects_plain : ∀ names paths path, (∀ name ∈ names, name.toList.head? ≠ some ':') →
    selects names paths path = names.any fun name =>
      matchesPath name path && !(paths.contains name && name < path)
  /-- Files that are not ignored are not refused, unless an ignored file has the name of a
  directory above one of them or of what comes before its first special character. -/
  refuses_plain : ∀ names index files ignored,
    (∀ name ∈ names, name.toList.head? ≠ some ':') →
    (∀ name ∈ names, (files.find? name).isSome ∧ ignored name = false) →
    (∀ name ∈ names, ∀ path, (files.find? path).isSome → tracked index path = false →
      ignored path = true →
        path ≠ literalPart name ∧ ¬(path ++ "/").toList <+: name.toList) →
    refuses names index files ignored = none

/-- The untracked paths that are not ignored, in order. -/
def untrackedIn (index : Index) (files : Files) (ignored : String → Bool) : List String :=
  files.keys.filter fun path => !tracked index path && !ignored path

/-- `git add -- names`, where it does not refuse. -/
def addSelected (add : AddPaths) (names : List String) (index : Index) (files : Files)
    (ignored : String → Bool) : Index :=
  let untracked := untrackedIn index files ignored
  let found : Index := files.filterMap fun path file =>
    if if tracked index path then add.selects names [] path
      else add.selects names untracked path && !ignored path then
      some ⟨file, false⟩
    else
      none
  found.covering (index.filterMap fun path entry =>
    if add.selects names [] path && (files.find? path).isNone then none else some entry)

/-! ## Paths one by one -/

variable {index : Index} {tree files : Files} {path : String}

theorem find?_writeTree : (writeTree index).find? path =
    (index.find? path).bind fun entry => if entry.intentToAdd then none else some entry.file :=
  SortedMap.find?_filterMap ..

theorem find?_readTree :
    (readTree tree).find? path = (tree.find? path).map fun file => ⟨file, false⟩ := by
  rw [readTree, SortedMap.find?_filterMap]
  exact (Option.map_eq_bind ..).symm

theorem tracked_readTree : tracked (readTree tree) path = (tree.find? path).isSome := by
  rw [tracked, find?_readTree, Option.isSome_map]

/-- A tree that is read is written back. -/
@[simp] theorem writeTree_readTree (tree : Files) : writeTree (readTree tree) = tree := by
  apply SortedMap.ext
  intro path
  rw [find?_writeTree, find?_readTree]
  cases tree.find? path with
  | none => rfl
  | some file => rfl

theorem find?_addUpdate : (addUpdate index files).find? path =
    if tracked index path then (files.find? path).map fun file => ⟨file, false⟩ else none := by
  rw [addUpdate, SortedMap.find?_filterMap, tracked]
  cases index.find? path with
  | none => rfl
  | some entry => rfl

theorem find?_updateFiles : (updateFiles index tree files).find? path =
    (tree.find? path).or (if tracked index path then none else files.find? path) := by
  rw [updateFiles, SortedMap.find?_covering, SortedMap.find?_filterMap]
  congr 1
  cases files.find? path with
  | none => rw [Option.bind_none, ite_self]
  | some file => rfl

theorem find?_addSelected {add : AddPaths} {names : List String} {ignored : String → Bool} :
    (addSelected add names index files ignored).find? path =
      if tracked index path then
        if add.selects names [] path then (files.find? path).map fun file => ⟨file, false⟩
        else index.find? path
      else if add.selects names (untrackedIn index files ignored) path && !ignored path then
        (files.find? path).map fun file => ⟨file, false⟩
      else none := by
  unfold addSelected
  rw [SortedMap.find?_covering, SortedMap.find?_filterMap, SortedMap.find?_filterMap]
  cases htracked : tracked index path with
  | true =>
    cases add.selects names [] path <;> cases files.find? path <;>
      cases index.find? path <;> rfl
  | false =>
    have hnone : index.find? path = none := Option.not_isSome_iff_eq_none.mp (by
      rw [← tracked, htracked]
      decide)
    rw [hnone]
    cases add.selects names (untrackedIn index files ignored) path && !ignored path <;>
      cases files.find? path <;> rfl

/-- The tree that `git add -u` and `git add` of the names leave of an index. -/
def capturedTree (add : AddPaths) (names : List String) (index : Index) (files : Files)
    (ignored : String → Bool) : Files :=
  let updated := addUpdate index files
  writeTree (if names = [] then updated else addSelected add names updated files ignored)

/-- The file under a path as it is captured: tracked, or selected and not ignored. -/
def capturedFile (add : AddPaths) (names : List String) (index : Index) (files : Files)
    (ignored : String → Bool) (path : String) : Option TreeEntry :=
  if tracked index path || (names ≠ [] &&
      add.selects names (untrackedIn index files ignored) path && !ignored path) then
    files.find? path
  else
    none

theorem find?_capturedTree {add : AddPaths} {names : List String} {ignored : String → Bool} :
    (capturedTree add names index files ignored).find? path =
      capturedFile add names index files ignored path := by
  unfold capturedTree capturedFile
  have hupdated : ∀ entry : Option TreeEntry,
      ((entry.map fun file => (⟨file, false⟩ : IndexEntry)).bind fun entry =>
        if entry.intentToAdd then none else some entry.file) = entry := by
    intro entry
    cases entry with
    | none => rfl
    | some file => rfl
  rw [find?_writeTree]
  by_cases hnames : names = []
  · rw [if_pos hnames, find?_addUpdate]
    cases tracked index path with
    | false => simp [hnames]
    | true => simp [hupdated]
  · rw [if_neg hnames, find?_addSelected, find?_addUpdate]
    have htracked : tracked (addUpdate index files) path =
        (tracked index path && (files.find? path).isSome) := by
      rw [tracked, find?_addUpdate]
      cases tracked index path with
      | false => rfl
      | true => simp
    have hsame : untrackedIn (addUpdate index files) files ignored =
        untrackedIn index files ignored := by
      apply List.filter_congr
      intro other hother
      rw [tracked, find?_addUpdate]
      cases hfile : files.find? other with
      | none =>
        rw [SortedMap.mem_keys, hfile] at hother
        cases hother
      | some file => cases tracked index other <;> rfl
    rw [htracked, hsame]
    cases hfile : files.find? path with
    | none => cases tracked index path <;> simp
    | some file =>
      cases tracked index path <;>
        cases add.selects names (untrackedIn index files ignored) path <;>
        cases ignored path <;> simp [hnames]

/-! ## Names and patterns -/

/-- A piece of a pattern; a star stands for any characters, slashes included. -/
inductive PatternPart where
  | star
  | oneOf (set : List Char)

/-- The pieces of a pattern; `set` is what was read of a bracket. -/
def patternParts : Option (List Char) → List Char → List PatternPart
  | none, '*' :: pattern => .star :: patternParts none pattern
  | none, '[' :: pattern => patternParts (some []) pattern
  | none, c :: pattern => .oneOf [c] :: patternParts none pattern
  | some set, ']' :: pattern => .oneOf set :: patternParts none pattern
  | some set, c :: pattern => patternParts (some (c :: set)) pattern
  | _, [] => []

def partsMatch : List PatternPart → List Char → Bool
  | [], text => text = []
  | .star :: parts, text => text.tails.any (partsMatch parts)
  | .oneOf set :: parts, text => text.head?.any set.contains && partsMatch parts text.tail

def globMatchesPath (name path : String) : Bool :=
  name = path || (name ++ "/").toList.isPrefixOf path.toList ||
    partsMatch (patternParts none name.toList) path.toList

/-- An instance of the laws, which gives a meaning to stars and to the characters in a
bracket but not to the other characters of pathspecs. -/
def globPaths : AddPaths where
  matchesPath := globMatchesPath
  selects names paths path := names.any fun name =>
    globMatchesPath name path && !(paths.contains name && name < path)
  refuses names index files ignored :=
    (names.find? fun name => !(files.keys ++ index.keys).any fun path =>
      globMatchesPath name path && (tracked index path || !ignored path)).map fun name =>
        "fatal: pathspec '" ++ name ++ "' did not match any files"
  matchesPath_self name _ := by simp [globMatchesPath]
  selects_plain _ _ _ _ := rfl
  refuses_plain names index files ignored _ hfiles _ := by
    rw [Option.map_eq_none_iff, List.find?_eq_none]
    intro name hname
    obtain ⟨hfile, hignored⟩ := hfiles name hname
    rw [Bool.not_eq_true', Bool.not_eq_false, List.any_eq_true]
    refine ⟨name, List.mem_append_left _ (SortedMap.mem_keys.mpr hfile), ?_⟩
    simp [globMatchesPath, hignored]

end DevRelay.Git

/-!
## Repositories

Commits under their object ids, references, the branch or commit that is
checked out, the index and the files.  An id stands for its object, so that the
objects themselves are the same in all repositories.
-/

namespace DevRelay.Git

open DevRelay.Core DevRelay.Lib

/-- `info` is the author, the committer, their times and the message. -/
structure Commit where
  tree : Files
  parents : List String
  info : String

/-- From `a`, a commit or an annotated tag, parents and tagged objects lead to `b`. -/
def Reaches (commitOf : String → Option Commit) (tagged : String → Option String)
    (a b : String) : Prop :=
  Relation.ReflTransGen (fun c d =>
    (∃ commit, commitOf c = some commit ∧ d ∈ commit.parents) ∨ tagged c = some d) a b

/-- The object ids, and what Git knows of the commits behind them. -/
structure GitObjects where
  treeOid : Files → String
  commitOid : Commit → String
  commitOf : String → Option Commit
  /-- the object of an annotated tag -/
  tagged : String → Option String
  /-- the test for a fast-forward -/
  isAncestor : String → String → Bool
  treeOid_injective : Function.Injective treeOid
  commitOf_commitOid : ∀ commit, commitOf (commitOid commit) = some commit
  treeOid_digits : ∀ tree, (treeOid tree).toList.all isLowerHexdigit = true
  commitOf_digits : ∀ oid commit, commitOf oid = some commit →
    oid.toList.all isLowerHexdigit = true
  treeOid_ne_empty : ∀ tree, treeOid tree ≠ ""
  tagged_commitOid : ∀ commit, tagged (commitOid commit) = none
  reaches_of_isAncestor : ∀ a b, isAncestor a b = true → Reaches commitOf tagged b a

/-- `Reaches`, of the objects that there are. -/
abbrev GitObjects.Reaches (objects : GitObjects) (a b : String) : Prop :=
  Git.Reaches objects.commitOf objects.tagged a b

inductive Head where
  | branch (name : String)
  | detached (oid : String)
  deriving DecidableEq, Repr

structure Repository where
  head : Head
  refs : SortedMap String String
  index : Index
  /-- the paths with unmerged index entries -/
  unmerged : List String
  files : Files
  /-- the operation in progress, if any -/
  operation : Option String
  /-- the exclude rules, which read the files they are applied to -/
  ignored : Files → String → Bool
  /-- `Path::exists` below the work tree, which follows symbolic links -/
  pathExists : Files → String → Bool

def branchRef (name : String) : String := "refs/heads/" ++ name

namespace Repository

def headOid (repo : Repository) : Option String :=
  match repo.head with
  | .branch name => repo.refs.find? (branchRef name)
  | .detached oid => some oid

/-- The branch that is checked out. -/
def currentBranch (repo : Repository) : Option String :=
  match repo.head with
  | .branch name => some name
  | .detached _ => none

/-- The tree of the commit that is checked out. -/
def headTree (objects : GitObjects) (repo : Repository) : Files :=
  match repo.headOid.bind objects.commitOf with
  | some commit => commit.tree
  | none => .empty

/-- `git write-tree` -/
def indexTree (repo : Repository) : Files := writeTree repo.index

/-- The index and the files after the step from the tracked paths to those of `tree`. -/
def update (repo : Repository) (tree : Files) : Repository :=
  { repo with
    index := readTree tree
    unmerged := []
    files := updateFiles repo.index tree repo.files }

/-- `git checkout -B name oid` on a clean work tree -/
def checkoutBranch (objects : GitObjects) (name oid : String) (repo : Repository) :
    Option Repository :=
  (objects.commitOf oid).map fun commit =>
    { repo.update commit.tree with
      head := .branch name
      refs := repo.refs.insert (branchRef name) oid }

/-- `git checkout --detach oid` on a clean work tree -/
def checkoutDetached (objects : GitObjects) (oid : String) (repo : Repository) :
    Option Repository :=
  (objects.commitOf oid).map fun commit =>
    { repo.update commit.tree with head := .detached oid }

/-- `git reset --hard oid` -/
def resetHard (objects : GitObjects) (oid : String) (repo : Repository) : Option Repository :=
  (objects.commitOf oid).map fun commit =>
    match repo.head with
    | .branch name =>
      { repo.update commit.tree with refs := repo.refs.insert (branchRef name) oid }
    | .detached _ => { repo.update commit.tree with head := .detached oid }

/-- `git read-tree --reset -u oid` -/
def readTreeUpdate (objects : GitObjects) (oid : String) (repo : Repository) : Option Repository :=
  (objects.commitOf oid).map fun commit => repo.update commit.tree

/-- `git read-tree --reset oid` -/
def readTreeIndex (objects : GitObjects) (oid : String) (repo : Repository) : Option Repository :=
  (objects.commitOf oid).map fun commit =>
    { repo with index := readTree commit.tree, unmerged := [] }

/-- Whether `git fetch` updates a reference without being forced. -/
def acceptsRef (objects : GitObjects) (repo : Repository) (name oid : String) : Bool :=
  match repo.refs.find? name with
  | none => true
  | some old => old = oid || objects.isAncestor old oid

/-- One reference of a fetch; a refused one stays. -/
def fetchRef (objects : GitObjects) (name oid : String) (repo : Repository) : Repository :=
  if repo.acceptsRef objects name oid then { repo with refs := repo.refs.insert name oid }
  else repo

end Repository

/-! ## Object ids for all objects

There are ids for all trees and commits: both can be counted, and a number can
be written with one digit.
-/

instance countableChar : Countable Char :=
  Function.Injective.countable (f := Char.toNat) (fun _ _ h => Char.toNat_inj.mp h)

instance countableString : Countable String :=
  Function.Injective.countable (f := String.toList) (fun _ _ h => String.toList_inj.mp h)

instance : Countable TreeEntry :=
  Function.Injective.countable (f := fun entry : TreeEntry => (entry.mode, entry.blob))
    (by
      rintro ⟨mode, blob⟩ ⟨mode', blob'⟩ h
      cases h
      rfl)

instance : Countable Files :=
  Function.Injective.countable (f := SortedMap.entries)
    (by
      rintro ⟨entries, _⟩ ⟨entries', _⟩ h
      cases h
      rfl)

instance : Countable Commit :=
  Function.Injective.countable
    (f := fun commit : Commit => (commit.tree, commit.parents, commit.info))
    (by
      rintro ⟨tree, parents, info⟩ ⟨tree', parents', info'⟩ h
      cases h
      rfl)

/-- A number in unary digits. -/
def unaryOid (n : Nat) : String := String.ofList (List.replicate (n + 1) 'a')

theorem unaryOid_injective : Function.Injective unaryOid := by
  intro a b h
  have hlist := congrArg String.toList h
  unfold unaryOid at hlist
  rw [String.toList_ofList, String.toList_ofList] at hlist
  have hlength := congrArg List.length hlist
  rw [List.length_replicate, List.length_replicate] at hlength
  omega

theorem unaryOid_digits (n : Nat) : (unaryOid n).toList.all isLowerHexdigit = true := by
  unfold unaryOid
  rw [String.toList_ofList, List.all_eq_true]
  intro c hc
  rw [List.eq_of_mem_replicate hc]
  decide

/-- The id of an object among the countably many of its kind. -/
noncomputable def numberedOid {α : Type} [Countable α] (a : α) : String :=
  unaryOid ((exists_injective_nat α).choose a)

theorem numberedOid_injective {α : Type} [Countable α] :
    Function.Injective (numberedOid : α → String) :=
  unaryOid_injective.comp (exists_injective_nat α).choose_spec

theorem numberedOid_ne_empty {α : Type} [Countable α] (a : α) : numberedOid a ≠ "" := by
  intro h
  have hlist := congrArg (fun s => s.toList.length) h
  simp [numberedOid, unaryOid] at hlist

open Classical in
/-- An instance of the laws. -/
noncomputable def numberedObjects : GitObjects where
  treeOid := numberedOid
  commitOid := numberedOid
  commitOf oid := if h : ∃ commit : Commit, numberedOid commit = oid then some h.choose else none
  tagged _ := none
  isAncestor a b := decide (a = b)
  treeOid_injective := numberedOid_injective
  commitOf_commitOid commit := by
    have h : ∃ other : Commit, numberedOid other = numberedOid commit := ⟨commit, rfl⟩
    rw [dif_pos h, numberedOid_injective h.choose_spec]
  treeOid_digits _ := unaryOid_digits _
  commitOf_digits oid commit hcommit := by
    split_ifs at hcommit with h
    · obtain ⟨other, rfl⟩ := h
      exact unaryOid_digits _
  treeOid_ne_empty := numberedOid_ne_empty
  tagged_commitOid _ := rfl
  reaches_of_isAncestor a b h := by
    rw [of_decide_eq_true h]
    exact Relation.ReflTransGen.refl

end DevRelay.Git
