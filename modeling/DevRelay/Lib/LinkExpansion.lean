import DevRelay.Lib.FileTree
import Mathlib.Algebra.Order.BigOperators.Group.List
import Mathlib.Algebra.Order.Group.Nat

/-!
# Links written out

A subtree placed somewhere in a file system, and the way that a path takes below
it.  With the target of each link written in the place of the link, a path leads
out of the subtree exactly when its text climbs above where it began.
-/

namespace DevRelay.Lib

/-- The text does not climb above a directory so many names deep. -/
def staysBelow : Nat → List Component → Bool
  | _, [] => true
  | _, .rootDir :: _ => false
  | depth, .curDir :: rest => staysBelow depth rest
  | 0, .parentDir :: _ => false
  | depth + 1, .parentDir :: rest => staysBelow depth rest
  | depth, .normal _ :: rest => staysBelow (depth + 1) rest

/-- Where a subtree is kept, and what is around it. -/
structure Place where
  root : Location
  outside : Location → Option Node

/-- The whole file system with the subtree in its place. -/
def Place.world (place : Place) (tree : FileTree) : FileTree where
  node location :=
    if place.root <+: location then tree.node (location.drop place.root.length)
    else place.outside location
  fold := tree.fold

namespace FileTree

/-- The way along a path, with `follow` for what is behind a link.  Where the way
leaves the subtree the rest stays as it is; no way goes through what is missing or
a file. -/
def expandWith (tree : FileTree) (follow : Location → List Component → Option (List Component)) :
    Location → List Component → Option (List Component)
  | _, [] => some []
  | _, .rootDir :: rest => some (.rootDir :: rest)
  | here, .curDir :: rest => expandWith tree follow here rest
  | here, .parentDir :: rest =>
    if here = [] then some (.parentDir :: rest)
    else (expandWith tree follow here.dropLast rest).map fun word => .parentDir :: word
  | here, .normal name :: rest =>
    match tree.node (here ++ [tree.fold name]) with
    | some .directory =>
      (expandWith tree follow (here ++ [tree.fold name]) rest).map fun word =>
        .normal name :: word
    | some (.symlink target) => follow here (components target ++ rest)
    | some (.file _ _) => if rest = [] then some [.normal name] else none
    | none => if rest = [] then some [.normal name] else none

/-- A path with the target of each link in its place, with at most so many links. -/
def expand (tree : FileTree) : Nat → Location → List Component → Option (List Component)
  | 0 => expandWith tree fun _ _ => none
  | links + 1 => expandWith tree (expand tree links)

/-- What the last part of a path stands for; nothing behind a trailing separator. -/
def lastComponent? (path : String) : Option Component :=
  (path.toList.splitOn '/').getLast?.bind partComponent?

/-- `lstat`: a link is not followed if it is the last name. -/
def lstat (tree : FileTree) (base : Location) (path : String) : Option Node :=
  match lastComponent? path with
  | some (.normal name) =>
    (tree.locate base (components path).dropLast).bind fun directory =>
      tree.node (directory ++ [tree.fold name])
  | _ => (tree.locate base (components path)).bind tree.node

theorem getLast?_of_lastComponent? {path : String} {component : Component}
    (h : lastComponent? path = some component) :
    (components path).getLast? = some component := by
  obtain ⟨part, hpart, hcomponent⟩ := Option.bind_eq_some_iff.mp h
  obtain ⟨front, hparts⟩ := List.getLast?_eq_some_iff.mp hpart
  have hbody : bodyComponents path.toList = front.filterMap partComponent? ++ [component] := by
    unfold bodyComponents
    rw [hparts, List.filterMap_append, List.filterMap_cons, hcomponent]
    rfl
  unfold components
  split
  · rw [hbody, List.getLast?_cons, List.getLast?_concat]
    rfl
  · split
    · rw [hbody, List.getLast?_cons, List.getLast?_concat]
      rfl
    · rw [hbody, List.getLast?_concat]

/-- Names of directories lead where they say. -/
theorem walk_of_directories {tree : FileTree}
    {follow : Location → List Component → Option Location} {here : Location} {names : List String}
    (h : ∀ front, front ≠ [] → front <+: names →
      tree.node (here ++ front.map tree.fold) = some .directory) :
    tree.walk follow here (names.map .normal) = some (here ++ names.map tree.fold) := by
  induction names generalizing here with
  | nil =>
    rw [List.map_nil, List.map_nil, List.append_nil]
    rfl
  | cons name rest ih =>
    have hname := h [name] (List.cons_ne_nil _ _) (List.prefix_append [name] rest)
    rw [List.map_singleton] at hname
    rw [List.map_cons, walk, hname]
    dsimp only
    rw [ih, List.map_cons, List.append_assoc, List.singleton_append]
    intro front hne hfront
    rw [List.append_assoc]
    exact h (name :: front) (List.cons_ne_nil _ _) (List.cons_prefix_cons.mpr ⟨rfl, hfront⟩)

/-! ## Below the root -/

section

variable {tree : FileTree} {place : Place} {here : Location} {path : List Component}

theorem node_world_inside (inner : Location) :
    (place.world tree).node (place.root ++ inner) = tree.node inner := by
  show (if _ then _ else _) = _
  rw [if_pos (List.prefix_append place.root inner), List.drop_left]

@[simp] theorem fold_world : (place.world tree).fold = tree.fold := rfl

/-- Where the written out text does not climb. -/
def Below (tree : FileTree) (links : Nat) (here : Location) (path : List Component) : Prop :=
  ∀ word, tree.expand links here path = some word → staysBelow here.length word = true

/-- The way along one text, if the ways behind the links stay inside. -/
theorem walk_inside {follow : Location → List Component → Option Location}
    {written : Location → List Component → Option (List Component)} (hfollow : ∀ here path location,
      (∀ word, written here path = some word → staysBelow here.length word = true) →
        follow (place.root ++ here) path = some location → place.root <+: location)
    (hbelow : ∀ word, tree.expandWith written here path = some word →
      staysBelow here.length word = true)
    {location : Location}
    (hwalk : (place.world tree).walk follow (place.root ++ here) path = some location) :
    place.root <+: location := by
  induction path generalizing here with
  | nil =>
    rw [← Option.some.inj hwalk]
    exact List.prefix_append place.root here
  | cons component rest ih =>
    cases component with
    | rootDir => exact absurd (hbelow _ rfl) Bool.false_ne_true
    | curDir => exact ih hbelow hwalk
    | parentDir =>
      rw [expandWith] at hbelow
      rw [walk] at hwalk
      by_cases hhere : here = []
      · rw [if_pos hhere] at hbelow
        have hfalse := hbelow _ rfl
        rw [hhere] at hfalse
        cases hfalse
      · rw [if_neg hhere] at hbelow
        rw [List.dropLast_append_of_ne_nil hhere] at hwalk
        apply ih _ hwalk
        intro word hword
        have hlength : here.length = here.dropLast.length + 1 := by
          rw [List.length_dropLast]
          have := List.length_pos_iff.mpr hhere
          omega
        have hclimb := hbelow (.parentDir :: word) (by rw [hword]; rfl)
        rw [hlength] at hclimb
        exact hclimb
    | normal name =>
      rw [expandWith] at hbelow
      rw [walk, List.append_assoc, fold_world, node_world_inside] at hwalk
      have hhere : place.root <+: place.root ++ (here ++ [tree.fold name]) :=
        List.prefix_append _ _
      split at hwalk
      · rename_i hnode
        rw [hnode] at hbelow
        apply ih _ hwalk
        intro word hword
        rw [List.length_append, List.length_singleton]
        exact hbelow (.normal name :: word) (by dsimp only; rw [hword]; rfl)
      · rename_i target hnode
        rw [hnode] at hbelow
        exact hfollow here _ location hbelow hwalk
      · split at hwalk
        · rw [← Option.some.inj hwalk]
          exact hhere
        · cases hwalk
      · split at hwalk
        · rw [← Option.some.inj hwalk]
          exact hhere
        · cases hwalk

/-- A text that does not climb leads to a place inside. -/
theorem resolve_inside {links : Nat} (h : tree.Below links here path) {location : Location}
    (hresolve : (place.world tree).resolve links (place.root ++ here) path = some location) :
    place.root <+: location := by
  induction links generalizing here path location with
  | zero =>
    apply walk_inside _ h hresolve
    intro here path location _ hnone
    cases hnone
  | succ links ih =>
    apply walk_inside _ h hresolve
    intro here path location hbelow hfound
    exact ih hbelow hfound

/-! ## Above the root -/

/-- A file system of directories with the subtree below one name. -/
def underName (fresh : String) : Place where
  root := [fresh]
  outside _ := some .directory

theorem not_under_step {fresh name : String} {here : Location} (hhere : ¬[fresh] <+: here)
    (hname : name ≠ fresh) : ¬[fresh] <+: here ++ [name] := by
  cases here with
  | nil =>
    rw [List.nil_append, List.cons_prefix_cons]
    exact fun h => hname h.1.symm
  | cons first rest =>
    rw [List.cons_append, List.cons_prefix_cons]
    rw [List.cons_prefix_cons] at hhere
    exact fun h => hhere ⟨h.1, List.nil_prefix⟩

/-- From outside there is no way in without the name. -/
theorem walk_outside {fresh : String} {follow : Location → List Component → Option Location}
    (hfresh : ∀ name, .normal name ∈ path → tree.fold name ≠ fresh) (hhere : ¬[fresh] <+: here) :
    ∃ location, ((underName fresh).world tree).walk follow here path = some location ∧
      ¬[fresh] <+: location := by
  induction path generalizing here with
  | nil => exact ⟨here, rfl, hhere⟩
  | cons component rest ih =>
    have hrest : ∀ name, .normal name ∈ rest → tree.fold name ≠ fresh :=
      fun name hmem => hfresh name (List.mem_cons_of_mem component hmem)
    cases component with
    | rootDir => exact ih hrest (by simp)
    | curDir => exact ih hrest hhere
    | parentDir =>
      apply ih hrest
      exact fun hup => hhere (hup.trans (List.dropLast_prefix here))
    | normal name =>
      have hname := hfresh name List.mem_cons_self
      have hnext : ¬[fresh] <+: here ++ [tree.fold name] := not_under_step hhere hname
      have hnode : ((underName fresh).world tree).node (here ++ [tree.fold name]) =
          some .directory := if_neg hnext
      rw [walk, fold_world, hnode]
      exact ih hrest hnext

/-- The way along one text that climbs, if the ways behind the links do. -/
theorem walk_leaves {fresh : String} {follow : Location → List Component → Option Location}
    {written : Location → List Component → Option (List Component)} {word : List Component}
    (hfollow : ∀ here path word, written here path = some word →
      staysBelow here.length word = false →
        (∀ name, .normal name ∈ word → tree.fold name ≠ fresh) →
          ∃ location, follow ([fresh] ++ here) path = some location ∧ ¬[fresh] <+: location)
    (hwritten : tree.expandWith written here path = some word)
    (hclimbs : staysBelow here.length word = false)
    (hfresh : ∀ name, .normal name ∈ word → tree.fold name ≠ fresh) :
    ∃ location, ((underName fresh).world tree).walk follow ([fresh] ++ here) path =
      some location ∧ ¬[fresh] <+: location := by
  induction path generalizing here word with
  | nil =>
    rw [← Option.some.inj hwritten] at hclimbs
    cases here <;> cases hclimbs
  | cons component rest ih =>
    cases component with
    | rootDir =>
      have hword : .rootDir :: rest = word := Option.some.inj hwritten
      rw [← hword] at hfresh
      rw [walk]
      exact walk_outside (fun name hmem => hfresh name (List.mem_cons_of_mem _ hmem)) (by simp)
    | curDir => exact ih hwritten hclimbs hfresh
    | parentDir =>
      rw [expandWith] at hwritten
      rw [walk]
      by_cases hhere : here = []
      · rw [if_pos hhere] at hwritten
        have hword : .parentDir :: rest = word := Option.some.inj hwritten
        rw [← hword] at hfresh
        rw [hhere]
        exact walk_outside (fun name hmem => hfresh name (List.mem_cons_of_mem _ hmem))
          (by simp)
      · rw [if_neg hhere] at hwritten
        obtain ⟨tail, htail, rfl⟩ := Option.map_eq_some_iff.mp hwritten
        rw [List.dropLast_append_of_ne_nil hhere]
        apply ih htail _ fun name hmem => hfresh name (List.mem_cons_of_mem _ hmem)
        have hlength : here.length = here.dropLast.length + 1 := by
          rw [List.length_dropLast]
          have := List.length_pos_iff.mpr hhere
          omega
        rw [hlength] at hclimbs
        exact hclimbs
    | normal name =>
      rw [expandWith] at hwritten
      rw [walk, List.append_assoc, fold_world]
      have hinside : ((underName fresh).world tree).node
          ([fresh] ++ (here ++ [tree.fold name])) = tree.node (here ++ [tree.fold name]) :=
        node_world_inside _
      rw [hinside]
      revert hwritten
      cases tree.node (here ++ [tree.fold name]) with
      | none =>
        intro hwritten
        dsimp only at hwritten
        split at hwritten
        · rw [← Option.some.inj hwritten] at hclimbs
          cases here <;> cases hclimbs
        · cases hwritten
      | some node =>
        cases node with
        | directory =>
          intro hwritten
          obtain ⟨tail, htail, rfl⟩ := Option.map_eq_some_iff.mp hwritten
          apply ih htail _ fun name hmem => hfresh name (List.mem_cons_of_mem _ hmem)
          rw [List.length_append, List.length_singleton]
          cases hdepth : here.length with
          | zero =>
            rw [hdepth] at hclimbs
            exact hclimbs
          | succ depth =>
            rw [hdepth] at hclimbs
            exact hclimbs
        | symlink target =>
          intro hwritten
          exact hfollow here _ word hwritten hclimbs hfresh
        | file contents =>
          intro hwritten
          dsimp only at hwritten
          split at hwritten
          · rw [← Option.some.inj hwritten] at hclimbs
            cases here <;> cases hclimbs
          · cases hwritten

theorem resolve_leaves {fresh : String} {links : Nat} {word : List Component}
    (hwritten : tree.expand links here path = some word)
    (hclimbs : staysBelow here.length word = false)
    (hfresh : ∀ name, .normal name ∈ word → tree.fold name ≠ fresh) :
    ∃ location, ((underName fresh).world tree).resolve links ([fresh] ++ here) path =
      some location ∧ ¬[fresh] <+: location := by
  induction links generalizing here path word with
  | zero =>
    apply walk_leaves _ hwritten hclimbs hfresh
    intro here path word hnone
    cases hnone
  | succ links ih =>
    apply walk_leaves _ hwritten hclimbs hfresh
    intro here path word hwritten hclimbs hfresh
    exact ih hwritten hclimbs hfresh

/-- A name that is none of these. -/
theorem exists_fresh (names : List String) : ∃ n, String.ofList (List.replicate n 'w') ∉ names := by
  refine ⟨(names.map String.length).sum + 1, ?_⟩
  intro hmem
  have hle := List.single_le_sum (fun _ _ => Nat.zero_le _) _
    (List.mem_map_of_mem (f := String.length) hmem)
  rw [String.length_ofList, List.length_replicate] at hle
  omega

/-- A path leads nowhere but below the root, wherever the subtree is kept, exactly when
its text with the links written out does not climb above the root. -/
theorem inside_everywhere_iff :
    (∀ (place : Place) (location : Location),
      (place.world tree).locate place.root path = some location → place.root <+: location) ↔
      tree.Below maxLinks [] path := by
  constructor
  · intro hinside word hword
    by_contra hclimbs
    rw [Bool.not_eq_true] at hclimbs
    obtain ⟨n, hn⟩ := exists_fresh (word.map fun component => tree.fold component.written)
    have hfresh : ∀ name, .normal name ∈ word →
        tree.fold name ≠ String.ofList (List.replicate n 'w') := by
      intro name hmem heq
      apply hn
      rw [← heq]
      exact List.mem_map.mpr ⟨_, hmem, rfl⟩
    obtain ⟨location, hlocate, houtside⟩ := resolve_leaves hword hclimbs hfresh
    exact houtside (hinside (underName _) location hlocate)
  · intro hbelow place location hlocate
    apply resolve_inside hbelow
    rw [List.append_nil]
    exact hlocate

end

end FileTree

end DevRelay.Lib
