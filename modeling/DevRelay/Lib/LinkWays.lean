import DevRelay.Lib.Resumption
import Mathlib.Data.List.Induction

/-!
# Ways through links

A path of names goes down from a directory until it meets a link, and goes on from where the
link leads.  So it ends below the place that its last link leads to, or, without a link, below
the directory it began in.
-/

namespace DevRelay.Lib.FileTree

variable {tree : FileTree} {base here location : Location}

theorem resolve_succ (links : Nat) {path : List Component}
    (h : tree.resolve links here path = some location) :
    tree.resolve (links + 1) here path = some location := by
  induction links generalizing here path location with
  | zero => exact (Grown.refl tree).walk (fun _ _ _ hnone => by cases hnone) path h
  | succ links ih => exact (Grown.refl tree).walk (fun _ _ _ hsome => ih hsome) path h

theorem walk_append {follow : Location → List Component → Option Location}
    (hfollow : ∀ here path more location, follow here (path ++ more) = some location →
      ∃ middle, follow here path = some middle ∧ tree.walk follow middle more = some location)
    (path more : List Component) (h : tree.walk follow here (path ++ more) = some location) :
    ∃ middle, tree.walk follow here path = some middle ∧
      tree.walk follow middle more = some location := by
  induction path generalizing here with
  | nil => exact ⟨here, rfl, h⟩
  | cons first rest ih =>
    cases first with
    | rootDir => exact ih h
    | curDir => exact ih h
    | parentDir => exact ih h
    | normal name =>
      rw [List.cons_append, walk] at h
      rw [walk]
      cases hnode : tree.node (here ++ [tree.fold name]) with
      | none =>
        rw [hnode] at h
        dsimp only at h ⊢
        split_ifs at h with hempty
        obtain ⟨rfl, rfl⟩ := List.append_eq_nil_iff.mp hempty
        exact ⟨location, by rw [if_pos rfl, h], rfl⟩
      | some node =>
        rw [hnode] at h
        cases node with
        | directory => exact ih h
        | symlink target =>
          dsimp only at h ⊢
          rw [← List.append_assoc] at h
          exact hfollow _ _ _ _ h
        | file contents mode =>
          dsimp only at h ⊢
          split_ifs at h with hempty
          obtain ⟨rfl, rfl⟩ := List.append_eq_nil_iff.mp hempty
          exact ⟨location, by rw [if_pos rfl, h], rfl⟩

theorem resolve_append (links : Nat) {path more : List Component}
    (h : tree.resolve links here (path ++ more) = some location) :
    ∃ middle, tree.resolve links here path = some middle ∧
      tree.resolve links middle more = some location := by
  induction links generalizing here path more location with
  | zero => exact walk_append (fun _ _ _ _ hnone => by cases hnone) path more h
  | succ links ih =>
    refine walk_append ?_ path more h
    intro here path more location hlocation
    obtain ⟨middle, hpath, hmore⟩ := ih hlocation
    exact ⟨middle, hpath, resolve_succ links hmore⟩

/-- The way to a place leads through the place of each part of the path. -/
theorem locate_append {path more : List Component}
    (h : tree.locate base (path ++ more) = some location) :
    ∃ middle, tree.locate base path = some middle ∧ tree.locate middle more = some location :=
  resolve_append maxLinks h

def IsLink (tree : FileTree) (location : Location) : Prop :=
  ∃ target, tree.node location = some (.symlink target)

/-- A name that is not a link leads to its own place. -/
theorem eq_of_not_isLink {name : String} (h : tree.locate here [.normal name] = some location)
    (hlink : ¬tree.IsLink (here ++ [tree.fold name])) : location = here ++ [tree.fold name] := by
  unfold FileTree.locate maxLinks FileTree.resolve at h
  rw [walk] at h
  cases hnode : tree.node (here ++ [tree.fold name]) with
  | none =>
    rw [hnode] at h
    exact (Option.some_inj.mp h).symm
  | some node =>
    rw [hnode] at h
    cases node with
    | directory => exact (Option.some_inj.mp h).symm
    | symlink target => exact absurd ⟨target, hnode⟩ hlink
    | file contents mode => exact (Option.some_inj.mp h).symm

/-- None of these names, one behind the other, is a link. -/
def NoLinkBehind (tree : FileTree) (here : Location) (names : List String) : Prop :=
  ∀ passed, passed <+: names → passed ≠ [] → ¬tree.IsLink (here ++ passed.map tree.fold)

/-- The last link that the names meet leads to `place`, with these names behind it. -/
def LastLink (tree : FileTree) (base : Location) (names : List String) (place : Location)
    (behind : List String) : Prop :=
  ∃ before name here, names = before ++ name :: behind ∧
    tree.locate base (before.map .normal) = some here ∧ tree.IsLink (here ++ [tree.fold name]) ∧
    tree.locate base ((before ++ [name]).map .normal) = some place ∧
    tree.NoLinkBehind place behind

theorem eq_of_noLinkBehind {names : List String} (hnone : tree.NoLinkBehind here names)
    (h : tree.locate here (names.map .normal) = some location) :
    location = here ++ names.map tree.fold := by
  induction names generalizing here with
  | nil =>
    cases h
    rw [List.map_nil, List.append_nil]
  | cons name rest ih =>
    have hsplit : tree.locate here ([.normal name] ++ rest.map .normal) = some location := h
    obtain ⟨middle, hname, hrest⟩ := locate_append hsplit
    have hfirst : ¬tree.IsLink (here ++ [tree.fold name]) :=
      hnone [name] ⟨rest, rfl⟩ (List.cons_ne_nil _ _)
    have hmiddle := eq_of_not_isLink hname hfirst
    subst hmiddle
    have hbehind : tree.NoLinkBehind (here ++ [tree.fold name]) rest := by
      intro passed hpassed hne
      rw [List.append_assoc]
      exact hnone (name :: passed) (List.cons_prefix_cons.mpr ⟨rfl, hpassed⟩)
        (List.cons_ne_nil _ _)
    rw [ih hbehind hrest, List.append_assoc]
    rfl

/-- Behind its last link the path goes straight down. -/
theorem LastLink.eq {names behind : List String} {place : Location}
    (hlast : tree.LastLink base names place behind)
    (h : tree.locate base (names.map .normal) = some location) :
    location = place ++ behind.map tree.fold := by
  obtain ⟨before, name, here, rfl, -, -, hplace, hnone⟩ := hlast
  have hnames : before ++ name :: behind = before ++ [name] ++ behind := by
    rw [List.append_assoc]
    rfl
  rw [hnames, List.map_append] at h
  obtain ⟨middle, hmiddle, hbehind⟩ := locate_append h
  rw [hplace] at hmiddle
  cases hmiddle
  exact eq_of_noLinkBehind hnone hbehind

/-- A path has a last link, or goes straight down all the way. -/
theorem exists_lastLink_or_eq (names : List String)
    (h : tree.locate base (names.map .normal) = some location) :
    (∃ place behind, tree.LastLink base names place behind) ∨
      location = base ++ names.map tree.fold := by
  induction names using List.reverseRecOn generalizing location with
  | nil =>
    cases h
    exact Or.inr (List.append_nil _).symm
  | append_singleton names name ih =>
    have hlocate := h
    rw [List.map_append] at h
    obtain ⟨here, hhere, hname⟩ := locate_append h
    by_cases hlink : tree.IsLink (here ++ [tree.fold name])
    · refine Or.inl ⟨location, [], names, name, here, rfl, hhere, hlink, hlocate, ?_⟩
      intro passed hpassed hne
      exact absurd (List.prefix_nil.mp hpassed) hne
    · have hend := eq_of_not_isLink hname hlink
      rcases ih hhere with ⟨place, behind, hlast⟩ | hstraight
      · have hbelow := hlast.eq hhere
        obtain ⟨before, link, mid, rfl, hmid, hislink, hplace, hnone⟩ := hlast
        refine Or.inl ⟨place, behind ++ [name], before, link, mid, by simp, hmid, hislink,
          hplace, ?_⟩
        intro passed hpassed hne
        rcases List.prefix_concat_iff.mp hpassed with rfl | hshort
        · rw [List.map_append, ← List.append_assoc, ← hbelow]
          exact hlink
        · exact hnone passed hshort hne
      · right
        rw [hend, hstraight, List.map_append, List.append_assoc]
        rfl

/-- A path ends below its base exactly if its last link, if there is one, leads back there. -/
theorem below_iff {names : List String} (h : tree.locate base (names.map .normal) = some location) :
    base <+: location ↔ ∀ place behind, tree.LastLink base names place behind →
      base <+: place ++ behind.map tree.fold := by
  constructor
  · intro hbelow place behind hlast
    rw [← hlast.eq h]
    exact hbelow
  · intro hback
    rcases exists_lastLink_or_eq names h with ⟨place, behind, hlast⟩ | hstraight
    · rw [hlast.eq h]
      exact hback place behind hlast
    · rw [hstraight]
      exact List.prefix_append _ _

end DevRelay.Lib.FileTree
