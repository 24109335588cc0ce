import DevRelay.Lib.PartialMap
import Mathlib.Data.List.Nodup
import Mathlib.Data.List.Pairwise

/-!
# Trees of named entries

A directory by its entries, one behind the other, over any names and leaves.  No leaf lies
below another one, so a list of leaves can be written into an empty store in any order, each
with the directories above it, and the store has these leaves and no others.
-/

namespace DevRelay.Lib

/-- The entries of a directory: the first one, and the entries behind it. -/
inductive NamedEntries (ν β : Type) where
  | nil
  | leaf (name : ν) (content : β) (rest : NamedEntries ν β)
  | dir (name : ν) (children rest : NamedEntries ν β)

/-- What is at a place. -/
inductive Held (β : Type) where
  | directory
  | leaf (content : β)
  deriving DecidableEq

namespace NamedEntries

variable {ν β : Type}

/-- Everything below a directory. -/
def nodes : List ν → NamedEntries ν β → List (List ν × Held β)
  | _, nil => []
  | base, leaf name content rest => (base ++ [name], .leaf content) :: nodes base rest
  | base, dir name children rest =>
    (base ++ [name], .directory) :: (nodes (base ++ [name]) children ++ nodes base rest)

/-- The leaves below a directory, as a walk finds them. -/
def leaves : List ν → NamedEntries ν β → List (List ν × β)
  | _, nil => []
  | base, leaf name content rest => (base ++ [name], content) :: leaves base rest
  | base, dir name children rest => leaves (base ++ [name]) children ++ leaves base rest

variable {base place : List ν} {entries : NamedEntries ν β}

theorem mem_leaves_iff {content : β} :
    (place, content) ∈ entries.leaves base ↔ (place, .leaf content) ∈ entries.nodes base := by
  induction entries generalizing base with
  | nil => simp [leaves, nodes]
  | leaf name other rest ih => simp [leaves, nodes, ih]
  | dir name children rest ihChildren ihRest => simp [leaves, nodes, ihChildren, ihRest]

theorem leaves_sublist :
    ((entries.leaves base).map Prod.fst).Sublist ((entries.nodes base).map Prod.fst) := by
  induction entries generalizing base with
  | nil => exact List.Sublist.slnil
  | leaf name content rest ih =>
    simp only [leaves, nodes, List.map_cons]
    exact ih.cons_cons _
  | dir name children rest ihChildren ihRest =>
    simp only [leaves, nodes, List.map_cons, List.map_append]
    exact (ihChildren.append ihRest).cons _

/-- Every entry has a name. -/
theorem exists_of_mem_nodes {node : List ν × Held β} (h : node ∈ entries.nodes base) :
    ∃ name rest, node.1 = base ++ name :: rest := by
  induction entries generalizing base with
  | nil => simp [nodes] at h
  | leaf name content rest ih =>
    rcases List.mem_cons.mp h with rfl | hrest
    · exact ⟨name, [], rfl⟩
    · exact ih hrest
  | dir name children rest ihChildren ihRest =>
    rcases List.mem_cons.mp h with rfl | hmem
    · exact ⟨name, [], rfl⟩
    rcases List.mem_append.mp hmem with hchildren | hrest
    · have hbelow := ihChildren hchildren
      simp only [List.append_assoc, List.singleton_append] at hbelow
      exact ⟨name, hbelow.choose :: hbelow.choose_spec.choose, hbelow.choose_spec.choose_spec⟩
    · exact ihRest hrest

/-- What lies between the base and a node is a directory. -/
theorem directory_of_mem_nodes {node : List ν × Held β} {name last : ν} {above rest : List ν}
    (h : node ∈ entries.nodes base) (hplace : node.1 = base ++ (name :: above) ++ last :: rest) :
    (base ++ name :: above, .directory) ∈ entries.nodes base := by
  induction entries generalizing base name above with
  | nil => simp [nodes] at h
  | leaf found content behind ih =>
    rcases List.mem_cons.mp h with rfl | hbehind
    · simp at hplace
    · exact List.mem_cons_of_mem _ (ih hbehind hplace)
  | dir found children behind ihChildren ihRest =>
    rcases List.mem_cons.mp h with rfl | hmem
    · simp at hplace
    rcases List.mem_append.mp hmem with hchildren | hbehind
    · have hnode := exists_of_mem_nodes hchildren
      obtain ⟨child, below, hchild⟩ := hnode
      have hname : name = found := by
        rw [hchild] at hplace
        simp at hplace
        exact hplace.1.symm
      rw [hname] at hplace ⊢
      cases above with
      | nil => exact List.mem_cons_self
      | cons next above =>
        have hinner : (base ++ [found] ++ next :: above, .directory) ∈
            children.nodes (base ++ [found]) := by
          apply ihChildren hchildren
          rw [hplace]
          simp
        rw [List.append_assoc, List.singleton_append] at hinner
        exact List.mem_cons_of_mem _ (List.mem_append_left _ hinner)
    · exact List.mem_cons_of_mem _ (List.mem_append_right _ (ihRest hbehind hplace))

end NamedEntries

/-! ## Places none of which lies below another -/

section Apart

variable {ν β : Type}

/-- The places are distinct and none lies below another. -/
def Apart (leaves : List (List ν × β)) : Prop :=
  leaves.Pairwise fun first second => ¬first.1 <+: second.1 ∧ ¬second.1 <+: first.1

variable {leaves : List (List ν × β)} {entries : NamedEntries ν β}

theorem Apart.eq_of_isPrefix (h : Apart leaves) {first second : List ν × β}
    (hfirst : first ∈ leaves) (hsecond : second ∈ leaves) (hbelow : first.1 <+: second.1) :
    first = second := by
  by_contra hne
  have : Std.Symm fun first second : List ν × β =>
      ¬first.1 <+: second.1 ∧ ¬second.1 <+: first.1 := ⟨fun _ _ hab => ⟨hab.2, hab.1⟩⟩
  exact (h.forall hfirst hsecond hne).1 hbelow

theorem Apart.perm {other : List (List ν × β)} (h : Apart leaves) (hperm : leaves.Perm other) :
    Apart other :=
  (hperm.pairwise_iff fun hab => And.intro hab.2 hab.1).mp h

/-- A leaf below another one would be below a directory of the same place. -/
theorem apart_leaves (h : ((entries.nodes []).map Prod.fst).Nodup) : Apart (entries.leaves []) := by
  have hdistinct : ((entries.leaves []).map Prod.fst).Nodup :=
    h.sublist NamedEntries.leaves_sublist
  have hbelow : ∀ first ∈ entries.leaves [], ∀ second ∈ entries.leaves [],
      first.1 <+: second.1 → first.1 = second.1 := by
    rintro ⟨place, content⟩ hfirst ⟨lower, other⟩ hsecond ⟨rest, hplace⟩
    cases rest with
    | nil =>
      rw [List.append_nil] at hplace
      exact hplace
    | cons last rest =>
      have hleaf := NamedEntries.mem_leaves_iff.mp hfirst
      have hnode := NamedEntries.exists_of_mem_nodes hleaf
      obtain ⟨name, above, habove⟩ := hnode
      simp only [List.nil_append] at habove
      subst habove
      have hdirectory : (([] : List ν) ++ name :: above, Held.directory) ∈ entries.nodes [] := by
        apply NamedEntries.directory_of_mem_nodes (NamedEntries.mem_leaves_iff.mp hsecond)
        exact hplace.symm
      have hsame := List.inj_on_of_nodup_map h hdirectory hleaf rfl
      cases hsame
  have hpairs : (entries.leaves []).Pairwise fun first second => first.1 ≠ second.1 :=
    List.pairwise_map.mp hdistinct
  unfold Apart
  apply hpairs.imp_of_mem
  intro first second hfirst hsecond hne
  constructor
  · intro habove
    exact hne (hbelow first hfirst second hsecond habove)
  · intro habove
    exact hne (hbelow second hsecond first hfirst habove).symm

end Apart

/-! ## Writing leaves -/

abbrev Places (ν β : Type) := List ν → Option (Held β)

namespace Places

variable {ν β : Type} [DecidableEq ν]

def empty : Places ν β := fun _ => none

/-- The directories with these names, one in the other; a directory that is there will do. -/
def makeDirs? : List ν → List ν → Places ν β → Option (Places ν β)
  | _, [], store => some store
  | here, name :: rest, store =>
    match store (here ++ [name]) with
    | none => makeDirs? (here ++ [name]) rest (assign store (here ++ [name]) .directory)
    | some .directory => makeDirs? (here ++ [name]) rest store
    | some (.leaf _) => none

/-- A leaf is made or replaced, but not in the place of a directory. -/
def writeLeaf? (place : List ν) (content : β) (store : Places ν β) : Option (Places ν β) :=
  match store place with
  | some .directory => none
  | _ => some (assign store place (.leaf content))

variable {store made written : Places ν β} {here names place : List ν} {content : β}

theorem leaf_makeDirs? (h : makeDirs? here names store = some made) (place : List ν)
    (content : β) : made place = some (.leaf content) ↔ store place = some (.leaf content) := by
  induction names generalizing here store with
  | nil =>
    cases h
    rfl
  | cons name rest ih =>
    unfold makeDirs? at h
    cases hheld : store (here ++ [name]) with
    | none =>
      rw [hheld] at h
      rw [ih h]
      by_cases hplace : place = here ++ [name]
      · rw [hplace, assign_self, hheld]
        simp
      · rw [assign_of_ne hplace]
    | some held =>
      rw [hheld] at h
      cases held with
      | directory => exact ih h
      | leaf other => cases h

theorem directory_makeDirs? (h : makeDirs? here names store = some made)
    (hplace : made place = some .directory) :
    store place = some .directory ∨ ∃ above, place = here ++ above ∧ above <+: names := by
  induction names generalizing here store with
  | nil =>
    cases h
    exact Or.inl hplace
  | cons name rest ih =>
    have hbelow : ∀ {other : Places ν β}, makeDirs? (here ++ [name]) rest other = some made →
        other place = some .directory ∨
          ∃ above, place = here ++ above ∧ above <+: name :: rest := by
      intro other hother
      rcases ih hother with hthere | ⟨above, habove, hrest⟩
      · exact Or.inl hthere
      · refine Or.inr ⟨name :: above, ?_, List.cons_prefix_cons.mpr ⟨rfl, hrest⟩⟩
        rw [habove, List.append_assoc, List.singleton_append]
    unfold makeDirs? at h
    cases hheld : store (here ++ [name]) with
    | none =>
      rw [hheld] at h
      rcases hbelow h with hthere | habove
      · by_cases hsame : place = here ++ [name]
        · refine Or.inr ⟨[name], hsame, ?_⟩
          exact List.cons_prefix_cons.mpr ⟨rfl, List.nil_prefix⟩
        · rw [assign_of_ne hsame] at hthere
          exact Or.inl hthere
      · exact Or.inr habove
    | some held =>
      rw [hheld] at h
      cases held with
      | directory => exact hbelow h
      | leaf other => cases h

/-- Directories are made where no leaf is in the way. -/
theorem exists_makeDirs? (h : ∀ above, above ≠ [] → above <+: names →
    ∀ content, store (here ++ above) ≠ some (.leaf content)) :
    ∃ made, makeDirs? here names store = some made := by
  induction names generalizing here store with
  | nil => exact ⟨store, rfl⟩
  | cons name rest ih =>
    have hbelow : ∀ above, above ≠ [] → above <+: rest →
        ∀ content, store (here ++ [name] ++ above) ≠ some (.leaf content) := by
      intro above _ habove
      rw [List.append_assoc, List.singleton_append]
      exact h (name :: above) (List.cons_ne_nil _ _)
        (List.cons_prefix_cons.mpr ⟨rfl, habove⟩)
    unfold makeDirs?
    cases hheld : store (here ++ [name]) with
    | none =>
      apply ih
      intro above hne habove
      rw [assign_of_ne]
      · exact hbelow above hne habove
      · simpa using hne
    | some held =>
      cases held with
      | directory => exact ih hbelow
      | leaf content =>
        exact absurd hheld (h [name] (List.cons_ne_nil _ _)
          (List.cons_prefix_cons.mpr ⟨rfl, List.nil_prefix⟩) content)

theorem writeLeaf?_eq_some : writeLeaf? place content store = some written ↔
    store place ≠ some .directory ∧ written = assign store place (.leaf content) := by
  unfold writeLeaf?
  split
  · rename_i hdirectory
    simp [hdirectory]
  · rename_i hother
    simp only [Option.some.injEq]
    constructor
    · intro h
      exact ⟨hother, h.symm⟩
    · intro h
      exact h.2.symm

/-- After a leaf is written, it is there, and no leaf is new but this one. -/
theorem leaf_written (hmade : makeDirs? [] place.dropLast store = some made)
    (hwritten : writeLeaf? place content made = some written) (other : List ν) (found : β) :
    written other = some (.leaf found) ↔
      (other = place ∧ found = content) ∨ (other ≠ place ∧ store other = some (.leaf found)) := by
  have hassign := (writeLeaf?_eq_some.mp hwritten).2
  rw [hassign, assign_eq_some, leaf_makeDirs? hmade]
  simp only [Held.leaf.injEq, eq_comm]

/-- The leaves of the store are these, and its directories lie above leaves of the whole. -/
structure HoldsOnly (store : Places ν β) (done all : List (List ν × β)) : Prop where
  leaf : ∀ place content, store place = some (.leaf content) ↔ (place, content) ∈ done
  directory : ∀ place, store place = some .directory →
    ∃ leaf ∈ all, place <+: leaf.1 ∧ place ≠ leaf.1

omit [DecidableEq ν] in
theorem HoldsOnly.empty (all : List (List ν × β)) : HoldsOnly empty [] all where
  leaf place content := by simp [Places.empty]
  directory place h := by simp [Places.empty] at h

/-- One more leaf can be written. -/
theorem HoldsOnly.put {done all : List (List ν × β)} {leaf : List ν × β}
    (h : HoldsOnly store done all) (hapart : Apart all) (hdone : ∀ other ∈ done, other ∈ all)
    (hleaf : leaf ∈ all) (hname : leaf.1 ≠ []) :
    ∃ made written, makeDirs? [] leaf.1.dropLast store = some made ∧
      writeLeaf? leaf.1 leaf.2 made = some written ∧ HoldsOnly written (leaf :: done) all := by
  have hlength : ∀ above : List ν, above <+: leaf.1.dropLast → above.length < leaf.1.length := by
    intro above habove
    have hle := habove.length_le
    have hpos := List.length_pos_iff.mpr hname
    rw [List.length_dropLast] at hle
    omega
  have hclear : ∀ above, above ≠ [] → above <+: leaf.1.dropLast →
      ∀ content, store ([] ++ above) ≠ some (.leaf content) := by
    intro above _ habove content hthere
    have hmem := hdone _ ((h.leaf _ _).mp hthere)
    have hsame := hapart.eq_of_isPrefix hmem hleaf (habove.trans (List.dropLast_prefix _))
    have hshort := hlength above habove
    rw [← hsame] at hshort
    exact absurd hshort (Nat.lt_irrefl _)
  obtain ⟨made, hmade⟩ := exists_makeDirs? hclear
  have hdirectory : ∀ place, made place = some .directory →
      ∃ other ∈ all, place <+: other.1 ∧ place ≠ other.1 := by
    intro place hplace
    rcases directory_makeDirs? hmade hplace with hthere | ⟨above, hsame, habove⟩
    · exact h.directory place hthere
    · rw [List.nil_append] at hsame
      subst hsame
      refine ⟨leaf, hleaf, habove.trans (List.dropLast_prefix _), ?_⟩
      intro hsame
      have hshort := hlength place habove
      rw [← hsame] at hshort
      exact absurd hshort (Nat.lt_irrefl _)
  have hfree : made leaf.1 ≠ some .directory := by
    intro hthere
    obtain ⟨other, hother, hbelow, hne⟩ := hdirectory _ hthere
    exact hne (congrArg Prod.fst (hapart.eq_of_isPrefix hleaf hother hbelow))
  have hwritten : writeLeaf? leaf.1 leaf.2 made = some (assign made leaf.1 (.leaf leaf.2)) :=
    writeLeaf?_eq_some.mpr ⟨hfree, rfl⟩
  refine ⟨made, _, hmade, hwritten, ?_, ?_⟩
  · intro place content
    rw [leaf_written hmade hwritten, h.leaf, List.mem_cons, Prod.ext_iff]
    constructor
    · rintro (hsame | ⟨-, hmem⟩)
      · exact Or.inl hsame
      · exact Or.inr hmem
    · rintro (hsame | hmem)
      · exact Or.inl hsame
      · by_cases hplace : place = leaf.1
        · have hsame := hapart.eq_of_isPrefix (hdone _ hmem) hleaf (hplace ▸ List.prefix_rfl)
          rw [← hsame]
          exact Or.inl ⟨rfl, rfl⟩
        · exact Or.inr ⟨hplace, hmem⟩
  · intro place hplace
    rcases assign_eq_some.mp hplace with ⟨-, hheld⟩ | ⟨-, hheld⟩
    · cases hheld
    · exact hdirectory place hheld

end Places

end DevRelay.Lib
