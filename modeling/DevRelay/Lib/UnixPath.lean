import Mathlib.Data.List.Basic
import Mathlib.Tactic.Common

/-!
# Unix paths

A path is a string; what it means are its components.  Repeated separators and
`.` are dropped, except for a `.` in front.  The steps of a path are its
components without that one, so that joining paths is appending steps.
-/

namespace DevRelay.Lib

inductive Component where
  | rootDir
  | curDir
  | parentDir
  | normal (name : String)
  deriving DecidableEq, Repr

/-- `Component::as_os_str` -/
def Component.written : Component → String
  | .rootDir => "/"
  | .curDir => "."
  | .parentDir => ".."
  | .normal name => name

def isAbsolute (path : String) : Bool := ['/'].isPrefixOf path.toList

/-- The component that a part between two separators stands for. -/
def partComponent? (part : List Char) : Option Component :=
  if part = [] ∨ part = ['.'] then none
  else if part = ['.', '.'] then some .parentDir
  else some (.normal (String.ofList part))

/-- The components behind the root or the leading `.` -/
def bodyComponents (path : List Char) : List Component :=
  (path.splitOn '/').filterMap partComponent?

def components (path : String) : List Component :=
  if isAbsolute path then .rootDir :: bodyComponents path.toList
  else if (path.toList.splitOn '/').head? = some ['.'] then
    .curDir :: bodyComponents path.toList
  else bodyComponents path.toList

def steps (path : String) : List Component :=
  (components path).filter fun component => component ≠ .curDir

/-- An absolute path replaces the base. -/
def join (base path : String) : String :=
  if isAbsolute path then path
  else if base.toList = [] ∨ base.toList.getLast? = some '/' then base ++ path
  else base ++ "/" ++ path

/-- A root has no parent, nor has the empty path. -/
def parent? (path : List Component) : Option (List Component) :=
  match path.getLast? with
  | none => none
  | some .rootDir => none
  | some _ => some path.dropLast

/-! ## Components -/

theorem partComponent?_ne_rootDir (part : List Char) : partComponent? part ≠ some .rootDir := by
  unfold partComponent?
  split_ifs
  · simp
  · simp
  · simp

theorem partComponent?_ne_curDir (part : List Char) : partComponent? part ≠ some .curDir := by
  unfold partComponent?
  split_ifs
  · simp
  · simp
  · simp

theorem rootDir_notMem_body (path : List Char) : Component.rootDir ∉ bodyComponents path := by
  intro h
  obtain ⟨part, -, hpart⟩ := List.mem_filterMap.mp h
  exact partComponent?_ne_rootDir part hpart

theorem curDir_notMem_body (path : List Char) : Component.curDir ∉ bodyComponents path := by
  intro h
  obtain ⟨part, -, hpart⟩ := List.mem_filterMap.mp h
  exact partComponent?_ne_curDir part hpart

theorem filter_body (path : List Char) :
    (bodyComponents path).filter (fun component => component ≠ .curDir) = bodyComponents path := by
  apply List.filter_eq_self.mpr
  intro component hmem
  apply decide_eq_true
  rintro rfl
  exact curDir_notMem_body path hmem

theorem steps_of_absolute {path : String} (h : isAbsolute path = true) :
    steps path = .rootDir :: bodyComponents path.toList := by
  unfold steps components
  rw [if_pos h, List.filter_cons_of_pos (by simp), filter_body]

theorem steps_of_relative {path : String} (h : isAbsolute path = false) :
    steps path = bodyComponents path.toList := by
  unfold steps components
  rw [if_neg (by simp [h])]
  split
  · rw [List.filter_cons_of_neg (by simp), filter_body]
  · exact filter_body _

theorem isAbsolute_iff {path : String} : isAbsolute path = true ↔ .rootDir ∈ steps path := by
  cases h : isAbsolute path with
  | true => simp [steps_of_absolute h]
  | false =>
    rw [steps_of_relative h]
    simp [rootDir_notMem_body]

theorem components_cases (path : String) :
    components path = steps path ∨ components path = .curDir :: steps path := by
  cases h : isAbsolute path with
  | true =>
    left
    rw [steps_of_absolute h, components, if_pos h]
  | false =>
    rw [steps_of_relative h, components, if_neg (by simp [h])]
    split
    · exact Or.inr rfl
    · exact Or.inl rfl

theorem curDir_notMem_steps (path : String) : Component.curDir ∉ steps path := by
  intro h
  have hne := of_decide_eq_true (List.mem_filter.mp h).2
  exact hne rfl

/-- The last step is the last component. -/
theorem getLast?_components {path : String} {component : Component}
    (h : (steps path).getLast? = some component) :
    (components path).getLast? = some component := by
  rcases components_cases path with hsame | hcur
  · rw [hsame, h]
  · rw [hcur, List.getLast?_cons, h]
    rfl

theorem filter_dropLast_components (path : String) :
    (components path).dropLast.filter (fun component => component ≠ .curDir) =
      (steps path).dropLast := by
  have hkept : (steps path).dropLast.filter (fun component => component ≠ .curDir) =
      (steps path).dropLast := by
    apply List.filter_eq_self.mpr
    intro component hmem
    apply decide_eq_true
    rintro rfl
    exact curDir_notMem_steps path (List.dropLast_subset _ hmem)
  rcases components_cases path with hsame | hcur
  · rw [hsame, hkept]
  · rw [hcur]
    cases hsteps : steps path with
    | nil => rfl
    | cons first rest =>
      rw [List.dropLast_cons_of_ne_nil (List.cons_ne_nil _ _),
        List.filter_cons_of_neg (by simp), ← hsteps, hkept]

/-! ## Joining -/

@[simp] theorem bodyComponents_nil : bodyComponents [] = [] := by
  simp [bodyComponents, partComponent?]

theorem bodyComponents_append_slash (left right : List Char) :
    bodyComponents (left ++ '/' :: right) = bodyComponents left ++ bodyComponents right := by
  unfold bodyComponents
  rw [List.splitOn_append_cons_self, List.filterMap_append]

/-- A trailing separator does not count. -/
theorem bodyComponents_append {left : List Char} (h : left = [] ∨ left.getLast? = some '/')
    (right : List Char) :
    bodyComponents (left ++ right) = bodyComponents left ++ bodyComponents right := by
  rcases h with rfl | hlast
  · simp
  · obtain ⟨front, rfl⟩ := List.getLast?_eq_some_iff.mp hlast
    rw [List.append_assoc, List.singleton_append, bodyComponents_append_slash,
      bodyComponents_append_slash, bodyComponents_nil, List.append_nil]

theorem bodyComponents_join {base path : String} (h : isAbsolute path = false) :
    bodyComponents (join base path).toList =
      bodyComponents base.toList ++ bodyComponents path.toList := by
  unfold join
  rw [if_neg (by simp [h])]
  split
  · rename_i hbase
    rw [String.toList_append, bodyComponents_append hbase]
  · rw [String.toList_append, String.toList_append, List.append_assoc]
    exact bodyComponents_append_slash base.toList path.toList

theorem isAbsolute_join {base path : String} (h : isAbsolute path = false) :
    isAbsolute (join base path) = isAbsolute base := by
  unfold join
  rw [if_neg (by simp [h])]
  unfold isAbsolute at h ⊢
  cases hbase : base.toList with
  | nil =>
    rw [if_pos (Or.inl rfl), String.toList_append, hbase, List.nil_append, h]
    rfl
  | cons c rest =>
    split
    · rw [String.toList_append, hbase, List.cons_append]
      rfl
    · rw [String.toList_append, String.toList_append, hbase, List.cons_append, List.cons_append]
      rfl

/-- The steps of a relative path go on behind those of the base. -/
theorem steps_join {base path : String} (h : isAbsolute path = false) :
    steps (join base path) = steps base ++ steps path := by
  rw [steps_of_relative h]
  cases hbase : isAbsolute base with
  | true =>
    rw [steps_of_absolute ((isAbsolute_join h).trans hbase), steps_of_absolute hbase,
      bodyComponents_join h, List.cons_append]
  | false =>
    rw [steps_of_relative ((isAbsolute_join h).trans hbase), steps_of_relative hbase,
      bodyComponents_join h]

/-- A name is the only step of the path it is. -/
theorem components_of_name {name : List Char} (hslash : '/' ∉ name) (hne : name ≠ [])
    (hdot : name ≠ ['.']) (hdots : name ≠ ['.', '.']) :
    components (String.ofList name) = [.normal (String.ofList name)] := by
  have hsplit : name.splitOn '/' = [name] := List.splitOn_eq_singleton hslash
  have hrelative : isAbsolute (String.ofList name) = false := by
    unfold isAbsolute
    rw [String.toList_ofList]
    cases name with
    | nil => rfl
    | cons c rest =>
      have hc : '/' ≠ c := fun h => hslash (h ▸ List.mem_cons_self ..)
      simp [List.isPrefixOf, hc]
  have hbody : bodyComponents name = [.normal (String.ofList name)] := by
    unfold bodyComponents partComponent?
    rw [hsplit]
    simp [hne, hdot, hdots]
  unfold components
  rw [hrelative, String.toList_ofList, hsplit, if_neg Bool.false_ne_true, hbody, if_neg]
  rw [List.head?_cons]
  exact fun h => hdot (Option.some.inj h)

theorem join_of_absolute {base path : String} (h : isAbsolute path = true) :
    join base path = path := if_pos h

/-! ## Plain names -/

/-- Without a root and without `..`, one name behind the other. -/
def Plain (path : List Component) (names : List String) : Prop :=
  path = names.map .normal

theorem exists_plain {path : List Component}
    (h : ∀ component ∈ path, ∃ name, component = .normal name) : ∃ names, Plain path names := by
  induction path with
  | nil => exact ⟨[], rfl⟩
  | cons first rest ih =>
    obtain ⟨name, rfl⟩ := h first List.mem_cons_self
    obtain ⟨names, hnames⟩ := ih fun other hother => h other (List.mem_cons_of_mem _ hother)
    refine ⟨name :: names, ?_⟩
    unfold Plain at hnames ⊢
    rw [hnames, List.map_cons]

theorem plain_injective {path : List Component} {names names' : List String}
    (h : Plain path names) (h' : Plain path names') : names = names' := by
  have hinjective : Function.Injective Component.normal := by
    intro a b hab
    cases hab
    rfl
  exact List.map_injective_iff.mpr hinjective (h.symm.trans h')

theorem isAbsolute_of_plain {path : String} {names : List String} (h : Plain (steps path) names) :
    isAbsolute path = false := by
  rw [← Bool.not_eq_true, isAbsolute_iff, h]
  simp

end DevRelay.Lib
