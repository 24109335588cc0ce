import DevRelay.Tasks.Artifacts

/-!
# Paths in an artifact index

A path that is UTF-8 and has no backslash is its own text, and the text leads back to it.
Every text in an index is without backslashes, and so is every path that it leads to.
-/

namespace DevRelay.Artifacts

open DevRelay.Lib DevRelay.Core

variable {path names : List FileName} {text : String}

/-- The text of a path, where it is one. -/
def Spells (text : String) (path : List FileName) : Prop :=
  utf8 text = pathBytes path ∧ '\\' ∉ text.toList

/-- The path is text without backslashes, and not all of it is white space. -/
def isPlainPath (path : List FileName) : Bool :=
  match fromUtf8 (pathBytes path) with
  | none => false
  | some text => !text.contains '\\' && !text.all isSpace

theorem isPlainPath_iff : isPlainPath path = true ↔
    ∃ text, Spells text path ∧ text.toList.all isSpace = false := by
  unfold isPlainPath
  constructor
  · intro h
    split at h
    · cases h
    · rename_i chars hchars
      simp only [Bool.and_eq_true, Bool.not_eq_true', List.contains_eq_mem,
        decide_eq_false_iff_not] at h
      refine ⟨String.ofList chars, ⟨utf8_of_fromUtf8 hchars, ?_⟩, ?_⟩
      · rw [String.toList_ofList]
        exact h.1
      · rw [String.toList_ofList]
        exact h.2
  · rintro ⟨text, ⟨hbytes, hslash⟩, hblank⟩
    rw [← hbytes, fromUtf8_utf8]
    simp [hslash, hblank]

/-! ## From a path to its text -/

theorem Spells.relative (h : Spells text path) : workspaceRelativePath path = text := by
  have hsame : text.toList.map (fun c => if c = '\\' then '/' else c) = text.toList := by
    nth_rewrite 2 [← List.map_id text.toList]
    apply List.map_congr_left
    intro c hc
    rw [if_neg, id]
    rintro rfl
    exact h.2 hc
  rw [workspaceRelativePath, ← h.1, fromUtf8Lossy_utf8, hsame, String.ofList_toList]

theorem backslash_notMem_relative (path : List FileName) :
    '\\' ∉ (workspaceRelativePath path).toList := by
  rw [workspaceRelativePath, String.toList_ofList, List.mem_map]
  rintro ⟨c, -, hc⟩
  split at hc
  · exact absurd hc (by decide)
  · contradiction

theorem isFileName_iff {bytes : List UInt8} : isFileName bytes = true ↔
    bytes ≠ [] ∧ bytes ≠ [0x2E] ∧ bytes ≠ [0x2E, 0x2E] ∧ 0x2F ∉ bytes ∧ 0 ∉ bytes := by
  unfold isFileName
  simp [and_assoc]

theorem slash_notMem (name : FileName) : (0x2F : UInt8) ∉ name.bytes :=
  (isFileName_iff.mp name.admitted).2.2.2.1

theorem encodeChar_slash : String.utf8EncodeChar '/' = [0x2F] := rfl

/-- The parts of the text are the names of the path. -/
theorem Spells.parts (h : Spells text path) (hpath : path ≠ []) :
    (text.toList.splitOn '/').map encodeText = path.map FileName.bytes := by
  have hnames : ∀ bytes ∈ path.map FileName.bytes, (0x2F : UInt8) ∉ bytes := by
    intro bytes hmem
    obtain ⟨name, -, rfl⟩ := List.mem_map.mp hmem
    exact slash_notMem name
  have hne : path.map FileName.bytes ≠ [] := by
    simpa using hpath
  calc (text.toList.splitOn '/').map encodeText
      = (encodeText text.toList).splitOn 0x2F :=
        (splitOn_encodeText encodeChar_slash (by decide) _).symm
    _ = (pathBytes path).splitOn 0x2F := by
        rw [← utf8_ofList, String.ofList_toList, h.1]
    _ = path.map FileName.bytes := List.splitOn_intercalate 0x2F hnames hne

theorem fileName?_ofList {part : List Char} {name : FileName} (h : encodeText part = name.bytes) :
    fileName? (String.ofList part) = some name := by
  have hbytes : utf8 (String.ofList part) = name.bytes := by
    rw [utf8_ofList, h]
  unfold fileName?
  rw [dif_pos (by rw [hbytes]; exact name.admitted)]
  cases name
  simp only [hbytes]

theorem partComponent?_of_name {part : List Char} {name : FileName}
    (h : encodeText part = name.bytes) :
    partComponent? part = some (.normal (String.ofList part)) := by
  have hname := isFileName_iff.mp name.admitted
  rw [← h] at hname
  unfold partComponent?
  rw [if_neg, if_neg]
  · rintro rfl
    exact hname.2.2.1 rfl
  · rintro (rfl | rfl)
    · exact hname.1 rfl
    · exact hname.2.1 rfl

/-- Parts that are names, as components and back. -/
theorem components_of_names {parts : List (List Char)}
    (h : parts.map encodeText = names.map FileName.bytes) :
    parts.filterMap partComponent? =
        parts.map (fun part => Component.normal (String.ofList part)) ∧
      (parts.map fun part => Component.normal (String.ofList part)).mapM componentName? =
        some names := by
  induction parts generalizing names with
  | nil =>
    cases names with
    | nil => simp
    | cons name names => simp at h
  | cons part parts ih =>
    cases names with
    | nil => simp at h
    | cons name names =>
      simp only [List.map_cons, List.cons.injEq] at h
      obtain ⟨hcomponents, hnames⟩ := ih h.2
      constructor
      · rw [List.filterMap_cons, partComponent?_of_name h.1, hcomponents]
        rfl
      · rw [List.map_cons, List.mapM_cons, hnames]
        simp [componentName?, fileName?_ofList h.1]

theorem Spells.bodyComponents (h : Spells text path) (hpath : path ≠ []) :
    bodyComponents text.toList =
      (text.toList.splitOn '/').map fun part => Component.normal (String.ofList part) :=
  (components_of_names (h.parts hpath)).1

/-- A path of names does not begin with a separator. -/
theorem Spells.isAbsolute (h : Spells text path) (hpath : path ≠ []) : isAbsolute text = false := by
  have hparts := h.parts hpath
  unfold Lib.isAbsolute
  cases htext : text.toList with
  | nil => rfl
  | cons c rest =>
    have hne : c ≠ '/' := by
      rintro rfl
      rw [htext, ← List.nil_append ('/' :: rest), List.splitOn_append_cons_self,
        List.splitOn_nil] at hparts
      cases path with
      | nil => exact hpath rfl
      | cons name names =>
        simp only [List.singleton_append, List.map_cons, List.cons.injEq] at hparts
        exact (isFileName_iff.mp name.admitted).1 hparts.1.symm
    rw [List.isPrefixOf_cons_cons, Bool.and_eq_false_iff]
    exact Or.inl (beq_eq_false_iff_ne.mpr hne.symm)

theorem Spells.steps (h : Spells text path) (hpath : path ≠ []) :
    steps text = (text.toList.splitOn '/').map fun part =>
        Component.normal (String.ofList part) := by
  rw [steps_of_relative (h.isAbsolute hpath), h.bodyComponents hpath]

theorem Spells.destinationNames? (h : Spells text path) (hpath : path ≠ []) :
    destinationNames? text = some path := by
  have hnames := components_of_names (h.parts hpath)
  have hlast : ((text.toList.splitOn '/').getLast?.bind partComponent?).isSome = true := by
    have hne : text.toList.splitOn '/' ≠ [] := List.splitOn_ne_nil _ _
    rw [List.getLast?_eq_some_getLast hne, Option.bind_some]
    have hmem := List.getLast_mem hne
    have hmapped := List.mem_map_of_mem (f := encodeText) hmem
    rw [h.parts hpath] at hmapped
    obtain ⟨name, -, hname⟩ := List.mem_map.mp hmapped
    rw [partComponent?_of_name hname.symm]
    rfl
  unfold Artifacts.destinationNames?
  split
  · rename_i hnone
    rw [hnone] at hlast
    cases hlast
  · rw [h.steps hpath]
    exact hnames.2

theorem Spells.leavesDirectory (h : Spells text path) (hpath : path ≠ []) :
    leavesDirectory text = false := by
  have hsteps := h.steps hpath
  unfold Artifacts.leavesDirectory
  rw [h.isAbsolute hpath, Bool.false_or, List.any_eq_false]
  intro component hmem
  rcases components_cases text with hsame | hcur
  · rw [hsame, hsteps, List.mem_map] at hmem
    obtain ⟨part, -, rfl⟩ := hmem
    simp
  · rw [hcur, hsteps, List.mem_cons, List.mem_map] at hmem
    rcases hmem with rfl | ⟨part, -, rfl⟩
    · simp
    · simp

/-- A plain path is pulled to where it was. -/
theorem Spells.safeRelativePath (h : Spells text path) (hpath : path ≠ []) :
    safeRelativePath text = .ok () ↔ text.toList.all isSpace = false := by
  unfold Artifacts.safeRelativePath
  rw [require_eq_ok, h.leavesDirectory hpath, Bool.or_false, Bool.not_eq_true']

/-! ## From a text to a path -/

theorem bytes_of_componentName? {component : Component} {name : FileName}
    (h : componentName? component = some name) :
    ∃ part, component = .normal part ∧ name.bytes = utf8 part := by
  cases component with
  | normal part =>
    refine ⟨part, rfl, ?_⟩
    have hname : fileName? part = some name := h
    unfold fileName? at hname
    by_cases hadmitted : isFileName (utf8 part) = true
    · rw [dif_pos hadmitted, Option.some.injEq] at hname
      rw [← hname]
    · rw [dif_neg hadmitted] at hname
      cases hname
  | rootDir => cases h
  | curDir => cases h
  | parentDir => cases h

/-- The names are parts of the text. -/
theorem parts_of_components {parts : List (List Char)}
    (h : (parts.filterMap partComponent?).mapM componentName? = some names) :
    ∃ kept : List (List Char), kept.Sublist parts ∧
      kept.map encodeText = names.map FileName.bytes := by
  induction parts generalizing names with
  | nil =>
    simp at h
    exact ⟨[], List.Sublist.slnil, by rw [h]; rfl⟩
  | cons part parts ih =>
    cases hpart : partComponent? part with
    | none =>
      rw [List.filterMap_cons_none hpart] at h
      obtain ⟨kept, hkept, hnames⟩ := ih h
      exact ⟨kept, hkept.cons _, hnames⟩
    | some component =>
      rw [List.filterMap_cons_some hpart, List.mapM_cons] at h
      simp only [Option.bind_eq_bind, Option.bind_eq_some_iff, Option.pure_def,
        Option.some.injEq] at h
      obtain ⟨name, hname, rest, hrest, rfl⟩ := h
      obtain ⟨kept, hkept, hnames⟩ := ih hrest
      obtain ⟨chars, rfl, hbytes⟩ := bytes_of_componentName? hname
      have hchars : String.ofList part = chars := by
        unfold partComponent? at hpart
        split at hpart
        · cases hpart
        · split at hpart
          · cases hpart
          · cases hpart
            rfl
      refine ⟨part :: kept, hkept.cons_cons _, ?_⟩
      rw [List.map_cons, List.map_cons, hnames, hbytes, ← hchars, utf8_ofList]

/-- A text without backslashes leads to a path that has a text without them. -/
theorem exists_spells (h : destinationNames? text = some names)
    (habsolute : isAbsolute text = false)
    (hslash : '\\' ∉ text.toList) : ∃ spelled, Spells spelled names := by
  unfold destinationNames? at h
  split at h
  · cases h
  · rw [steps_of_relative habsolute, Lib.bodyComponents] at h
    obtain ⟨kept, hkept, hnames⟩ := parts_of_components h
    refine ⟨String.ofList (['/'].intercalate kept), ?_, ?_⟩
    · rw [utf8_ofList, encodeText_intercalate encodeChar_slash, hnames, pathBytes]
    · rw [String.toList_ofList]
      intro hmem
      rcases mem_intercalate hmem with hsep | ⟨part, hpart, hin⟩
      · exact absurd hsep (by decide)
      · exact hslash ((sublist_of_mem_splitOn (hkept.subset hpart)).subset hin)

end DevRelay.Artifacts
