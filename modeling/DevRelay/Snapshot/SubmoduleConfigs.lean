import DevRelay.Snapshot.UnmergedEntries

/-!
# The declared submodules

`submodule_configs` reads what `git config --get-regexp` prints of `.gitmodules`, a line
for each variable: the key, a blank and the value.  A name with a blank in it moves the
end of the key, and a value is one line without the white space that the end of a line and
of the output lose.
-/

namespace DevRelay.Snapshot

open DevRelay.Lib DevRelay.Core

structure SubmoduleConfig where
  path : Option String := none
  url : Option String := none
  deriving DecidableEq, Repr

/-- What the keys of submodules begin with. -/
def submoduleKeyFront : List Char := "submodule.".toList

/-! ## Reading -/

/-- One line of the output. -/
def readConfigLine (debug : String → String) (configs : SortedMap String SubmoduleConfig)
    (line : List Char) : Except DevRelayError (SortedMap String SubmoduleConfig) :=
  match splitn ' ' 2 line with
  | [key, value] =>
    match submoduleKeyFront.isPrefixOf? key with
    | none => .ok configs
    | some rest =>
      match rsplitOnce '.' rest with
      | none => .ok configs
      | some (name, field) =>
        .ok (configs.modify (String.ofList name) {} fun config =>
          if field = "path".toList then { config with path := some (String.ofList value) }
          else if field = "url".toList then
            { config with url := some (String.ofList value) }
          else config)
  | _ => .error (.config
      ("unexpected .gitmodules config record: " ++ debug (String.ofList line)))

/-- `raw` is the output of `git config`; `none` stands for a missing `.gitmodules` and for a
failure of the command, which also reports that no variable matches. -/
def submoduleConfigs (debug : String → String) (raw : Option (List Char)) :
    Except DevRelayError (SortedMap String SubmoduleConfig) :=
  match raw with
  | none => .ok SortedMap.empty
  | some raw =>
    ((lines (trimEnd raw)).filter fun line => !line.all isSpace).foldlM
      (readConfigLine debug) SortedMap.empty

/-! ## Writing -/

inductive SubmoduleField where
  | path
  | url
  deriving DecidableEq, Repr

def SubmoduleField.asStr : SubmoduleField → String
  | .path => "path"
  | .url => "url"

/-- A variable of a submodule. -/
structure ConfigRecord where
  name : List Char
  field : SubmoduleField
  value : List Char
  deriving DecidableEq, Repr

def ConfigRecord.key (r : ConfigRecord) : List Char :=
  submoduleKeyFront ++ (r.name ++ '.' :: r.field.asStr.toList)

def ConfigRecord.line (r : ConfigRecord) : List Char := r.key ++ ' ' :: r.value

/-- The output of `git config --get-regexp`. -/
def configOutput (records : List ConfigRecord) : Option (List Char) :=
  if records = [] then none else some (frame '\n' (records.map ConfigRecord.line))

/-- A `.gitmodules` file as git has it: no name spans lines, and no variable is set
twice. -/
structure GitConfigured (records : List ConfigRecord) : Prop where
  named : ∀ r ∈ records, '\n' ∉ r.name
  single : records.Pairwise fun r s => ¬(r.name = s.name ∧ r.field = s.field)

/-! ## What is declared -/

def valueOf (records : List ConfigRecord) (name : List Char) (field : SubmoduleField) :
    Option String :=
  (records.find? fun r => r.name = name ∧ r.field = field).map fun r => String.ofList r.value

/-- The path and the url of a submodule that has one of them. -/
def declared (records : List ConfigRecord) (name : String) : Option SubmoduleConfig :=
  if ∃ r ∈ records, r.name = name.toList then
    some ⟨valueOf records name.toList .path, valueOf records name.toList .url⟩
  else none

/-- One entry for each submodule, with its exact name, path and url. -/
def SeesEvery (records : List ConfigRecord)
    (result : Except DevRelayError (SortedMap String SubmoduleConfig)) : Prop :=
  ∃ configs, result = .ok configs ∧ ∀ name, configs.find? name = declared records name

/-- No blank in a name, and values that survive as the rest of a line. -/
structure RecordsPlain (records : List ConfigRecord) : Prop where
  names : ∀ r ∈ records, ' ' ∉ r.name
  oneLine : ∀ r ∈ records, '\n' ∉ r.value
  unreturned : ∀ r ∈ records, r.value.getLast? ≠ some '\r'
  last : ∀ r ∈ records.getLast?, ∃ c, r.value.getLast? = some c ∧ isSpace c = false

/-! ## One record -/

def ConfigRecord.put (r : ConfigRecord) (config : SubmoduleConfig) : SubmoduleConfig :=
  match r.field with
  | .path => { config with path := some (String.ofList r.value) }
  | .url => { config with url := some (String.ofList r.value) }

def ConfigRecord.enter (r : ConfigRecord) (configs : SortedMap String SubmoduleConfig) :
    SortedMap String SubmoduleConfig :=
  configs.modify (String.ofList r.name) {} r.put

variable {debug : String → String} {records : List ConfigRecord} {r : ConfigRecord}
  {configs : SortedMap String SubmoduleConfig}

theorem blank_notMem_key (h : ' ' ∉ r.name) : ' ' ∉ r.key := by
  have hfront : ' ' ∉ submoduleKeyFront := by decide
  have hback : ∀ field : SubmoduleField, ' ' ∉ '.' :: field.asStr.toList := by
    intro field
    cases field <;> decide
  exact List.not_mem_append hfront (List.not_mem_append h (hback r.field))

theorem readConfigLine_line (h : ' ' ∉ r.name) :
    readConfigLine debug configs r.line = .ok (r.enter configs) := by
  have hsplit : splitn ' ' 2 r.line = [r.key, r.value] := by
    have hkeys : ∀ f ∈ [r.key], ' ' ∉ f := by
      intro f hf
      rw [List.mem_singleton.mp hf]
      exact blank_notMem_key h
    have hframe := splitn_frame hkeys r.value
    rwa [frame_cons, frame_nil, List.append_assoc, List.cons_append, List.nil_append] at hframe
  have hkey : submoduleKeyFront.isPrefixOf? r.key = some (r.name ++ '.' :: r.field.asStr.toList) :=
    List.isPrefixOf?_eq_some_iff_append_eq.mpr rfl
  have hdot : '.' ∉ r.field.asStr.toList := by
    cases r.field <;> decide
  rw [readConfigLine, hsplit]
  simp only [hkey, rsplitOnce_append r.name hdot]
  cases hfield : r.field with
  | path =>
    have hput : r.put = fun config => { config with path := some (String.ofList r.value) } := by
      funext config
      rw [ConfigRecord.put, hfield]
    rw [ConfigRecord.enter, hput]
    rfl
  | url =>
    have hput : r.put = fun config => { config with url := some (String.ofList r.value) } := by
      funext config
      rw [ConfigRecord.put, hfield]
    rw [ConfigRecord.enter, hput]
    rfl

theorem foldlM_lines (h : ∀ r ∈ records, ' ' ∉ r.name) :
    (records.map ConfigRecord.line).foldlM (readConfigLine debug) configs =
      .ok (records.foldl (fun configs r => r.enter configs) configs) := by
  induction records generalizing configs with
  | nil => rfl
  | cons r records ih =>
    rw [List.map_cons, List.foldlM_cons, readConfigLine_line (h r List.mem_cons_self)]
    exact ih fun s hs => h s (List.mem_cons_of_mem r hs)

/-! ## What the records enter -/

theorem valueOf_concat (field : SubmoduleField) (name : List Char) :
    valueOf (records ++ [r]) name field = (valueOf records name field).or
      (if r.name = name ∧ r.field = field then some (String.ofList r.value) else none) := by
  rw [valueOf, List.find?_append, Option.map_or, valueOf, List.find?_singleton]
  by_cases hr : r.name = name ∧ r.field = field
  · rw [if_pos (decide_eq_true hr), if_pos hr]
    rfl
  · rw [if_neg (fun h => hr (of_decide_eq_true h)), if_neg hr]
    rfl

theorem valueOf_eq_none {name : List Char} {field : SubmoduleField}
    (h : ∀ s ∈ records, ¬(s.name = name ∧ s.field = field)) :
    valueOf records name field = none := by
  rw [valueOf, Option.map_eq_none_iff, List.find?_eq_none]
  intro s hs
  rw [decide_eq_true_eq]
  exact h s hs

/-- A new variable is put into the entry of its submodule. -/
theorem declared_concat (hnew : ∀ s ∈ records, ¬(s.name = r.name ∧ s.field = r.field))
    (name : String) :
    declared (records ++ [r]) name =
      if name = String.ofList r.name then some (r.put ((declared records name).getD {}))
      else declared records name := by
  by_cases hname : name = String.ofList r.name
  · rw [if_pos hname, hname]
    have hself : String.toList (String.ofList r.name) = r.name := String.toList_ofList
    have hmem : ∃ s ∈ records ++ [r], s.name = (String.ofList r.name).toList :=
      ⟨r, by simp, hself.symm⟩
    rw [declared, if_pos hmem, hself, valueOf_concat, valueOf_concat]
    have hnone := valueOf_eq_none hnew
    by_cases hold : ∃ s ∈ records, s.name = (String.ofList r.name).toList
    · rw [declared, if_pos hold, hself, ConfigRecord.put]
      cases hfield : r.field with
      | path =>
        rw [hfield] at hnone
        simp [hnone]
      | url =>
        rw [hfield] at hnone
        simp [hnone]
    · have hall : ∀ field, valueOf records r.name field = none := by
        intro field
        apply valueOf_eq_none
        intro s hs heq
        exact hold ⟨s, hs, by rw [hself]; exact heq.1⟩
      rw [declared, if_neg hold, hall, hall, ConfigRecord.put]
      cases hfield : r.field <;> simp
  · have hne : r.name ≠ name.toList := by
      intro heq
      apply hname
      rw [heq, String.ofList_toList]
    rw [if_neg hname, declared, declared, valueOf_concat, valueOf_concat]
    simp [hne]

theorem find?_foldl_enter (hsingle : records.Pairwise fun r s =>
      ¬(r.name = s.name ∧ r.field = s.field)) (name : String) :
    (records.foldl (fun configs r => r.enter configs) SortedMap.empty).find? name =
      declared records name := by
  induction records using List.reverseRecOn with
  | nil => rfl
  | append_singleton records r ih =>
    have hparts := List.pairwise_append.mp hsingle
    rw [List.foldl_append, List.foldl_cons, List.foldl_nil, ConfigRecord.enter,
      declared_concat (fun s hs => hparts.2.2 s hs r (List.mem_singleton_self r))]
    by_cases hname : name = String.ofList r.name
    · rw [if_pos hname, hname, SortedMap.find?_modify_self, ← hname, ih hparts.1]
    · rw [if_neg hname, SortedMap.find?_modify_of_ne hname, ih hparts.1]

/-! ## What no line can say -/

/-- No entry has a blank in its name, and no path or url spans lines. -/
def Unbroken (configs : SortedMap String SubmoduleConfig) : Prop :=
  ∀ entry ∈ configs.entries, ' ' ∉ entry.1.toList ∧
    (∀ path ∈ entry.2.path, '\n' ∉ path.toList) ∧ ∀ url ∈ entry.2.url, '\n' ∉ url.toList

theorem unbroken_getD (h : Unbroken configs) (name : String) :
    (∀ path ∈ ((configs.find? name).getD {}).path, '\n' ∉ path.toList) ∧
      ∀ url ∈ ((configs.find? name).getD {}).url, '\n' ∉ url.toList := by
  cases hfind : configs.find? name with
  | none => exact ⟨fun _ hmem => absurd hmem (Option.not_mem_none _),
      fun _ hmem => absurd hmem (Option.not_mem_none _)⟩
  | some config => exact (h _ (SortedMap.mem_entries_of_find? hfind)).2

theorem splitn_two {sep : Char} {text key value : List Char}
    (h : splitn sep 2 text = [key, value]) : sep ∉ key ∧ value.Sublist text := by
  unfold splitn at h
  rw [List.span_eq_takeWhile_dropWhile] at h
  split at h
  · cases h
  · rename_i piece c rest heq
    rw [splitn] at h
    cases h
    obtain ⟨hpiece, hrest⟩ := Prod.mk.inj heq
    constructor
    · intro hmem
      rw [← hpiece] at hmem
      have hkeep := List.all_eq_true.mp List.all_takeWhile _ hmem
      simp at hkeep
    · have hsuffix := List.dropWhile_suffix (l := text) (fun c => decide (c ≠ sep))
      rw [hrest] at hsuffix
      exact (List.sublist_cons_self c value).trans hsuffix.sublist

theorem readConfigLine_unbroken {line : List Char} {next : SortedMap String SubmoduleConfig}
    (hconfigs : Unbroken configs) (hline : '\n' ∉ line)
    (h : readConfigLine debug configs line = .ok next) : Unbroken next := by
  unfold readConfigLine at h
  split at h
  · rename_i key value hsplit
    obtain ⟨hkey, hvalue⟩ := splitn_two hsplit
    split at h
    · cases h
      exact hconfigs
    · rename_i rest hrest
      have hname := List.isPrefixOf?_eq_some_iff_append_eq.mp hrest
      split at h
      · cases h
        exact hconfigs
      · rename_i name field hcut
        cases h
        have hold := unbroken_getD hconfigs (String.ofList name)
        have hnew : '\n' ∉ (String.ofList value).toList := by
          rw [String.toList_ofList]
          exact fun hmem => hline (hvalue.subset hmem)
        apply SortedMap.forall_entries_insert hconfigs
        refine ⟨?_, ?_⟩
        · rw [String.toList_ofList]
          intro hmem
          apply hkey
          rw [← hname]
          exact List.mem_append_right _ ((sublist_of_rsplitOnce hcut).subset hmem)
        · split_ifs
          · refine ⟨fun path hpath => ?_, hold.2⟩
            rw [← Option.some.inj hpath]
            exact hnew
          · refine ⟨hold.1, fun url hurl => ?_⟩
            rw [← Option.some.inj hurl]
            exact hnew
          · exact hold
  · cases h

theorem foldlM_unbroken {rows : List (List Char)} {next : SortedMap String SubmoduleConfig}
    (hconfigs : Unbroken configs) (hrows : ∀ row ∈ rows, '\n' ∉ row)
    (h : rows.foldlM (readConfigLine debug) configs = .ok next) : Unbroken next := by
  induction rows generalizing configs with
  | nil =>
    cases h
    exact hconfigs
  | cons row rows ih =>
    rw [List.foldlM_cons] at h
    obtain ⟨between, hbetween, hrest⟩ := bind_eq_ok_iff.mp h
    exact ih (readConfigLine_unbroken hconfigs (hrows row List.mem_cons_self) hbetween)
      (fun other hother => hrows other (List.mem_cons_of_mem row hother)) hrest

theorem submoduleConfigs_unbroken {raw : Option (List Char)}
    {next : SortedMap String SubmoduleConfig} (h : submoduleConfigs debug raw = .ok next) :
    Unbroken next := by
  cases raw with
  | none =>
    cases h
    exact fun entry hentry => absurd hentry List.not_mem_nil
  | some raw =>
    refine foldlM_unbroken (fun entry hentry => absurd hentry List.not_mem_nil) ?_ h
    exact fun row hrow => lineFeed_notMem_of_mem_lines (List.mem_filter.mp hrow).1

theorem valueOf_mem (hconfigured : GitConfigured records) (hr : r ∈ records) :
    valueOf records r.name r.field = some (String.ofList r.value) := by
  induction records with
  | nil => exact absurd hr List.not_mem_nil
  | cons s records ih =>
    have hparts := List.pairwise_cons.mp hconfigured.single
    rw [valueOf, List.find?_cons]
    cases List.mem_cons.mp hr with
    | inl heq =>
      rw [heq, decide_eq_true ⟨rfl, rfl⟩]
      rfl
    | inr hmem =>
      have hother := hparts.1 r hmem
      rw [decide_eq_false hother]
      exact ih ⟨fun t ht => hconfigured.named t (List.mem_cons_of_mem s ht), hparts.2⟩ hmem

theorem declared_mem (hr : r ∈ records) : declared records (String.ofList r.name) =
    some ⟨valueOf records r.name .path, valueOf records r.name .url⟩ := by
  have hself : String.toList (String.ofList r.name) = r.name := String.toList_ofList
  rw [declared, if_pos ⟨r, hr, hself.symm⟩, hself]

/-- What is seen has no blank in a name and no line end in a value. -/
theorem plain_of_seesEvery (hconfigured : GitConfigured records)
    (h : SeesEvery records (submoduleConfigs debug (configOutput records))) :
    ∀ r ∈ records, ' ' ∉ r.name ∧ '\n' ∉ r.value := by
  obtain ⟨configs, hok, hfind⟩ := h
  have hunbroken := submoduleConfigs_unbroken hok
  intro r hr
  have hentry := hfind (String.ofList r.name)
  rw [declared_mem hr] at hentry
  obtain ⟨hname, hpath, hurl⟩ := hunbroken _ (SortedMap.mem_entries_of_find? hentry)
  rw [String.toList_ofList] at hname
  refine ⟨hname, ?_⟩
  have hvalue := valueOf_mem hconfigured hr
  have hplain : '\n' ∉ (String.ofList r.value).toList := by
    cases hfield : r.field with
    | path =>
      rw [hfield] at hvalue
      exact hpath _ hvalue
    | url =>
      rw [hfield] at hvalue
      exact hurl _ hvalue
  rwa [String.toList_ofList] at hplain

/-! ## What the lines say -/

/-- White space, or white space behind something else. -/
theorem blank_or_trimmed (text : List Char) : (∀ c ∈ text, isSpace c = true) ∨
    ∃ front last ending, text = front ++ last :: ending ∧ isSpace last = false ∧
      ∀ c ∈ ending, isSpace c = true := by
  induction text with
  | nil => exact Or.inl fun c hc => absurd hc List.not_mem_nil
  | cons c text ih =>
    cases ih with
    | inr h =>
      obtain ⟨front, last, ending, htext, hlast, hending⟩ := h
      exact Or.inr ⟨c :: front, last, ending, by rw [htext]; rfl, hlast, hending⟩
    | inl h =>
      cases hc : isSpace c with
      | true => exact Or.inl (List.forall_mem_cons.mpr ⟨hc, h⟩)
      | false => exact Or.inr ⟨[], c, text, rfl, hc, h⟩

def ConfigRecord.withValue (r : ConfigRecord) (value : List Char) : ConfigRecord :=
  { r with value := value }

theorem line_withValue (value : List Char) : (r.withValue value).line = r.key ++ ' ' :: value :=
  rfl

/-- A record as the end of a line leaves it. -/
def ConfigRecord.unreturned (r : ConfigRecord) : ConfigRecord :=
  r.withValue (stripCarriageReturn r.value)

theorem stripCarriageReturn_line (r : ConfigRecord) :
    stripCarriageReturn r.line = r.unreturned.line := by
  have hline : r.unreturned.line = r.key ++ ' ' :: stripCarriageReturn r.value := rfl
  rw [hline, ConfigRecord.line]
  unfold stripCarriageReturn
  cases hvalue : r.value with
  | nil =>
    rw [List.getLast?_concat]
    rfl
  | cons c value =>
    rw [List.getLast?_append_of_ne_nil _ (List.cons_ne_nil _ _), List.getLast?_cons_cons]
    split
    · rw [List.dropLast_append_of_ne_nil (List.cons_ne_nil _ _), List.dropLast_cons_cons]
    · rfl

theorem lineFeed_notMem_line (hname : '\n' ∉ r.name) (hvalue : '\n' ∉ r.value) : '\n' ∉ r.line := by
  have hfront : '\n' ∉ submoduleKeyFront := by decide
  have hfield : ∀ field : SubmoduleField, '\n' ∉ '.' :: field.asStr.toList := by
    intro field
    cases field <;> decide
  have hblank : '\n' ∉ ' ' :: r.value := by
    rw [List.mem_cons]
    exact fun h => h.elim (by decide) hvalue
  exact List.not_mem_append
    (List.not_mem_append hfront (List.not_mem_append hname (hfield r.field))) hblank

theorem not_all_isSpace_submodule (rest : List Char) :
    (!(submoduleKeyFront ++ rest).all isSpace) = true := by
  have hs : isSpace 's' = false := by decide
  have hfront : (submoduleKeyFront ++ rest).all isSpace =
      (isSpace 's' && ("ubmodule.".toList ++ rest).all isSpace) := rfl
  rw [hfront, hs]
  rfl

/-- All lines of the output are read. -/
theorem filter_lines_of_key {rows : List (List Char)}
    (h : ∀ row ∈ rows, ∃ rest, row = submoduleKeyFront ++ rest) :
    (rows.filter fun row => !row.all isSpace) = rows := by
  rw [List.filter_eq_self]
  intro row hrow
  obtain ⟨rest, hrest⟩ := h row hrow
  rw [hrest]
  exact not_all_isSpace_submodule rest

theorem line_eq_submodule (r : ConfigRecord) : ∃ rest, r.line = submoduleKeyFront ++ rest :=
  ⟨_, List.append_assoc _ _ _⟩

/-- A key does not end with white space. -/
theorem key_eq_concat (r : ConfigRecord) :
    ∃ start last, r.key = start ++ [last] ∧ isSpace last = false := by
  have hfield : ∀ field : SubmoduleField, ∃ start last,
      field.asStr.toList = start ++ [last] ∧ isSpace last = false := by
    intro field
    cases field with
    | path => exact ⟨"pat".toList, 'h', by decide, by decide⟩
    | url => exact ⟨"ur".toList, 'l', by decide, by decide⟩
  obtain ⟨start, last, hstart, hlast⟩ := hfield r.field
  refine ⟨submoduleKeyFront ++ (r.name ++ '.' :: start), last, ?_, hlast⟩
  simp only [ConfigRecord.key, hstart, List.append_assoc, List.cons_append]

section Output

variable {front : List ConfigRecord}

/-- Only the lines in front of the last one are whole. -/
theorem lines_output {text : List Char} (hfront : ∀ s ∈ front, '\n' ∉ s.line)
    (htext : '\n' ∉ text) (hne : text ≠ []) :
    lines (frame '\n' (front.map ConfigRecord.line) ++ text) =
      (front.map ConfigRecord.unreturned).map ConfigRecord.line ++ [text] := by
  have hrows : ∀ row ∈ front.map ConfigRecord.line, '\n' ∉ row := by
    intro row hrow
    obtain ⟨s, hs, heq⟩ := List.mem_map.mp hrow
    rw [← heq]
    exact hfront s hs
  rw [lines_frame hrows, lines_last htext hne, List.map_map, List.map_map]
  congr 1
  exact List.map_congr_left fun s _ => stripCarriageReturn_line s

theorem configOutput_concat :
    configOutput (front ++ [r]) =
      some (frame '\n' (front.map ConfigRecord.line) ++ (r.line ++ ['\n'])) := by
  rw [configOutput, if_neg (by simp), List.map_append, frame_append, List.map_singleton,
    frame_cons, frame_nil]

variable (debug) in
/-- The values as they are read, when the last one is not blank. -/
theorem submoduleConfigs_output (hnames : ∀ s ∈ front ++ [r], ' ' ∉ s.name)
    (hlines : ∀ s ∈ front ++ [r], '\n' ∉ s.line) {value ending : List Char} {last : Char}
    (hvalue : r.value = value ++ last :: ending) (hlast : isSpace last = false)
    (hending : ∀ c ∈ ending, isSpace c = true) :
    submoduleConfigs debug (configOutput (front ++ [r])) =
      .ok ((front.map ConfigRecord.unreturned ++ [r.withValue (value ++ [last])]).foldl
        (fun configs (s : ConfigRecord) => s.enter configs) SortedMap.empty) := by
  have htrimmed : trimEnd (frame '\n' (front.map ConfigRecord.line) ++ (r.line ++ ['\n'])) =
      frame '\n' (front.map ConfigRecord.line) ++
        (r.withValue (value ++ [last])).line := by
    have hshape : frame '\n' (front.map ConfigRecord.line) ++ (r.line ++ ['\n']) =
        (frame '\n' (front.map ConfigRecord.line) ++ (r.key ++ ' ' :: value)) ++
          last :: (ending ++ ['\n']) := by
      rw [ConfigRecord.line, hvalue]
      simp only [List.append_assoc, List.cons_append]
    have hspaces : ∀ c ∈ ending ++ ['\n'], isSpace c = true := by
      rw [List.forall_mem_append]
      refine ⟨hending, fun c hc => ?_⟩
      rw [List.mem_singleton.mp hc]
      decide
    rw [hshape, trimEnd_append hspaces hlast, line_withValue]
    simp only [List.append_assoc, List.cons_append]
  have hr := hlines r (List.mem_append_right front (List.mem_singleton_self r))
  have hcut : '\n' ∉ (r.withValue (value ++ [last])).line := by
    intro hmem
    apply hr
    have hline : r.line = (r.withValue (value ++ [last])).line ++ ending := by
      rw [line_withValue, ConfigRecord.line, hvalue]
      simp only [List.append_assoc, List.cons_append, List.nil_append]
    rw [hline]
    exact List.mem_append_left _ hmem
  have hrows := lines_output
    (fun s hs => hlines s (List.mem_append_left [r] hs)) hcut
    (by rw [line_withValue]; exact List.append_ne_nil_of_right_ne_nil _ (List.cons_ne_nil _ _))
  rw [configOutput_concat, submoduleConfigs, htrimmed, hrows]
  have hmapped : (front.map ConfigRecord.unreturned).map ConfigRecord.line ++
      [(r.withValue (value ++ [last])).line] =
      (front.map ConfigRecord.unreturned ++ [r.withValue (value ++ [last])]).map
        ConfigRecord.line := by
    rw [List.map_append]
    rfl
  rw [hmapped, filter_lines_of_key, foldlM_lines]
  · intro s hs
    cases List.mem_append.mp hs with
    | inl hmem =>
      obtain ⟨t, ht, heq⟩ := List.mem_map.mp hmem
      rw [← heq]
      exact hnames t (List.mem_append_left [r] ht)
    | inr hmem =>
      rw [List.mem_singleton.mp hmem]
      exact hnames r (List.mem_append_right front (List.mem_singleton_self r))
  · intro row hrow
    obtain ⟨s, -, heq⟩ := List.mem_map.mp hrow
    rw [← heq]
    exact line_eq_submodule s

/-- A blank last value loses the end of its key. -/
theorem submoduleConfigs_blank (hnames : ∀ s ∈ front ++ [r], ' ' ∉ s.name)
    (hlines : ∀ s ∈ front ++ [r], '\n' ∉ s.line) (hblank : ∀ c ∈ r.value, isSpace c = true)
    {configs : SortedMap String SubmoduleConfig} :
    submoduleConfigs debug (configOutput (front ++ [r])) ≠ .ok configs := by
  have hname := hnames r (List.mem_append_right front (List.mem_singleton_self r))
  have hr := hlines r (List.mem_append_right front (List.mem_singleton_self r))
  obtain ⟨start, last, hkey, hlast⟩ := key_eq_concat r
  have htrimmed : trimEnd (frame '\n' (front.map ConfigRecord.line) ++ (r.line ++ ['\n'])) =
      frame '\n' (front.map ConfigRecord.line) ++ r.key := by
    have hshape : frame '\n' (front.map ConfigRecord.line) ++ (r.line ++ ['\n']) =
        (frame '\n' (front.map ConfigRecord.line) ++ start) ++
          last :: (' ' :: (r.value ++ ['\n'])) := by
      rw [ConfigRecord.line, hkey]
      simp only [List.append_assoc, List.cons_append, List.nil_append]
    have hspaces : ∀ c ∈ ' ' :: (r.value ++ ['\n']), isSpace c = true := by
      rw [List.forall_mem_cons, List.forall_mem_append]
      refine ⟨by decide, hblank, fun c hc => ?_⟩
      rw [List.mem_singleton.mp hc]
      decide
    rw [hshape, trimEnd_append hspaces hlast, hkey, List.append_assoc]
  have hcut : '\n' ∉ r.key := fun hmem => hr (List.mem_append_left _ hmem)
  have hrows := lines_output (fun s hs => hlines s (List.mem_append_left [r] hs)) hcut
    (by rw [hkey]; exact List.append_ne_nil_of_right_ne_nil _ (List.cons_ne_nil _ _))
  have hkept : (((front.map ConfigRecord.unreturned).map ConfigRecord.line ++ [r.key]).filter
      fun row => !row.all isSpace) =
      (front.map ConfigRecord.unreturned).map ConfigRecord.line ++ [r.key] := by
    apply filter_lines_of_key
    intro row hrow
    cases List.mem_append.mp hrow with
    | inl hmem =>
      obtain ⟨s, -, heq⟩ := List.mem_map.mp hmem
      rw [← heq]
      exact line_eq_submodule s
    | inr hmem =>
      rw [List.mem_singleton.mp hmem]
      exact ⟨_, rfl⟩
  intro h
  rw [configOutput_concat, submoduleConfigs, htrimmed, hrows, hkept, List.foldlM_append] at h
  obtain ⟨between, -, hlastStep⟩ := bind_eq_ok_iff.mp h
  rw [List.foldlM_cons] at hlastStep
  obtain ⟨next, hstep, -⟩ := bind_eq_ok_iff.mp hlastStep
  have hsingle : splitn ' ' 2 r.key = [r.key] := by
    have hkeep : ∀ c ∈ r.key, decide (c ≠ ' ') = true :=
      fun c hc => decide_eq_true fun heq => blank_notMem_key hname (heq ▸ hc)
    rw [splitn, List.span_eq_takeWhile_dropWhile, List.takeWhile_eq_self_iff.mpr hkeep,
      List.dropWhile_eq_nil_iff.mpr hkeep]
  rw [readConfigLine, hsingle] at hstep
  cases hstep

end Output

/-! ## What is seen is what is declared -/

theorem declared_agree_of {other : List ConfigRecord}
    (hconfigured : GitConfigured records) (hother : GitConfigured other)
    (h : ∀ name, declared other name = declared records name) {r s : ConfigRecord}
    (hr : r ∈ records) (hs : s ∈ other) (hname : s.name = r.name) (hfield : s.field = r.field) :
    s.value = r.value := by
  have hagree := h (String.ofList r.name)
  have hleft := declared_mem hs
  rw [hname] at hleft
  rw [hleft, declared_mem hr] at hagree
  have hconfig := Option.some.inj hagree
  have hsvalue := valueOf_mem hother hs
  have hrvalue := valueOf_mem hconfigured hr
  rw [hname, hfield] at hsvalue
  have hsame : valueOf other r.name r.field = valueOf records r.name r.field := by
    cases r.field with
    | path => exact congrArg SubmoduleConfig.path hconfig
    | url => exact congrArg SubmoduleConfig.url hconfig
  rw [hsvalue, hrvalue] at hsame
  exact String.ofList_inj.mp (Option.some.inj hsame)

/-- Other values change neither the names nor which variables are set. -/
theorem GitConfigured.of_keys {other : List ConfigRecord} (h : GitConfigured records)
    (hkeys : other.map (fun r => (r.name, r.field)) = records.map fun r => (r.name, r.field)) :
    GitConfigured other := by
  constructor
  · intro s hs
    have hmem : (s.name, s.field) ∈ other.map fun r => (r.name, r.field) :=
      List.mem_map_of_mem hs
    rw [hkeys] at hmem
    obtain ⟨r, hr, heq⟩ := List.mem_map.mp hmem
    have hname : r.name = s.name := congrArg Prod.fst heq
    rw [← hname]
    exact h.named r hr
  · have hpairs : (records.map fun r => (r.name, r.field)).Pairwise fun a b =>
        ¬(a.1 = b.1 ∧ a.2 = b.2) := List.pairwise_map.mpr h.single
    rw [← hkeys] at hpairs
    exact List.pairwise_map.mp hpairs

theorem stripCarriageReturn_eq_self {text : List Char} :
    stripCarriageReturn text = text ↔ text.getLast? ≠ some '\r' := by
  unfold stripCarriageReturn
  constructor
  · intro h hlast
    rw [if_pos hlast] at h
    have hne : text ≠ [] := by
      rintro rfl
      cases hlast
    have hlength := congrArg List.length h
    rw [List.length_dropLast] at hlength
    have hpos := List.length_pos_iff.mpr hne
    omega
  · intro h
    exact if_neg h

section

variable {front : List ConfigRecord}

/-- What is read of the records when the last value is not blank. -/
theorem seesEvery_iff_values (hconfigured : GitConfigured (front ++ [r]))
    (hplain : ∀ s ∈ front ++ [r], ' ' ∉ s.name ∧ '\n' ∉ s.value) {value ending : List Char}
    {last : Char} (hvalue : r.value = value ++ last :: ending) (hlast : isSpace last = false)
    (hending : ∀ c ∈ ending, isSpace c = true) :
    SeesEvery (front ++ [r]) (submoduleConfigs debug (configOutput (front ++ [r]))) ↔
      (∀ s ∈ front, s.value.getLast? ≠ some '\r') ∧ ending = [] := by
  have hresult := submoduleConfigs_output debug (fun s hs => (hplain s hs).1)
    (fun s hs => lineFeed_notMem_line (hconfigured.named s hs) (hplain s hs).2) hvalue hlast
    hending
  have hread : GitConfigured (front.map ConfigRecord.unreturned ++
      [r.withValue (value ++ [last])]) := by
    apply hconfigured.of_keys
    rw [List.map_append, List.map_append, List.map_map]
    rfl
  have hfind := find?_foldl_enter hread.single
  constructor
  · rintro ⟨configs, hconfigs, hseen⟩
    have hsame : ∀ name, declared (front.map ConfigRecord.unreturned ++
        [r.withValue (value ++ [last])]) name = declared (front ++ [r]) name := by
      intro name
      rw [← hfind, ← hseen]
      rw [hresult] at hconfigs
      rw [Except.ok.inj hconfigs]
    constructor
    · intro s hs
      apply stripCarriageReturn_eq_self.mp
      exact declared_agree_of hconfigured hread hsame (List.mem_append_left [r] hs)
        (List.mem_append_left _ (List.mem_map_of_mem hs)) rfl rfl
    · have hagree := declared_agree_of hconfigured hread hsame
        (List.mem_append_right front (List.mem_singleton_self r))
        (List.mem_append_right _ (List.mem_singleton_self (r.withValue (value ++ [last]))))
        rfl rfl
      have hlength := congrArg List.length hagree
      rw [hvalue] at hlength
      simp only [ConfigRecord.withValue, List.length_append, List.length_cons,
        List.length_nil] at hlength
      apply List.eq_nil_of_length_eq_zero
      omega
  · rintro ⟨hunreturned, hnil⟩
    have hself : front.map ConfigRecord.unreturned ++ [r.withValue (value ++ [last])] =
        front ++ [r] := by
      have hfront : front.map ConfigRecord.unreturned = front := by
        rw [List.map_congr_left (g := id), List.map_id]
        intro s hs
        show s.withValue (stripCarriageReturn s.value) = s
        rw [stripCarriageReturn_eq_self.mpr (hunreturned s hs)]
        rfl
      have hback : r.withValue (value ++ [last]) = r := by
        rw [hnil] at hvalue
        rw [← hvalue]
        rfl
      rw [hfront, hback]
    rw [hself] at hresult hfind
    exact ⟨_, hresult, hfind⟩

end

variable (debug) in
/-- Every submodule is seen exactly when no name has a blank in it and every value is the
rest of a line. -/
theorem seesEvery_iff (hconfigured : GitConfigured records) :
    SeesEvery records (submoduleConfigs debug (configOutput records)) ↔ RecordsPlain records := by
  cases records using List.reverseRecOn with
  | nil =>
    constructor
    · intro _
      constructor <;> simp
    · intro _
      exact ⟨_, rfl, fun name => by simp [declared]⟩
  | append_singleton front r =>
    constructor
    · intro h
      have hplain := plain_of_seesEvery hconfigured h
      cases blank_or_trimmed r.value with
      | inl hblank =>
        obtain ⟨configs, hconfigs, -⟩ := h
        exact absurd hconfigs (submoduleConfigs_blank (fun s hs => (hplain s hs).1)
          (fun s hs => lineFeed_notMem_line (hconfigured.named s hs) (hplain s hs).2) hblank)
      | inr htrimmed =>
        obtain ⟨value, last, ending, hvalue, hlast, hending⟩ := htrimmed
        obtain ⟨hunreturned, hnil⟩ :=
          (seesEvery_iff_values hconfigured hplain hvalue hlast hending).mp h
        rw [hnil] at hvalue
        have hend : r.value.getLast? = some last := by
          rw [hvalue, List.getLast?_concat]
        refine ⟨fun s hs => (hplain s hs).1, fun s hs => (hplain s hs).2, ?_, ?_⟩
        · intro s hs
          cases List.mem_append.mp hs with
          | inl hmem => exact hunreturned s hmem
          | inr hmem =>
            rw [List.mem_singleton.mp hmem, hend]
            intro heq
            rw [Option.some.inj heq] at hlast
            exact absurd hlast (by decide)
        · intro s hs
          rw [List.getLast?_concat] at hs
          rw [← Option.some.inj hs]
          exact ⟨last, hend, hlast⟩
    · intro h
      obtain ⟨last, hend, hlast⟩ := h.last r List.getLast?_concat
      obtain ⟨value, hvalue⟩ := List.getLast?_eq_some_iff.mp hend
      have hplain : ∀ s ∈ front ++ [r], ' ' ∉ s.name ∧ '\n' ∉ s.value :=
        fun s hs => ⟨h.names s hs, h.oneLine s hs⟩
      apply (seesEvery_iff_values hconfigured hplain hvalue hlast
        (fun c hc => absurd hc List.not_mem_nil)).mpr
      exact ⟨fun s hs => h.unreturned s (List.mem_append_left [r] hs), rfl⟩

end DevRelay.Snapshot
