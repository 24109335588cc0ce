import DevRelay.Lib.Separators
import DevRelay.Tasks.TaskModel

/-!
# The stream of a task definition as words

The stream cut at every zero byte.  Between the tags stand the lists of the
definition; which texts can stand there is said by one predicate a list, so that the
definitions of valid manifests are the readings of the stream.
-/

namespace DevRelay.Core

open DevRelay.Lib

/-- A text without a zero character. -/
abbrev Word : Type := Piece '\x00'

/-- The words of the values, one after the other. -/
def words (values : List String) : List Word := values.flatMap fun v => pieces '\x00' v.toList

/-- The value made of the given words. -/
def unwords (ws : List Word) : String := String.ofList (joinPieces ws)

@[simp] theorem words_nil : words [] = [] := rfl

theorem words_append (xs ys : List String) : words (xs ++ ys) = words xs ++ words ys :=
  List.flatMap_append

theorem words_cons (v : String) (values : List String) :
    words (v :: values) = words [v] ++ words values :=
  words_append [v] values

theorem words_singleton (v : String) : words [v] = pieces '\x00' v.toList :=
  List.flatMap_singleton _ v

theorem words_singleton_ne_nil (v : String) : words [v] ≠ [] := by
  rw [words_singleton]
  exact pieces_ne_nil _

theorem words_singleton_injective {v v' : String} (h : words [v] = words [v']) : v = v' := by
  rw [words_singleton, words_singleton] at h
  exact String.toList_inj.mp (pieces_injective h)

theorem words_unwords {ws : List Word} (h : ws ≠ []) : words [unwords ws] = ws := by
  rw [words_singleton, unwords, String.toList_ofList, pieces_joinPieces h]

/-- A value without zero characters is one word. -/
theorem words_of_notMem {v : String} (h : '\x00' ∉ v.toList) : words [v] = [⟨v.toList, h⟩] := by
  rw [words_singleton, pieces_of_notMem h]

theorem words_eq_nil {values : List String} (h : words values = []) : values = [] := by
  cases values with
  | nil => rfl
  | cons v values =>
    rw [words_cons] at h
    exact absurd (List.append_eq_nil_iff.mp h).1 (words_singleton_ne_nil v)

/-- A value is not empty when one of its words is not. -/
theorem unwords_ne_empty {ws : List Word} {p : Word} (hp : p ∈ ws) (hne : p.word ≠ []) :
    unwords ws ≠ "" := by
  intro hempty
  have hws : ws ≠ [] := List.ne_nil_of_mem hp
  have hwords := words_unwords hws
  have hblank : words [""] = [⟨[], List.not_mem_nil⟩] := words_of_notMem _
  rw [hempty, hblank] at hwords
  rw [← hwords, List.mem_singleton] at hp
  exact hne (by rw [hp])

/-- Values with the same words as a first value and some more are that value, a zero
character and the rest. -/
theorem unwords_cons (v next : String) (values : List String) :
    unwords (words (v :: next :: values)) =
      v ++ "\x00" ++ unwords (words (next :: values)) := by
  have hrest : words (next :: values) ≠ [] := fun h => List.cons_ne_nil _ _ (words_eq_nil h)
  have hall : words (v :: next :: values) ≠ [] :=
    fun h => List.cons_ne_nil _ _ (words_eq_nil h)
  apply words_singleton_injective
  rw [words_unwords hall, words_cons, words_singleton, words_singleton]
  have htext : (v ++ "\x00" ++ unwords (words (next :: values))).toList =
      v.toList ++ '\x00' :: (unwords (words (next :: values))).toList := by
    rw [String.toList_append, String.toList_append, List.append_assoc]
    rfl
  rw [htext, pieces_append_cons, ← words_singleton (unwords _), words_unwords hrest]

/-- The text of some values starts with the first of them. -/
theorem exists_unwords_cons (v : String) (values : List String) :
    ∃ t, unwords (words (v :: values)) = v ++ t := by
  cases values with
  | nil =>
    refine ⟨"", ?_⟩
    rw [String.append_empty]
    exact words_singleton_injective (words_unwords (words_singleton_ne_nil v))
  | cons next values => exact ⟨_, (unwords_cons v next values).trans (String.append_assoc)⟩

/-- The streams agree exactly when the fields have the same words. -/
theorem framedText_eq_iff {xs ys : List String} :
    (framedText xs).toByteArray = (framedText ys).toByteArray ↔ words xs = words ys := by
  have hwords : ∀ values : List String,
      (values.map String.toList).flatMap (pieces '\x00') = words values := by
    intro values
    rw [List.flatMap_map]
    rfl
  rw [String.toByteArray_inj, ← String.toList_inj, toList_framedText, toList_framedText,
    frame_eq_iff, hwords, hwords]

/-! ## Fields that are words -/

/-- The fields that a definition renders itself: one word each. -/
def WordFields (fields : List String) : Prop := ∀ f ∈ fields, '\x00' ∉ f.toList

theorem length_words {fields : List String} (h : WordFields fields) :
    (words fields).length = fields.length := by
  induction fields with
  | nil => rfl
  | cons f fields ih =>
    rw [words_cons, words_of_notMem (h f List.mem_cons_self), List.length_append,
      ih fun g hg => h g (List.mem_cons_of_mem _ hg)]
    simp [Nat.add_comm]

theorem mem_words {fields : List String} (h : WordFields fields) {p : Word}
    (hp : p ∈ words fields) : ∃ f ∈ fields, p.word = f.toList := by
  obtain ⟨f, hf, hpf⟩ := List.mem_flatMap.mp hp
  rw [pieces_of_notMem (h f hf), List.mem_singleton] at hpf
  exact ⟨f, hf, by rw [hpf]⟩

/-- Such fields can be read back. -/
theorem eq_of_words_eq {fields fields' : List String} (h : WordFields fields)
    (h' : WordFields fields') (heq : words fields = words fields') : fields = fields' := by
  induction fields generalizing fields' with
  | nil => exact (words_eq_nil heq.symm).symm
  | cons f fields ih =>
    cases fields' with
    | nil => exact words_eq_nil heq
    | cons f' fields' =>
      rw [words_cons, words_cons f', words_of_notMem (h f List.mem_cons_self),
        words_of_notMem (h' f' List.mem_cons_self)] at heq
      obtain ⟨hword, htail⟩ := List.cons.inj heq
      rw [String.toList_inj.mp (congrArg Piece.word hword),
        ih (fun g hg => h g (List.mem_cons_of_mem _ hg))
          (fun g hg => h' g (List.mem_cons_of_mem _ hg)) htail]

/-- A rendered option: neither a zero character nor the dot that every tag has. -/
def Rendered (field : String) : Prop := '\x00' ∉ field.toList ∧ '.' ∉ field.toList

theorem rendered_u64 (value : Option UInt64) : Rendered (optionText toString value) := by
  cases value with
  | none => exact ⟨by decide, by decide⟩
  | some n =>
    have hdigits : ∀ c ∈ (toString n : String).toList, c.isDigit = true := by
      intro c hc
      change c ∈ (toString n.toNat : String).toList at hc
      rw [Nat.toString_eq_ofList_toDigits, String.toList_ofList] at hc
      exact Nat.isDigit_of_mem_toDigits (by decide) (by decide) hc
    refine ⟨fun hmem => ?_, fun hmem => ?_⟩
    · exact absurd (hdigits _ hmem) (by decide)
    · exact absurd (hdigits _ hmem) (by decide)

theorem rendered_cache (value : Option TaskCacheMode) :
    Rendered (optionText TaskCacheMode.debug value) := by
  cases value with
  | none => exact ⟨by decide, by decide⟩
  | some mode => cases mode <;> exact ⟨by decide, by decide⟩

theorem rendered_sandbox (value : Option TaskSandbox) :
    Rendered (optionText TaskSandbox.debug value) := by
  cases value with
  | none => exact ⟨by decide, by decide⟩
  | some value => cases value <;> exact ⟨by decide, by decide⟩

theorem rendered_kind (kind : EnvironmentKind) : Rendered kind.debug := by
  cases kind <;> exact ⟨by decide, by decide⟩

theorem rendered_interactive (interactive : Bool) :
    Rendered (if interactive then "true" else "false") := by
  cases interactive <;> exact ⟨by decide, by decide⟩

/-- Different values of an option are rendered differently, and none as `none`. -/
theorem optionText_injective {τ : Type} {render : τ → String} (hnone : ∀ v, render v ≠ "none")
    (hrender : ∀ v w, render v = render w → v = w) {a b : Option τ}
    (h : optionText render a = optionText render b) : a = b := by
  cases a with
  | none =>
    cases b with
    | none => rfl
    | some w => exact absurd h.symm (hnone w)
  | some v =>
    cases b with
    | none => exact absurd h (hnone v)
    | some w => rw [hrender v w h]

theorem toString_u64_ne_none (n : UInt64) : toString n ≠ "none" := by
  intro heq
  have hdigit : 'n' ∈ (toString n.toNat : String).toList := by
    change toString n.toNat = "none" at heq
    rw [heq]
    decide
  rw [Nat.toString_eq_ofList_toDigits, String.toList_ofList] at hdigit
  exact absurd (Nat.isDigit_of_mem_toDigits (by decide) (by decide) hdigit) (by decide)

theorem toString_u64_injective (m n : UInt64) (h : toString m = toString n) : m = n := by
  change (toString m.toNat : String) = toString n.toNat at h
  rw [Nat.toString_eq_ofList_toDigits, Nat.toString_eq_ofList_toDigits, String.ofList_inj] at h
  have hnat : m.toNat = n.toNat := by
    rw [← Nat.ofDigitChars_ten_toDigits (n := m.toNat), h, Nat.ofDigitChars_ten_toDigits]
  exact UInt64.toNat_inj.mp hnat

theorem debug_cache_ne_none (mode : TaskCacheMode) : mode.debug ≠ "none" := by
  cases mode <;> decide

theorem debug_cache_injective (a b : TaskCacheMode) (h : a.debug = b.debug) : a = b := by
  cases a <;> cases b <;> first | rfl | exact absurd h (by decide)

theorem debug_sandbox_ne_none (value : TaskSandbox) : value.debug ≠ "none" := by
  cases value <;> decide

theorem debug_sandbox_injective (a b : TaskSandbox) (h : a.debug = b.debug) : a = b := by
  cases a <;> cases b <;> first | rfl | exact absurd h (by decide)

theorem debug_kind_injective (a b : EnvironmentKind) (h : a.debug = b.debug) : a = b := by
  cases a <;> cases b <;> first | rfl | exact absurd h (by decide)

end DevRelay.Core

/-!
## Values of a task definition and their words

Lists are not counted, so two values and one value with a zero character between them
have the same words.  The lists that are determined by their words are those with one
value at most that cannot be cut.
-/

namespace DevRelay.Core

open DevRelay.Lib

/-- One value at most, and the value cannot be cut in two at a zero character. -/
def Undivided (cut : String → String → Prop) (values : List String) : Prop :=
  values.length ≤ 1 ∧ ∀ x y, x ++ "\x00" ++ y ∈ values → ¬cut x y

/-- Both parts can be arguments. -/
def CutsCommand (x y : String) : Prop := x ≠ "" ∧ y ≠ ""

/-- Both parts can be values of a list that is sorted. -/
def CutsValues (x y : String) : Prop := x ≠ "" ∧ x < y

/-- Both parts can be fingerprint files, which may be empty. -/
def CutsFiles (x y : String) : Prop := x < y

theorem unwords_append {ws ws' : List Word} (h : ws ≠ []) (h' : ws' ≠ []) :
    unwords (ws ++ ws') = unwords ws ++ "\x00" ++ unwords ws' := by
  apply words_singleton_injective
  have htext : (unwords ws ++ "\x00" ++ unwords ws').toList =
      (unwords ws).toList ++ '\x00' :: (unwords ws').toList := by
    rw [String.toList_append, String.toList_append, List.append_assoc]
    rfl
  rw [words_unwords (List.append_ne_nil_of_left_ne_nil h ws'), words_singleton, htext,
    pieces_append_cons, ← words_singleton, ← words_singleton, words_unwords h, words_unwords h']

theorem unwords_words (v : String) : unwords (words [v]) = v :=
  words_singleton_injective (words_unwords (words_singleton_ne_nil v))

/-- A value cut at a zero character has the words of its two parts. -/
theorem words_cut (x y : String) : words [x ++ "\x00" ++ y] = words [x, y] := by
  have hne : words [x] ++ words [y] ≠ [] :=
    List.append_ne_nil_of_left_ne_nil (words_singleton_ne_nil x) _
  rw [words_cons x [y], ← words_unwords hne,
    unwords_append (words_singleton_ne_nil x) (words_singleton_ne_nil y), unwords_words,
    unwords_words]

/-- The words of an undivided list determine it, among lists that could be cut. -/
theorem eq_of_undivided {cut : String → String → Prop} {values values' : List String}
    (h : Undivided cut values) (hcut : ∀ v next rest, values' = v :: next :: rest →
      cut v (unwords (words (next :: rest))))
    (heq : words values = words values') : values = values' := by
  obtain ⟨hlength, hundivided⟩ := h
  match values, hlength with
  | [], _ => exact (words_eq_nil heq.symm).symm
  | [v], _ =>
    match values' with
    | [] => exact words_eq_nil heq
    | [v'] => rw [words_singleton_injective heq]
    | v' :: next :: rest =>
      have htext : v = v' ++ "\x00" ++ unwords (words (next :: rest)) := by
        rw [← unwords_cons, ← heq, unwords_words]
      refine absurd (hcut v' next rest rfl) (hundivided v' _ ?_)
      rw [← htext]
      exact List.mem_singleton_self v

theorem cutsCommand_of_valid {values' : List String} (h : "" ∉ values') {v next : String}
    {rest : List String} (heq : values' = v :: next :: rest) :
    CutsCommand v (unwords (words (next :: rest))) := by
  rw [heq] at h
  obtain ⟨t, ht⟩ := exists_unwords_cons next rest
  constructor
  · rintro rfl
    exact h List.mem_cons_self
  · intro hempty
    rw [ht, String.append_eq_empty_iff] at hempty
    rw [hempty.1] at h
    exact h (List.mem_cons_of_mem _ List.mem_cons_self)

theorem lt_append {v next : String} (h : v < next) (t : String) : v < next ++ t := by
  rw [String.lt_iff_toList_lt] at h ⊢
  rw [String.toList_append]
  exact List.Lex.append_right (· < ·) t.toList h

theorem cutsFiles_of_sorted {values : List String} (hnodup : values.Nodup)
    {v next : String} {rest : List String} (heq : sorted values = v :: next :: rest) :
    CutsFiles v (unwords (words (next :: rest))) := by
  obtain ⟨t, ht⟩ := exists_unwords_cons next rest
  have hpairs := List.pairwise_insertionSort (· ≤ ·) values
  have hdistinct := (List.perm_insertionSort (· ≤ ·) values).nodup_iff.mpr hnodup
  change (sorted values).Pairwise (· ≤ ·) at hpairs
  change (sorted values).Nodup at hdistinct
  rw [heq] at hpairs hdistinct
  have hle : v ≤ next := (List.pairwise_cons.mp hpairs).1 next List.mem_cons_self
  have hne : v ≠ next := by
    rintro rfl
    exact (List.nodup_cons.mp hdistinct).1 List.mem_cons_self
  rw [CutsFiles, ht]
  exact lt_append (lt_of_le_of_ne hle hne) t

theorem mem_sorted {values : List String} {v : String} : v ∈ sorted values ↔ v ∈ values :=
  List.mem_insertionSort (· ≤ ·)

theorem cutsValues_of_sorted {values : List String} (hempty : "" ∉ values)
    (hnodup : values.Nodup) {v next : String} {rest : List String}
    (heq : sorted values = v :: next :: rest) :
    CutsValues v (unwords (words (next :: rest))) := by
  refine ⟨?_, cutsFiles_of_sorted hnodup heq⟩
  rintro rfl
  refine hempty (mem_sorted.mp ?_)
  rw [heq]
  exact List.mem_cons_self

theorem sorted_undivided {cut : String → String → Prop} {values : List String}
    (h : Undivided cut values) : Undivided cut (sorted values) := by
  refine ⟨?_, fun x y hmem => h.2 x y (mem_sorted.mp hmem)⟩
  rw [sorted, List.length_insertionSort]
  exact h.1

theorem perm_of_sorted_eq {values values' : List String}
    (h : sorted values = sorted values') : values.Perm values' := by
  have hleft : (sorted values).Perm values := List.perm_insertionSort (· ≤ ·) values
  have hright : (sorted values').Perm values' := List.perm_insertionSort (· ≤ ·) values'
  rw [← h] at hright
  exact hleft.symm.trans hright

theorem sorted_eq_of_perm {values values' : List String} (h : values.Perm values') :
    sorted values = sorted values' := by
  have hperm : (sorted values).Perm (sorted values') :=
    (List.perm_insertionSort (· ≤ ·) values).trans
      (h.trans (List.perm_insertionSort (· ≤ ·) values').symm)
  exact hperm.eq_of_pairwise' (List.pairwise_insertionSort (· ≤ ·) values)
    (List.pairwise_insertionSort (· ≤ ·) values')

/-- The values of a sorted list, when they are undivided. -/
theorem values_perm {values values' : List String} (h : Undivided CutsValues values)
    (hempty' : "" ∉ values') (hnodup' : values'.Nodup)
    (heq : words (sorted values) = words (sorted values')) : values.Perm values' :=
  perm_of_sorted_eq (eq_of_undivided (sorted_undivided h)
    (fun _ _ _ hcons => cutsValues_of_sorted hempty' hnodup' hcons) heq)

theorem command_eq {values values' : List String} (h : Undivided CutsCommand values)
    (hempty' : "" ∉ values') (heq : words values = words values') : values = values' :=
  eq_of_undivided h (fun _ _ _ hcons => cutsCommand_of_valid hempty' hcons) heq

/-! ## Regrouping -/

/-- A command that is not undivided has another one with its words. -/
theorem exists_other_command {values : List String} (hvalid : values ≠ [] ∧ "" ∉ values)
    (h : ¬Undivided CutsCommand values) :
    ∃ values', (values' ≠ [] ∧ "" ∉ values') ∧ words values' = words values ∧ values' ≠ values := by
  by_cases hlength : values.length ≤ 1
  · have hcut : ∃ x y, x ++ "\x00" ++ y ∈ values ∧ CutsCommand x y := by
      by_contra hnone
      refine h ⟨hlength, fun x y hmem hxy => hnone ⟨x, y, hmem, hxy⟩⟩
    obtain ⟨x, y, hmem, hx, hy⟩ := hcut
    have hsingle : values = [x ++ "\x00" ++ y] := by
      match values, hlength with
      | [v], _ => rw [List.mem_singleton.mp hmem]
    refine ⟨[x, y], ⟨List.cons_ne_nil _ _, by simp [hx.symm, hy.symm]⟩, ?_, ?_⟩
    · rw [hsingle, words_cut]
    · rw [hsingle]
      simp
  · have hne : words values ≠ [] := fun hnil => hvalid.1 (words_eq_nil hnil)
    refine ⟨[unwords (words values)], ⟨List.cons_ne_nil _ _, ?_⟩, words_unwords hne, ?_⟩
    · intro hmem
      match values, hvalid with
      | v :: rest, ⟨_, hempty⟩ =>
        obtain ⟨t, ht⟩ := exists_unwords_cons v rest
        rw [ht, List.mem_singleton] at hmem
        have hv := (String.append_eq_empty_iff.mp hmem.symm).1
        rw [hv] at hempty
        exact hempty List.mem_cons_self
    · intro heq
      rw [← heq] at hlength
      exact hlength le_rfl

/-- A sorted list that is not undivided has another one with its words. -/
theorem exists_other_values {cut : String → String → Prop} (hlt : ∀ x y, cut x y → x < y)
    {values : List String} (h : ¬Undivided cut values) :
    ∃ values', values' ≠ [] ∧ values'.Nodup ∧
      words (sorted values') = words (sorted values) ∧ ¬values'.Perm values ∧
      ((∀ x y, cut x y → x ≠ "") → "" ∉ values → "" ∉ values') := by
  by_cases hlength : values.length ≤ 1
  · have hcut : ∃ x y, x ++ "\x00" ++ y ∈ values ∧ cut x y := by
      by_contra hnone
      refine h ⟨hlength, fun x y hmem hxy => hnone ⟨x, y, hmem, hxy⟩⟩
    obtain ⟨x, y, hmem, hxy⟩ := hcut
    have hsingle : values = [x ++ "\x00" ++ y] := by
      match values, hlength with
      | [v], _ => rw [List.mem_singleton.mp hmem]
    have hless := hlt x y hxy
    have hsorted : sorted [x, y] = [x, y] :=
      List.Pairwise.insertionSort_eq (by simpa using le_of_lt hless)
    refine ⟨[x, y], List.cons_ne_nil _ _, by simpa using ne_of_lt hless, ?_, ?_, ?_⟩
    · rw [hsorted, hsingle, sorted_singleton, words_cut]
    · intro hperm
      have hcount := hperm.length_eq
      rw [hsingle] at hcount
      simp at hcount
    · intro hfirst _
      have hy : y ≠ "" := by
        rintro rfl
        exact List.not_lt_nil _ (String.lt_iff_toList_lt.mp hless)
      simp [(hfirst x y hxy).symm, hy.symm]
  · have hsortedLength : (sorted values).length = values.length :=
      List.length_insertionSort (· ≤ ·) values
    have hsortedNe : sorted values ≠ [] := by
      intro hnil
      rw [hnil] at hsortedLength
      exact hlength (hsortedLength ▸ Nat.zero_le 1)
    have hne : words (sorted values) ≠ [] := fun hnil => hsortedNe (words_eq_nil hnil)
    refine ⟨[unwords (words (sorted values))], List.cons_ne_nil _ _, List.nodup_singleton _,
      ?_, ?_, ?_⟩
    · rw [sorted_singleton, words_unwords hne]
    · intro hperm
      have hcount := hperm.length_eq
      rw [← hcount] at hlength
      exact hlength le_rfl
    · intro _ hempty hmem
      obtain ⟨v, rest, hcons⟩ := List.exists_cons_of_ne_nil hsortedNe
      obtain ⟨t, ht⟩ := exists_unwords_cons v rest
      rw [hcons, ht, List.mem_singleton] at hmem
      have hv := (String.append_eq_empty_iff.mp hmem.symm).1
      refine hempty (mem_sorted.mp ?_)
      rw [hcons, hv]
      exact List.mem_cons_self

end DevRelay.Core
