import DevRelay.Logging.LogRedaction

/-!
# Assignments to secret keys

Each secret key is looked for with `=` and with `:`, one pass after the other.  A pass masks the
values of its own key, and the later passes keep what it has masked.
-/

namespace DevRelay.Logging

open DevRelay.Lib

/-- `str::to_ascii_lowercase` -/
def lower (text : List Char) : List Char := text.map Char.toLower

/-- The keys with their separators, in the order of the passes. -/
def assignmentKeys : List (List Char) :=
  secretKeyFragments.flatMap fun key => [key ++ ['='], key ++ [':']]

/-- The value behind a key that begins a text: what stands behind the white space, up to white
space, a comma, a semicolon or an ampersand. -/
def valueBehind (key rest : List Char) : List Char :=
  ((rest.drop key.length).dropWhile isSpace).takeWhile fun c => !endsValue c

/-- Every value of the key is masked or empty, wherever the key stands and however it is
capitalised. -/
def Masked (key text : List Char) : Prop :=
  ∀ rest, rest <:+ text → key <+: lower rest →
    valueBehind key rest = [] ∨ valueBehind key rest = redacted

section

variable {text rest behind key other word blanks value : List Char} {c : Char}

theorem Masked.of_isSuffix (h : Masked key text) (hsuffix : rest <:+ text) : Masked key rest :=
  fun later hlater => h later (hlater.trans hsuffix)

/-! ## The keys -/

theorem lower_append : lower (text ++ rest) = lower text ++ lower rest := List.map_append

theorem redactSecretAssignments_eq (text : List Char) :
    redactSecretAssignments text =
      assignmentKeys.foldl (fun text key => redactAssignmentPrefix text key) text := by
  rw [assignmentKeys, List.foldl_flatMap]
  rfl

/-- No key overlaps with another one, or with itself. -/
theorem keys_apart (hkey : key ∈ assignmentKeys) (hother : other ∈ assignmentKeys) {k : ℕ}
    (hpos : 0 < k) (hk : k < other.length) : ¬key <+: other.drop k ∧ ¬other.drop k <+: key := by
  have hall : ∀ key ∈ assignmentKeys, ∀ other ∈ assignmentKeys, ∀ k < other.length, 0 < k →
      ¬key <+: other.drop k ∧ ¬other.drop k <+: key := by decide
  exact hall key hkey other hother k hk hpos

/-- No key begins with another one. -/
theorem eq_of_isPrefix (hkey : key ∈ assignmentKeys) (hother : other ∈ assignmentKeys)
    (h : key <+: other) : key = other := by
  have hall : ∀ key ∈ assignmentKeys, ∀ other ∈ assignmentKeys, key <+: other → key = other := by
    decide
  exact hall key hkey other hother h

/-- No key begins inside the mask. -/
theorem redacted_apart (hkey : key ∈ assignmentKeys) {k : ℕ} (hk : k < redacted.length) :
    ¬key <+: lower (redacted.drop k) ∧ ¬lower (redacted.drop k) <+: key := by
  have hall : ∀ key ∈ assignmentKeys, ∀ k < redacted.length,
      ¬key <+: lower (redacted.drop k) ∧ ¬lower (redacted.drop k) <+: key := by decide
  exact hall key hkey k hk

theorem key_chars (hkey : key ∈ assignmentKeys) (hc : c ∈ key) : endsValue c = false ∧ c ≠ '<' := by
  have hall : (assignmentKeys.all fun key => key.all fun c => !endsValue c && c ≠ '<') = true := by
    decide
  simpa using List.all_eq_true.mp (List.all_eq_true.mp hall key hkey) c hc

theorem key_ne_nil (hkey : key ∈ assignmentKeys) : key ≠ [] := by
  have hall : ∀ key ∈ assignmentKeys, key ≠ [] := by decide
  exact hall key hkey

/-! ## One assignment -/

theorem endsValue_of_isSpace (h : isSpace c = true) : endsValue c = true := by
  simp [endsValue, h]

/-- White space and the other ends of a value are the same in lower case. -/
theorem toLower_of_endsValue (h : endsValue c = true) : c.toLower = c := by
  apply dif_neg
  rintro ⟨hlow, hhigh⟩
  have hlow' : 65 ≤ c.toNat := hlow
  have hhigh' : c.toNat ≤ 90 := hhigh
  simp only [endsValue, isSpace, List.contains_cons, List.contains_nil, Bool.or_eq_true,
    Bool.and_eq_true, decide_eq_true_eq, beq_iff_eq, Bool.or_false] at h
  rcases h with h | rfl | rfl | rfl
  · omega
  · exact absurd hlow' (by decide)
  · exact absurd hlow' (by decide)
  · exact absurd hlow' (by decide)

/-- The value has ended in front of what is behind it. -/
def Ended (value behind : List Char) : Prop :=
  behind = [] ∨ ∃ c more, behind = c :: more ∧ endsValue c = true ∧
    (value = [] → isSpace c = false)

/-- A text that begins with a key, its white space and its value. -/
structure Assignment (key text word blanks value behind : List Char) : Prop where
  text_eq : text = word ++ (blanks ++ (value ++ behind))
  word_lower : lower word = key
  blank : ∀ c ∈ blanks, isSpace c = true
  run : ∀ c ∈ value, endsValue c = false
  ended : Ended value behind

theorem Assignment.length_word (h : Assignment key text word blanks value behind) :
    word.length = key.length := by
  rw [← h.word_lower, lower, List.length_map]

theorem Assignment.dropWhile (h : Assignment key text word blanks value behind) :
    (text.drop key.length).dropWhile isSpace = value ++ behind := by
  rw [h.text_eq, ← h.length_word, List.drop_left, List.dropWhile_append_of_pos h.blank]
  cases value with
  | cons c value =>
    apply List.dropWhile_cons_of_neg
    intro hblank
    have hrun := h.run c (List.mem_cons_self ..)
    rw [endsValue_of_isSpace hblank] at hrun
    cases hrun
  | nil =>
    rcases h.ended with rfl | ⟨c, more, rfl, -, hsolid⟩
    · rfl
    · apply List.dropWhile_cons_of_neg
      simp [hsolid rfl]

theorem Assignment.takeWhile (h : Assignment key text word blanks value behind) :
    (text.drop key.length).takeWhile isSpace = blanks := by
  have hsplit : (text.drop key.length).takeWhile isSpace ++
      (text.drop key.length).dropWhile isSpace = text.drop key.length :=
    List.takeWhile_append_dropWhile
  rw [h.dropWhile] at hsplit
  have htext : text.drop key.length = blanks ++ (value ++ behind) := by
    rw [h.text_eq, ← h.length_word, List.drop_left]
  rw [htext] at hsplit ⊢
  exact List.append_cancel_right hsplit

theorem Assignment.valueBehind (h : Assignment key text word blanks value behind) :
    valueBehind key text = value := by
  have hpos : ∀ c ∈ value, (!endsValue c) = true := fun c hc => by simp [h.run c hc]
  have hbehind : behind.takeWhile (fun c => !endsValue c) = [] := by
    rcases h.ended with rfl | ⟨c, more, rfl, hend, -⟩
    · rfl
    · simp [hend]
  rw [Logging.valueBehind, h.dropWhile, List.takeWhile_append_of_pos hpos, hbehind, List.append_nil]

theorem false_of_dropWhile {p : Char → Bool} (h : text.dropWhile p = c :: rest) : p c = false := by
  have hhead := List.head?_dropWhile_not p text
  rwa [h] at hhead

theorem exists_assignment (h : key <+: lower text) :
    ∃ word blanks value behind, Assignment key text word blanks value behind := by
  have hword : lower (text.take key.length) = key := by
    rw [lower, List.map_take]
    exact (List.prefix_iff_eq_take.mp h).symm
  refine ⟨text.take key.length, (text.drop key.length).takeWhile isSpace,
    Logging.valueBehind key text,
    ((text.drop key.length).dropWhile isSpace).dropWhile fun c => !endsValue c,
    ⟨?_, hword, ?_, ?_, ?_⟩⟩
  · rw [Logging.valueBehind, List.takeWhile_append_dropWhile, List.takeWhile_append_dropWhile,
      List.take_append_drop]
  · exact fun c hc => List.mem_takeWhile_imp hc
  · intro c hc
    simpa using List.mem_takeWhile_imp (p := fun c => !endsValue c) hc
  · cases hbehind : ((text.drop key.length).dropWhile isSpace).dropWhile
        fun c => !endsValue c with
    | nil => exact Or.inl rfl
    | cons c more =>
      refine Or.inr ⟨c, more, rfl, by simpa using false_of_dropWhile hbehind, fun hempty => ?_⟩
      have hsolid : (text.drop key.length).dropWhile isSpace = c :: more := by
        have hsplit := List.takeWhile_append_dropWhile (p := fun c => !endsValue c)
          (l := (text.drop key.length).dropWhile isSpace)
        rw [← hsplit, hbehind]
        exact congrArg (· ++ (c :: more)) hempty
      exact false_of_dropWhile hsolid

/-! ## One pass -/

/-- What is written for a value. -/
def mask (value : List Char) : List Char := if value.isEmpty then [] else redacted

theorem secretAssignment_eq_none : secretAssignment key text = none ↔ ¬key <+: lower text := by
  unfold secretAssignment
  rw [← List.isPrefixOf_iff_prefix]
  unfold lower
  split
  · rename_i h
    simp [h]
  · rename_i h
    simp [h]

theorem Assignment.isPrefix (h : Assignment key text word blanks value behind) :
    key <+: lower text := by
  rw [h.text_eq, lower_append, h.word_lower]
  exact List.prefix_append _ _

theorem Assignment.step (h : Assignment key text word blanks value behind) :
    secretAssignment key text = some (word ++ blanks ++ mask value,
      key.length + blanks.length + value.length) := by
  have hvalue : ((text.drop key.length).dropWhile isSpace).takeWhile (fun c => !endsValue c) =
      value := h.valueBehind
  have hword : text.take key.length = word := by
    rw [h.text_eq, ← h.length_word, List.take_left]
  have hbegins : key.isPrefixOf (text.map Char.toLower) = true :=
    List.isPrefixOf_iff_prefix.mpr h.isPrefix
  unfold secretAssignment
  rw [if_pos hbegins]
  dsimp only
  rw [hvalue, h.takeWhile, hword]
  rfl

theorem takesRuns_secretAssignment (hkey : key ∈ assignmentKeys) :
    TakesRuns (secretAssignment key) := by
  intro text output length hstep
  by_cases hprefix : key <+: lower text
  · obtain ⟨word, blanks, value, behind, h⟩ := exists_assignment hprefix
    rw [h.step] at hstep
    cases hstep
    have hpos := List.length_pos_iff.mpr (key_ne_nil hkey)
    omega
  · rw [secretAssignment_eq_none.mpr hprefix] at hstep
    cases hstep

theorem marksAt_secretAssignment : MarksAt '<' (secretAssignment key) := by
  intro text output length hstep
  by_cases hprefix : key <+: lower text
  · obtain ⟨word, blanks, value, behind, h⟩ := exists_assignment hprefix
    rw [h.step] at hstep
    cases hstep
    have htake : text.take (key.length + blanks.length + value.length) =
        word ++ blanks ++ value := by
      have hlength : key.length + blanks.length + value.length =
          (word ++ blanks ++ value).length := by
        rw [List.length_append, List.length_append, h.length_word]
      rw [hlength, h.text_eq, ← List.append_assoc, ← List.append_assoc, List.take_left]
    rw [htake]
    cases value with
    | nil => exact Or.inl rfl
    | cons c value => exact Or.inr ⟨word ++ blanks, _, rfl, List.prefix_append _ _⟩
  · rw [secretAssignment_eq_none.mpr hprefix] at hstep
    cases hstep

/-- A pass writes an assignment with its value masked. -/
theorem Assignment.pass (hkey : key ∈ assignmentKeys)
    (h : Assignment key text word blanks value behind) :
    redactAssignmentPrefix text key =
      word ++ (blanks ++ (mask value ++ redactAssignmentPrefix behind key)) := by
  have hne : text ≠ [] := by
    rintro rfl
    have hlength := h.length_word
    have hpos := List.length_pos_iff.mpr (key_ne_nil hkey)
    have hempty := congrArg List.length h.text_eq
    simp at hempty
    omega
  have hdrop : text.drop (key.length + blanks.length + value.length) = behind := by
    have hlength : key.length + blanks.length + value.length =
        (word ++ blanks ++ value).length := by
      rw [List.length_append, List.length_append, h.length_word]
    rw [hlength, h.text_eq, ← List.append_assoc, ← List.append_assoc, List.drop_left]
  have hstep := h.step
  unfold redactAssignmentPrefix
  rw [rewrite_taken hne hstep (takesRuns_secretAssignment hkey _ _ _ hstep), hdrop]
  simp

/-- No key begins with the end of a value. -/
theorem not_isPrefix_of_endsValue (hkey : key ∈ assignmentKeys) (h : endsValue c = true) :
    ¬key <+: lower (c :: rest) := by
  intro hprefix
  cases key with
  | nil => exact key_ne_nil hkey rfl
  | cons a key =>
    obtain ⟨rfl, -⟩ := List.cons_prefix_cons.mp hprefix
    have hsolid := (key_chars hkey (List.mem_cons_self ..)).1
    rw [toLower_of_endsValue h, h] at hsolid
    cases hsolid

/-- What ends a value is kept. -/
theorem Ended.pass (hkey : key ∈ assignmentKeys) {masked : List Char} (h : Ended value behind)
    (hmasked : masked = [] → value = []) : Ended masked (redactAssignmentPrefix behind key) := by
  rcases h with rfl | ⟨c, more, rfl, hend, hsolid⟩
  · exact Or.inl rfl
  · have hkept : redactAssignmentPrefix (c :: more) key = c :: redactAssignmentPrefix more key :=
      rewrite_kept (secretAssignment_eq_none.mpr (not_isPrefix_of_endsValue hkey hend))
    exact Or.inr ⟨c, _, hkept, hend, fun hempty => hsolid (hmasked hempty)⟩

/-! ## Places where no key begins -/

theorem not_isPrefix_within (hkey : key ∈ assignmentKeys) (hother : other ∈ assignmentKeys)
    (hword : lower word = other) {front : List Char} (hfront : front <:+ word) (hne : front ≠ [])
    (hproper : front ≠ word) : ¬key <+: lower (front ++ rest) := by
  obtain ⟨before, rfl⟩ := hfront
  have hbefore : before ≠ [] := by
    rintro rfl
    exact hproper rfl
  have hdrop : lower front = other.drop before.length := by
    have hlength : (lower before).length = before.length := List.length_map _
    rw [← hword, lower_append, ← hlength, List.drop_left]
  have hlong : before.length < other.length := by
    have hpos := List.length_pos_iff.mpr hne
    rw [← hword, lower, List.length_map, List.length_append]
    omega
  obtain ⟨hno, hno'⟩ := keys_apart hkey hother (List.length_pos_iff.mpr hbefore) hlong
  intro hprefix
  rw [lower_append, hdrop] at hprefix
  rcases List.prefix_or_prefix_of_prefix hprefix (List.prefix_append _ _) with h | h
  · exact hno h
  · exact hno' h

theorem not_isPrefix_blank (hkey : key ∈ assignmentKeys) (hblank : ∀ c ∈ blanks, isSpace c = true)
    {front : List Char} (hfront : front <:+ blanks) (hne : front ≠ []) :
    ¬key <+: lower (front ++ rest) := by
  cases front with
  | nil => exact absurd rfl hne
  | cons c front =>
    have hspace := hblank c (hfront.subset (List.mem_cons_self ..))
    exact not_isPrefix_of_endsValue hkey (endsValue_of_isSpace hspace)

theorem not_isPrefix_redacted (hkey : key ∈ assignmentKeys) {front : List Char}
    (hfront : front <:+ redacted) (hne : front ≠ []) : ¬key <+: lower (front ++ rest) := by
  obtain ⟨before, hbefore⟩ := hfront
  have hpos := List.length_pos_iff.mpr hne
  have hlong : before.length < redacted.length := by
    rw [← hbefore, List.length_append]
    omega
  have hdrop : front = redacted.drop before.length := by
    rw [← hbefore, List.drop_left]
  obtain ⟨hno, hno'⟩ := redacted_apart hkey hlong
  intro hprefix
  rw [lower_append, hdrop] at hprefix
  rcases List.prefix_or_prefix_of_prefix hprefix (List.prefix_append _ _) with h | h
  · exact hno h
  · exact hno' h

/-- A suffix of a text in two parts begins in the first part, or is one of the second. -/
theorem suffix_append_cases {front back : List Char} (h : rest <:+ front ++ back) :
    (∃ later, later <:+ front ∧ later ≠ [] ∧ rest = later ++ back) ∨ rest <:+ back := by
  induction front with
  | nil => exact Or.inr h
  | cons c front ih =>
    rcases List.suffix_cons_iff.mp h with rfl | h
    · exact Or.inl ⟨c :: front, List.suffix_rfl, List.cons_ne_nil _ _, rfl⟩
    · rcases ih h with ⟨later, hlater, hne, heq⟩ | h
      · exact Or.inl ⟨later, hlater.trans (List.suffix_cons c front), hne, heq⟩
      · exact Or.inr h

/-! ## What a pass leaves -/

theorem mask_cases (value : List Char) : mask value = [] ∨ mask value = redacted := by
  cases value with
  | nil => exact Or.inl rfl
  | cons c value => exact Or.inr rfl

/-- The assignment that a pass masks. -/
theorem Assignment.masked (hkey : key ∈ assignmentKeys)
    (h : Assignment key text word blanks value behind) :
    Assignment key (redactAssignmentPrefix text key) word blanks (mask value)
      (redactAssignmentPrefix behind key) where
  text_eq := h.pass hkey
  word_lower := h.word_lower
  blank := h.blank
  run := by
    have hall : redacted.all (fun c => !endsValue c) = true := by decide
    intro c hc
    rcases mask_cases value with hmask | hmask
    · rw [hmask] at hc
      cases hc
    · rw [hmask] at hc
      simpa using List.all_eq_true.mp hall c hc
  ended := by
    apply h.ended.pass hkey
    intro hempty
    cases value with
    | nil => rfl
    | cons c value => cases hempty

/-- The assignment of another key, with its value masked, that a pass finds and keeps. -/
theorem Assignment.kept (hkey : key ∈ assignmentKeys) (hother : other ∈ assignmentKeys)
    (hnone : ¬key <+: lower text) (h : Assignment other text word blanks value behind)
    (hvalue : value = [] ∨ value = redacted) :
    Assignment other (redactAssignmentPrefix text key) word blanks value
      (redactAssignmentPrefix behind key) where
  text_eq := by
    have hplaces : ∀ rest, rest <:+ word ++ (blanks ++ value) → rest ≠ [] →
        secretAssignment key (rest ++ behind) = none := by
      intro rest hrest hne
      rw [secretAssignment_eq_none]
      rcases suffix_append_cases hrest with ⟨later, hlater, hlne, rfl⟩ | hrest
      · by_cases hwhole : later = word
        · subst hwhole
          rw [h.text_eq] at hnone
          simpa using hnone
        · rw [List.append_assoc]
          exact not_isPrefix_within hkey hother h.word_lower hlater hlne hwhole
      · rcases suffix_append_cases hrest with ⟨later, hlater, hlne, rfl⟩ | hrest
        · rw [List.append_assoc]
          exact not_isPrefix_blank hkey h.blank hlater hlne
        · rcases hvalue with rfl | rfl
          · exact absurd (List.suffix_nil.mp hrest) hne
          · exact not_isPrefix_redacted hkey hrest hne
    have hsplit : text = (word ++ (blanks ++ value)) ++ behind := by
      rw [h.text_eq]
      simp
    unfold redactAssignmentPrefix
    rw [hsplit, rewrite_append_kept hplaces]
    simp
  word_lower := h.word_lower
  blank := h.blank
  run := h.run
  ended := h.ended.pass hkey id

/-- A key that begins what a pass leaves begins the text. -/
theorem isPrefix_of_pass (hkey : key ∈ assignmentKeys) (hother : other ∈ assignmentKeys)
    (h : other <+: lower (redactAssignmentPrefix text key)) : other <+: lower text := by
  have hword : lower ((redactAssignmentPrefix text key).take other.length) = other := by
    rw [lower, List.map_take]
    exact (List.prefix_iff_eq_take.mp h).symm
  have hmark : '<' ∉ (redactAssignmentPrefix text key).take other.length := by
    intro hmem
    have hlower : '<' ∈ other := by
      rw [← hword]
      exact List.mem_map.mpr ⟨'<', hmem, rfl⟩
    exact (key_chars hother hlower).2 rfl
  have hbegins := isPrefix_of_rewrite (takesRuns_secretAssignment hkey) marksAt_secretAssignment
    hmark (List.take_prefix other.length (redactAssignmentPrefix text key))
  rw [← hword]
  exact hbegins.map Char.toLower

/-- After the pass of a key its values are masked, and those that were masked before still are. -/
theorem masked_pass (hkey : key ∈ assignmentKeys) (hother : other ∈ assignmentKeys)
    (h : other = key ∨ Masked other text) : Masked other (redactAssignmentPrefix text key) := by
  induction hlength : text.length using Nat.strong_induction_on generalizing text with
  | h n ih =>
    subst hlength
    have hbehind {later : List Char} (hlater : later <:+ text)
        (hshort : later.length < text.length) :
        Masked other (redactAssignmentPrefix later key) :=
      ih _ hshort (h.imp_right fun hmasked => hmasked.of_isSuffix hlater) rfl
    intro rest hrest hprefix
    by_cases hbegins : key <+: lower text
    · obtain ⟨word, blanks, value, behind, hassign⟩ := exists_assignment hbegins
      have htext := hassign.text_eq
      rw [hassign.pass hkey] at hrest
      rcases suffix_append_cases hrest with ⟨later, hlater, hne, rfl⟩ | hrest
      · by_cases hwhole : later = word
        · -- the key itself, since no key begins with another one
          subst hwhole
          have hsame : other = key := by
            rw [lower_append, hassign.word_lower] at hprefix
            rcases List.prefix_or_prefix_of_prefix hprefix (List.prefix_append _ _) with hp | hp
            · exact eq_of_isPrefix hother hkey hp
            · exact (eq_of_isPrefix hkey hother hp).symm
          subst hsame
          have hvalue := (hassign.masked hkey).valueBehind
          rw [hassign.pass hkey] at hvalue
          rw [hvalue]
          exact mask_cases value
        · exact absurd hprefix
            (not_isPrefix_within hother hkey hassign.word_lower hlater hne hwhole)
      · rcases suffix_append_cases hrest with ⟨later, hlater, hne, rfl⟩ | hrest
        · exact absurd hprefix (not_isPrefix_blank hother hassign.blank hlater hne)
        · rcases suffix_append_cases hrest with ⟨later, hlater, hne, rfl⟩ | hrest
          · rcases mask_cases value with hmask | hmask
            · rw [hmask] at hlater
              exact absurd (List.suffix_nil.mp hlater) hne
            · rw [hmask] at hlater
              exact absurd hprefix (not_isPrefix_redacted hother hlater hne)
          · refine hbehind ?_ ?_ rest hrest hprefix
            · rw [htext]
              exact ((List.suffix_append value behind).trans
                (List.suffix_append blanks _)).trans (List.suffix_append word _)
            · have hpos := List.length_pos_iff.mpr (key_ne_nil hkey)
              rw [← hassign.length_word] at hpos
              rw [htext]
              simp only [List.length_append]
              omega
    · cases text with
      | nil =>
        have hempty : rest = [] := List.suffix_nil.mp hrest
        subst hempty
        exact absurd (List.prefix_nil.mp hprefix) (key_ne_nil hother)
      | cons c text =>
        have hkept : redactAssignmentPrefix (c :: text) key =
            c :: redactAssignmentPrefix text key :=
          rewrite_kept (secretAssignment_eq_none.mpr hbegins)
        rw [hkept] at hrest
        rcases List.suffix_cons_iff.mp hrest with rfl | hrest
        · rw [← hkept] at hprefix ⊢
          have hfound := isPrefix_of_pass hkey hother hprefix
          have hmasked : Masked other (c :: text) := by
            rcases h with rfl | h
            · exact absurd hfound hbegins
            · exact h
          have hvalue := hmasked _ List.suffix_rfl hfound
          obtain ⟨word, blanks, value, behind, hassign⟩ := exists_assignment hfound
          rw [hassign.valueBehind] at hvalue
          rw [(hassign.kept hkey hother hbegins hvalue).valueBehind]
          exact hvalue
        · exact hbehind (List.suffix_cons c text) (by simp) rest hrest hprefix

/-- The passes of a list of keys, one after the other. -/
theorem masked_passes {keys : List (List Char)} (hkeys : ∀ key ∈ keys, key ∈ assignmentKeys)
    (hother : other ∈ assignmentKeys) (h : other ∈ keys ∨ Masked other text) :
    Masked other (keys.foldl (fun text key => redactAssignmentPrefix text key) text) := by
  induction keys generalizing text with
  | nil => exact h.resolve_left List.not_mem_nil
  | cons key keys ih =>
    have hkey := hkeys key (List.mem_cons_self ..)
    refine ih (fun later hlater => hkeys later (List.mem_cons_of_mem _ hlater)) ?_
    rcases h with h | h
    · rcases List.mem_cons.mp h with hsame | h
      · exact Or.inr (masked_pass hkey hother (Or.inl hsame))
      · exact Or.inl h
    · exact Or.inr (masked_pass hkey hother (Or.inr h))

end

/-- In what is logged of any text, without the redaction of local paths, every secret key with its
separator, wherever it stands and however it is capitalised, has no value or a masked one: between
the white space behind it and the next white space, comma, semicolon or ampersand stands nothing
or `<redacted>`. -/
theorem redactText_masks (highEntropy : List Char → Bool) (redactor : LogRedactor)
    (hpaths : redactor.redactLocalPaths = false) (text before rest key : List Char)
    (hkey : key ∈ secretKeyFragments) (separator : Char)
    (hseparator : separator = '=' ∨ separator = ':')
    (hsplit : redactor.redactText highEntropy text = before ++ rest)
    (hbegins : key ++ [separator] <+: lower rest) :
    valueBehind (key ++ [separator]) rest = [] ∨
      valueBehind (key ++ [separator]) rest = redacted := by
  have hmem : key ++ [separator] ∈ assignmentKeys := by
    rw [assignmentKeys, List.mem_flatMap]
    refine ⟨key, hkey, ?_⟩
    rcases hseparator with rfl | rfl
    · exact List.mem_cons_self ..
    · exact List.mem_cons_of_mem _ (List.mem_cons_self ..)
  have hmasked : Masked (key ++ [separator]) (redactor.redactText highEntropy text) := by
    unfold LogRedactor.redactText
    rw [hpaths, if_neg Bool.false_ne_true, redactSecretAssignments_eq]
    exact masked_passes (fun _ h => h) hmem (Or.inl hmem)
  exact hmasked rest ⟨before, hsplit.symm⟩ hbegins

theorem redactText_masks_demo :
    valueBehind "token:".toList "Token: <redacted>, secret=<redacted>".toList = [] ∨
      valueBehind "token:".toList "Token: <redacted>, secret=<redacted>".toList = redacted :=
  redactText_masks (fun _ => true) {} rfl "Token: abc, secret=hunter2".toList []
    "Token: <redacted>, secret=<redacted>".toList "token".toList (by decide) ':' (Or.inr rfl)
    (by decide) (by decide)

end DevRelay.Logging
