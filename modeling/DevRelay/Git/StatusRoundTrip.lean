import DevRelay.Git.StatusPorcelain

/-!
# Reading back what Git prints

A record is told by its first two characters, its fields are read in front of its path,
and the path is all that is left of the line.  So no path is taken for another record, and
after each record the parser stands at the next one.
-/

namespace DevRelay.Git

open DevRelay.Core DevRelay.Lib

/-! ## The fields of a line -/

/-- A field is not empty and has neither white space nor a zero in it. -/
def IsField (word : List Char) : Prop :=
  word ≠ [] ∧ ∀ c ∈ word, isSpace c = false ∧ c ≠ '\x00'

theorem FieldText.isField (self : FieldText) : IsField self.chars := by
  constructor
  · intro hnil
    apply self.nonempty
    rw [← String.toList_inj]
    exact hnil
  · intro c hc
    exact ⟨self.unspaced c hc, fun heq => self.nulFree (heq ▸ hc)⟩

theorem XY.isField (self : XY) : IsField self.chars := by
  have hletter : ∀ change : Change,
      isSpace change.letter = false ∧ change.letter ≠ '\x00' := by
    intro change
    cases change <;> decide
  constructor
  · exact List.cons_ne_nil _ _
  · intro c hc
    simp only [XY.chars, List.mem_cons, List.not_mem_nil, or_false] at hc
    rcases hc with rfl | rfl
    · exact hletter self.x
    · exact hletter self.y

theorem isSpace_of_isDigit {c : Char} (h : c.isDigit = true) : isSpace c = false ∧ c ≠ '\x00' := by
  have hbounds : 48 ≤ c.toNat ∧ c.toNat ≤ 57 := by
    simp only [Char.isDigit, Bool.and_eq_true, decide_eq_true_eq] at h
    exact h
  constructor
  · simp only [isSpace, Bool.or_eq_false_iff, Bool.and_eq_false_iff, decide_eq_false_iff_not]
    omega
  · rintro rfl
    exact absurd hbounds.1 (by decide)

theorem RenameScore.isField (self : RenameScore) : IsField self.chars := by
  constructor
  · exact List.cons_ne_nil _ _
  · intro c hc
    rcases List.mem_cons.mp hc with hkind | hdigit
    · rw [hkind]
      cases self.copied <;> decide
    · exact isSpace_of_isDigit (Nat.isDigit_of_mem_toDigits (by decide) (by decide) hdigit)

theorem ChangedFields.isField (self : ChangedFields) : ∀ word ∈ self.words, IsField word := by
  simp only [ChangedFields.words, List.forall_mem_cons]
  exact ⟨self.xy.isField, self.sub.isField, self.headMode.isField, self.indexMode.isField,
    self.worktreeMode.isField, self.headOid.isField, self.indexOid.isField,
    fun word hword => absurd hword List.not_mem_nil⟩

theorem UnmergedFields.isField (self : UnmergedFields) : ∀ word ∈ self.words, IsField word := by
  simp only [UnmergedFields.words, List.forall_mem_cons]
  exact ⟨self.xy.isField, self.sub.isField, self.modes.1.isField, self.modes.2.1.isField,
    self.modes.2.2.1.isField, self.modes.2.2.2.isField, self.oids.1.isField,
    self.oids.2.1.isField, self.oids.2.2.isField,
    fun word hword => absurd hword List.not_mem_nil⟩

/-- The word at a place among the fields, whatever path stands behind them. -/
theorem splitWhitespace_fields {words : List (List Char)} (h : ∀ word ∈ words, IsField word)
    (path : List Char) {i : Nat} (hi : i < words.length) :
    (splitWhitespace (frame ' ' words ++ path))[i]? = words[i]? := by
  rw [splitWhitespace_frame (by decide) fun word hword =>
    ⟨(h word hword).1, fun c hc => ((h word hword).2 c hc).1⟩]
  exact List.getElem?_append_left hi

theorem parsePathAfterFields_frame {words : List (List Char)} (h : ∀ word ∈ words, IsField word)
    (path : List Char) :
    parsePathAfterFields (frame ' ' words ++ path) words.length = some (String.ofList path) := by
  have hspace : ∀ word ∈ words, ' ' ∉ word := by
    intro word hword hmem
    exact absurd ((h word hword).2 ' ' hmem).1 (by decide)
  rw [parsePathAfterFields, splitn_frame hspace, List.getElem?_append_right (Nat.le_refl _),
    Nat.sub_self]
  rfl

/-! ## One record -/

def StatusCounts.add (a b : StatusCounts) : StatusCounts where
  staged := a.staged + b.staged
  unstaged := a.unstaged + b.unstaged
  untracked := a.untracked + b.untracked
  ignored := a.ignored + b.ignored
  unmerged := a.unmerged + b.unmerged

theorem countsOf_cons (record : StatusRecord) (records : List StatusRecord) :
    countsOf (record :: records) = (countsOf [record]).add (countsOf records) := by
  simp only [countsOf, StatusCounts.add, List.countP_cons, List.countP_nil, Nat.zero_add,
    Nat.add_comm]

/-- The status with these records read. -/
def GitStatus.after (self : GitStatus) (records : List StatusRecord) : GitStatus :=
  { self with
    entries := self.entries ++ records.map StatusRecord.entry
    counts := self.counts.add (countsOf records) }

theorem GitStatus.after_cons (self : GitStatus) (record : StatusRecord)
    (records : List StatusRecord) :
    (self.after [record]).after records = self.after (record :: records) := by
  have hcounts : (self.counts.add (countsOf [record])).add (countsOf records) =
      self.counts.add (countsOf (record :: records)) := by
    rw [countsOf_cons record records]
    simp only [StatusCounts.add, Nat.add_assoc]
  simp only [GitStatus.after, List.map_cons, List.map_nil, List.append_assoc,
    List.cons_append, List.nil_append, hcounts]

theorem addXyCounts_chars (xy : XY) (counts : StatusCounts) :
    addXyCounts xy.chars counts = { counts with
      staged := counts.staged + if xy.x ≠ .unmodified then 1 else 0
      unstaged := counts.unstaged + if xy.y ≠ .unmodified then 1 else 0 } := by
  obtain ⟨x, y⟩ := xy
  cases x <;> cases y <;> rfl

/-- A line that does not begin with a header's sharp sign, nor with the marks of the two
lists of paths. -/
theorem parseRecord_of_letter {c : Char} {line : List Char} (next : Option (List Char))
    (status : GitStatus) (hc : c = '1' ∨ c = '2' ∨ c = 'u') :
    parseRecord (c :: ' ' :: line) next status =
      if c = 'u' then
        .ok (status.push
          ⟨.unmerged, none, (parsePathAfterFields (c :: ' ' :: line) 10).getD "", none⟩
          { status.counts with unmerged := status.counts.unmerged + 1 }, false)
      else parseChangedRecord (c :: ' ' :: line) next status := by
  rcases hc with rfl | rfl | rfl <;> rfl

theorem isField_letter {c : Char} (hc : c = '1' ∨ c = '2' ∨ c = 'u') : IsField [c] := by
  refine ⟨List.cons_ne_nil _ _, List.forall_mem_singleton.mpr ?_⟩
  rcases hc with rfl | rfl | rfl
  · exact ⟨rfl, by decide⟩
  · exact ⟨rfl, by decide⟩
  · exact ⟨rfl, by decide⟩

/-- The entry and the counts of a changed file. -/
theorem push_eq_after (record : StatusRecord) (status : GitStatus) {xy : XY}
    (hxy : record.xy? = some xy)
    (hkind : record.entry.kind = .ordinary ∨ record.entry.kind = .renamed ∨
      record.entry.kind = .copied) :
    status.push record.entry (addXyCounts xy.chars status.counts) = status.after [record] := by
  have hcounts : addXyCounts xy.chars status.counts = status.counts.add (countsOf [record]) := by
    rw [addXyCounts_chars]
    rcases hkind with hkind | hkind | hkind <;>
      simp [StatusCounts.add, countsOf, List.countP_cons, StatusRecord.IsStaged,
        StatusRecord.IsUnstaged, StatusRecord.HasKind, hxy, hkind]
  rw [hcounts]
  rfl

theorem parseRecord_ordinary (fields : ChangedFields) (path : LineText)
    (next : Option (List Char)) (status : GitStatus) :
    parseRecord (frame ' ' (['1'] :: fields.words) ++ path.text.toList) next status =
      .ok (status.after [.ordinary fields path], false) := by
  have hfields : ∀ word ∈ ['1'] :: fields.words, IsField word :=
    List.forall_mem_cons.mpr ⟨isField_letter (Or.inl rfl), fields.isField⟩
  have hxy := splitWhitespace_fields hfields path.text.toList (i := 1) (by change 1 < 8; decide)
  have hpath : parsePathAfterFields (frame ' ' (['1'] :: fields.words) ++ path.text.toList) 8 =
      some (String.ofList path.text.toList) := parsePathAfterFields_frame hfields path.text.toList
  have hkind : changedEntryKind (frame ' ' (['1'] :: fields.words) ++ path.text.toList) =
      .ordinary := rfl
  have hpush := push_eq_after (.ordinary fields path) status rfl (Or.inl rfl)
  refine (parseRecord_of_letter next status (Or.inl rfl)).trans ?_
  rw [if_neg (by decide)]
  change parseChangedRecord (frame ' ' (['1'] :: fields.words) ++ path.text.toList) next status = _
  rw [parseChangedRecord, hkind, hxy]
  simp only [parsePathFromChangedRecord, hpath, String.ofList_toList]
  rw [← hpush]
  rfl

theorem changedEntryKind_renamed (fields : ChangedFields) (score : RenameScore) (path : List Char) :
    changedEntryKind (frame ' ' (['2'] :: (fields.words ++ [score.chars])) ++ path) =
      if score.copied then .copied else .renamed := by
  have hfields : ∀ word ∈ ['2'] :: (fields.words ++ [score.chars]), IsField word := by
    rw [List.forall_mem_cons, List.forall_mem_append]
    exact ⟨isField_letter (Or.inr (Or.inl rfl)), fields.isField,
      fun word hword => List.mem_singleton.mp hword ▸ score.isField⟩
  have hscore := splitWhitespace_fields hfields path (i := 8) (by change 8 < 9; decide)
  have hstart : (stripStart "2 "
      (frame ' ' (['2'] :: (fields.words ++ [score.chars])) ++ path)).isNone = false := rfl
  rw [changedEntryKind, hstart, hscore]
  obtain ⟨copied, value⟩ := score
  cases copied <;> rfl

theorem parseRecord_renamed (fields : ChangedFields) (score : RenameScore)
    (path original : LineText) (status : GitStatus) :
    parseRecord (frame ' ' (['2'] :: (fields.words ++ [score.chars])) ++ path.text.toList)
        (some original.text.toList) status =
      .ok (status.after [.renamed fields score path original], true) := by
  have hfields : ∀ word ∈ ['2'] :: (fields.words ++ [score.chars]), IsField word := by
    rw [List.forall_mem_cons, List.forall_mem_append]
    exact ⟨isField_letter (Or.inr (Or.inl rfl)), fields.isField,
      fun word hword => List.mem_singleton.mp hword ▸ score.isField⟩
  have hxy := splitWhitespace_fields hfields path.text.toList (i := 1) (by change 1 < 9; decide)
  have hpath : parsePathAfterFields
      (frame ' ' (['2'] :: (fields.words ++ [score.chars])) ++ path.text.toList) 9 =
      some (String.ofList path.text.toList) := parsePathAfterFields_frame hfields path.text.toList
  have hkind := changedEntryKind_renamed fields score path.text.toList
  refine (parseRecord_of_letter _ status (Or.inr (Or.inl rfl))).trans ?_
  rw [if_neg (by decide)]
  change parseChangedRecord
    (frame ' ' (['2'] :: (fields.words ++ [score.chars])) ++ path.text.toList)
    (some original.text.toList) status = _
  rw [parseChangedRecord, hkind, hxy]
  obtain ⟨copied, value⟩ := score
  cases copied with
  | false =>
    have hpush := push_eq_after (.renamed fields ⟨false, value⟩ path original)
      status rfl (Or.inr (Or.inl rfl))
    simp only [if_neg Bool.false_ne_true, parsePathFromChangedRecord, hpath, String.ofList_toList]
    rw [← hpush]
    simp [StatusRecord.entry, ChangedFields.words]
  | true =>
    have hpush := push_eq_after (.renamed fields ⟨true, value⟩ path original)
      status rfl (Or.inr (Or.inr rfl))
    simp only [if_true, parsePathFromChangedRecord, hpath, String.ofList_toList]
    rw [← hpush]
    simp [StatusRecord.entry, ChangedFields.words]

theorem parseRecord_unmerged (fields : UnmergedFields) (path : LineText)
    (next : Option (List Char)) (status : GitStatus) :
    parseRecord (frame ' ' (['u'] :: fields.words) ++ path.text.toList) next status =
      .ok (status.after [.unmerged fields path], false) := by
  have hfields : ∀ word ∈ ['u'] :: fields.words, IsField word :=
    List.forall_mem_cons.mpr ⟨isField_letter (Or.inr (Or.inr rfl)), fields.isField⟩
  have hpath : parsePathAfterFields (frame ' ' (['u'] :: fields.words) ++ path.text.toList) 10 =
      some (String.ofList path.text.toList) := parsePathAfterFields_frame hfields path.text.toList
  refine (parseRecord_of_letter next status (Or.inr (Or.inr rfl))).trans ?_
  rw [if_pos rfl]
  change Except.ok (status.push ⟨.unmerged, none, (parsePathAfterFields
    (frame ' ' (['u'] :: fields.words) ++ path.text.toList) 10).getD "", none⟩
    { status.counts with unmerged := status.counts.unmerged + 1 }, false) = _
  rw [hpath, String.ofList_toList]
  rfl

theorem parseRecord_untracked (path : LineText) (next : Option (List Char)) (status : GitStatus) :
    parseRecord ("? ".toList ++ path.text.toList) next status =
      .ok (status.after [.untracked path], false) := by
  have hpath : String.ofList path.text.toList = path.text := String.ofList_toList
  change Except.ok (status.push ⟨.untracked, none, String.ofList path.text.toList, none⟩
    { status.counts with untracked := status.counts.untracked + 1 }, false) = _
  rw [hpath]
  rfl

theorem parseRecord_ignored (path : LineText) (next : Option (List Char)) (status : GitStatus) :
    parseRecord ("! ".toList ++ path.text.toList) next status =
      .ok (status.after [.ignored path], false) := by
  have hpath : String.ofList path.text.toList = path.text := String.ofList_toList
  change Except.ok (status.push ⟨.ignored, none, String.ofList path.text.toList, none⟩
    { status.counts with ignored := status.counts.ignored + 1 }, false) = _
  rw [hpath]
  rfl

/-! ## A run over the records -/

/-- After the lines of a record the parser stands at the next one. -/
theorem parseRecords_lines (record : StatusRecord) (rest : List (List Char)) (status : GitStatus) :
    parseRecords false (record.lines ++ rest) status =
      parseRecords false rest (status.after [record]) := by
  cases record with
  | ordinary fields path =>
    rw [StatusRecord.lines, List.cons_append, List.nil_append, parseRecords, parseRecord_ordinary]
    rfl
  | renamed fields score path original =>
    rw [StatusRecord.lines, List.cons_append, List.cons_append, List.nil_append, parseRecords,
      List.head?_cons, parseRecord_renamed]
    rfl
  | unmerged fields path =>
    rw [StatusRecord.lines, List.cons_append, List.nil_append, parseRecords, parseRecord_unmerged]
    rfl
  | untracked path =>
    rw [StatusRecord.lines, List.cons_append, List.nil_append, parseRecords, parseRecord_untracked]
    rfl
  | ignored path =>
    rw [StatusRecord.lines, List.cons_append, List.nil_append, parseRecords, parseRecord_ignored]
    rfl

theorem parseRecords_records (records : List StatusRecord) (status : GitStatus) :
    parseRecords false (records.flatMap StatusRecord.lines) status =
      .ok (status.after records) := by
  induction records generalizing status with
  | nil =>
    have hnone : status.after [] = status := by
      simp [GitStatus.after, StatusCounts.add, countsOf]
    rw [hnone]
    rfl
  | cons record records ih =>
    rw [List.flatMap_cons, parseRecords_lines, ih, GitStatus.after_cons]

/-! ## The headers -/

theorem splitWhitespace_word {word : List Char} (hne : word ≠ [])
    (h : ∀ c ∈ word, isSpace c = false) : splitWhitespace word = [word] := by
  have hkeep : (!word.isEmpty) = true := by
    cases word with
    | nil => exact absurd rfl hne
    | cons c word => rfl
  rw [splitWhitespace, List.splitOnP_eq_singleton h, List.filter_cons, if_pos hkeep,
    List.filter_nil]

theorem parseUsize_toDigits (value : UInt64) :
    parseUsize (Nat.toDigits 10 value.toNat) = some value.toNat := by
  have hdigits : (Nat.toDigits 10 value.toNat).all Char.isDigit = true :=
    List.all_eq_true.mpr fun c hc => Nat.isDigit_of_mem_toDigits (by decide) (by decide) hc
  have hvalue : Nat.ofDigitChars 10 (Nat.toDigits 10 value.toNat) 0 = value.toNat :=
    Nat.ofDigitChars_ten_toDigits
  have hread : parseUnsigned 64 (Nat.toDigits 10 value.toNat) = _ :=
    parseUnsigned_digits Nat.toDigits_ne_nil hdigits (by rw [hvalue]; exact value.toNat_lt)
  rwa [hvalue] at hread

theorem parseBranchAheadBehind_print (ahead behind : UInt64) :
    parseBranchAheadBehind ('+' :: Nat.toDigits 10 ahead.toNat ++ " -".toList ++
      Nat.toDigits 10 behind.toNat) = (some ahead.toNat, some behind.toNat) := by
  have hspace : ∀ (sign : Char) (n : Nat), isSpace sign = false →
      ∀ c ∈ sign :: Nat.toDigits 10 n, isSpace c = false := by
    intro sign n hsign c hc
    rcases List.mem_cons.mp hc with rfl | hdigit
    · exact hsign
    · exact (isSpace_of_isDigit
        (Nat.isDigit_of_mem_toDigits (by decide) (by decide) hdigit)).1
  have htext : '+' :: Nat.toDigits 10 ahead.toNat ++ " -".toList ++ Nat.toDigits 10 behind.toNat =
      ('+' :: Nat.toDigits 10 ahead.toNat) ++ ' ' :: ('-' :: Nat.toDigits 10 behind.toNat) := by
    rw [List.append_assoc]
    rfl
  rw [htext, parseBranchAheadBehind,
    splitWhitespace_append (hspace '+' _ (by decide)) (List.cons_ne_nil _ _) (by decide),
    splitWhitespace_word (List.cons_ne_nil _ _) (hspace '-' _ (by decide))]
  simp only [List.foldl_cons, List.foldl_nil, parseUsize_toDigits]

/-- What the headers leave in a status. -/
def GitStatus.withHeaders (self : GitStatus) (headers : BranchHeaders) : GitStatus where
  headOid := headers.oid.text
  branch := if headers.head.text ≠ "(detached)" then some headers.head.text else self.branch
  upstream := (headers.upstream.map LineText.text).or self.upstream
  ahead := (headers.aheadBehind.map fun ab => ab.1.toNat).or self.ahead
  behind := (headers.aheadBehind.map fun ab => ab.2.toNat).or self.behind
  entries := self.entries
  counts := self.counts

theorem parseRecords_cons {record : List Char} {rest : List (List Char)}
    {status status' : GitStatus} (h : parseRecord record rest.head? status = .ok (status', false)) :
    parseRecords false (record :: rest) status = parseRecords false rest status' := by
  rw [parseRecords, h]
  rfl

theorem parseRecords_upstream (upstream : Option LineText) (rest : List (List Char))
    (status : GitStatus) :
    parseRecords false ((upstream.toList.map fun upstream =>
        "# branch.upstream ".toList ++ upstream.text.toList) ++ rest) status =
      parseRecords false rest
        { status with upstream := (upstream.map LineText.text).or status.upstream } := by
  cases upstream with
  | none => rfl
  | some upstream =>
    have htext : String.ofList upstream.text.toList = upstream.text := String.ofList_toList
    have hread : ∀ next, parseRecord ("# branch.upstream ".toList ++ upstream.text.toList) next
        status = .ok ({ status with upstream := some upstream.text }, false) := by
      intro next
      rw [← htext]
      simp only [String.toList_ofList]
      rfl
    exact parseRecords_cons (hread _)

theorem parseRecords_aheadBehind (aheadBehind : Option (UInt64 × UInt64))
    (rest : List (List Char)) (status : GitStatus) :
    parseRecords false ((aheadBehind.toList.map fun (ahead, behind) =>
        "# branch.ab ".toList ++ '+' :: Nat.toDigits 10 ahead.toNat ++
          " -".toList ++ Nat.toDigits 10 behind.toNat) ++ rest) status =
      parseRecords false rest { status with
        ahead := (aheadBehind.map fun ab => ab.1.toNat).or status.ahead
        behind := (aheadBehind.map fun ab => ab.2.toNat).or status.behind } := by
  cases aheadBehind with
  | none => rfl
  | some ab =>
    obtain ⟨ahead, behind⟩ := ab
    have hline : ∀ (value : List Char) next, parseRecord ("# branch.ab ".toList ++ value) next
        status = .ok ({ status with
          ahead := (parseBranchAheadBehind value).1
          behind := (parseBranchAheadBehind value).2 }, false) := fun _ _ => rfl
    have hread : ∀ next, parseRecord ("# branch.ab ".toList ++ '+' :: Nat.toDigits 10 ahead.toNat
        ++ " -".toList ++ Nat.toDigits 10 behind.toNat) next status =
        .ok ({ status with ahead := some ahead.toNat, behind := some behind.toNat }, false) := by
      intro next
      rw [List.append_assoc, List.append_assoc, ← List.append_assoc ('+' :: _), hline,
        parseBranchAheadBehind_print]
    exact parseRecords_cons (hread _)

theorem parseRecords_headers (headers : BranchHeaders) (rest : List (List Char))
    (status : GitStatus) :
    parseRecords false (headers.lines ++ rest) status =
      parseRecords false rest (status.withHeaders headers) := by
  have hoid : ∀ next, parseRecord ("# branch.oid ".toList ++ headers.oid.text.toList) next
      status = .ok ({ status with headOid := headers.oid.text }, false) := by
    intro next
    change Except.ok ({ status with headOid := String.ofList headers.oid.text.toList }, false) = _
    rw [String.ofList_toList]
  have hhead : ∀ next (status : GitStatus),
      parseRecord ("# branch.head ".toList ++ headers.head.text.toList) next status =
        .ok ({ status with branch :=
          if headers.head.text ≠ "(detached)" then some headers.head.text
          else status.branch }, false) := by
    intro next status
    change Except.ok (if String.ofList headers.head.text.toList ≠ "(detached)" then
      { status with branch := some (String.ofList headers.head.text.toList) } else status,
        false) = _
    rw [String.ofList_toList]
    split <;> rfl
  rw [BranchHeaders.lines, List.append_assoc, List.append_assoc, List.cons_append,
    parseRecords_cons (hoid _), List.cons_append, parseRecords_cons (hhead _ _),
    List.nil_append, parseRecords_upstream, parseRecords_aheadBehind]
  rfl

/-! ## The lines -/

/-- A line is not empty and has no zero in it. -/
def IsLine (line : List Char) : Prop := line ≠ [] ∧ '\x00' ∉ line

theorem isLine_append {start : String} (hne : start.toList ≠ []) (hfree : NulFree start)
    (text : LineText) : IsLine (start.toList ++ text.text.toList) := by
  constructor
  · exact List.append_ne_nil_of_left_ne_nil hne _
  · rw [List.mem_append, not_or]
    exact ⟨hfree, text.nulFree⟩

theorem isLine_fields {words : List (List Char)} (hne : words ≠ [])
    (h : ∀ word ∈ words, IsField word) (path : LineText) :
    IsLine (frame ' ' words ++ path.text.toList) := by
  constructor
  · cases words with
    | nil => exact absurd rfl hne
    | cons word words =>
      rw [frame_cons, List.append_assoc]
      exact List.append_ne_nil_of_left_ne_nil (h word List.mem_cons_self).1 _
  · rw [List.mem_append, not_or]
    refine ⟨?_, path.nulFree⟩
    rw [frame, List.mem_flatMap]
    rintro ⟨word, hword, hmem⟩
    rcases List.mem_append.mp hmem with hzero | hzero
    · exact ((h word hword).2 _ hzero).2 rfl
    · exact absurd (List.mem_singleton.mp hzero) (by decide)

theorem StatusRecord.isLine (record : StatusRecord) : ∀ line ∈ record.lines, IsLine line := by
  cases record with
  | ordinary fields path =>
    simp only [StatusRecord.lines, List.forall_mem_singleton]
    exact isLine_fields (List.cons_ne_nil _ _)
      (List.forall_mem_cons.mpr ⟨isField_letter (Or.inl rfl), fields.isField⟩) path
  | renamed fields score path original =>
    have hwords : ∀ word ∈ ['2'] :: (fields.words ++ [score.chars]), IsField word := by
      rw [List.forall_mem_cons, List.forall_mem_append]
      exact ⟨isField_letter (Or.inr (Or.inl rfl)), fields.isField,
        fun word hword => List.mem_singleton.mp hword ▸ score.isField⟩
    have horiginal : IsLine original.text.toList :=
      ⟨fun hnil => original.nonempty (String.toList_inj.mp hnil), original.nulFree⟩
    simp only [StatusRecord.lines, List.forall_mem_cons, List.not_mem_nil, false_imp_iff,
      implies_true, and_true]
    exact ⟨isLine_fields (List.cons_ne_nil _ _) hwords path, horiginal⟩
  | unmerged fields path =>
    simp only [StatusRecord.lines, List.forall_mem_singleton]
    exact isLine_fields (List.cons_ne_nil _ _)
      (List.forall_mem_cons.mpr ⟨isField_letter (Or.inr (Or.inr rfl)), fields.isField⟩) path
  | untracked path =>
    simp only [StatusRecord.lines, List.forall_mem_singleton]
    exact isLine_append (by decide) (by decide) path
  | ignored path =>
    simp only [StatusRecord.lines, List.forall_mem_singleton]
    exact isLine_append (by decide) (by decide) path

theorem BranchHeaders.isLine (headers : BranchHeaders) : ∀ line ∈ headers.lines, IsLine line := by
  have hdigits : ∀ n : Nat, '\x00' ∉ Nat.toDigits 10 n := by
    intro n hmem
    exact absurd (Nat.isDigit_of_mem_toDigits (by decide) (by decide) hmem) (by decide)
  simp only [BranchHeaders.lines, List.forall_mem_append, List.forall_mem_cons, List.forall_mem_map]
  refine ⟨⟨⟨isLine_append (by decide) (by decide) _, isLine_append (by decide) (by decide) _,
    fun line hline => absurd hline List.not_mem_nil⟩,
    fun upstream _ => isLine_append (by decide) (by decide) upstream⟩, ?_⟩
  intro ab _
  constructor
  · exact List.append_ne_nil_of_left_ne_nil (List.append_ne_nil_of_left_ne_nil
      (List.append_ne_nil_of_left_ne_nil (by decide) _) _) _
  · simp only [List.mem_append, List.mem_cons, not_or]
    exact ⟨⟨⟨by decide, by decide, hdigits _⟩, by decide⟩, hdigits _⟩

/-! ## The whole output -/

/-- Parsing what Git prints gives back the entries in their order, with the original paths,
the counts and the headers. -/
theorem parseStatusPorcelainV2_print (headers : BranchHeaders) (records : List StatusRecord) :
    parseStatusPorcelainV2 (printStatus headers records) =
      .ok (reportedStatus headers records) := by
  have hlines : ∀ line ∈ headers.lines ++ records.flatMap StatusRecord.lines, IsLine line := by
    rw [List.forall_mem_append]
    refine ⟨headers.isLine, fun line hline => ?_⟩
    obtain ⟨record, -, hmem⟩ := List.mem_flatMap.mp hline
    exact record.isLine line hmem
  have hrecords : ((printStatus headers records).toList.splitOn '\x00').filter
      (fun record => !record.isEmpty) = headers.lines ++ records.flatMap StatusRecord.lines := by
    rw [printStatus, String.toList_ofList, splitOn_frame fun line hline => (hlines line hline).2,
      List.filter_append, List.filter_eq_self.mpr]
    · simp
    · intro line hline
      simpa using (hlines line hline).1
  have hstatus : (GitStatus.initial.withHeaders headers).after records =
      reportedStatus headers records := by
    simp [GitStatus.initial, GitStatus.withHeaders, GitStatus.after, reportedStatus,
      StatusCounts.add, StatusCounts.default]
  have hoid : (reportedStatus headers records).headOid.isEmpty = false := by
    simpa [reportedStatus] using headers.oid.nonempty
  rw [parseStatusPorcelainV2, hrecords, parseRecords_headers, parseRecords_records, hstatus]
  show (if (reportedStatus headers records).headOid.isEmpty = true then _ else _) = _
  rw [hoid]
  rfl

end DevRelay.Git
