import DevRelay.Snapshot.CapsuleIndexRoundTrip

/-!
# The paths that come back from the index

What is read from the lines of a path that is cut or unquoted is shorter than the
path, or is neither cut nor unquoted itself.  So of the paths that are one of the
two, the longest is not captured again.
-/

namespace DevRelay.Snapshot

open DevRelay.Lib DevRelay.Core DevRelay.Git

section

variable {git : IndexText} {debug : String → String}

/-- Cut at its line feeds, or taken for a quoted one. -/
def CutOrQuoted (path : List Char) : Prop := '\n' ∈ path ∨ path.head? = some '"'

/-- Separators are neither line feeds nor quotes. -/
theorem cutOrQuoted_normalizeSeparators (path : List Char) :
    CutOrQuoted (normalizeSeparators path).toList ↔ CutOrQuoted path := by
  have hkeep : ∀ c z : Char, z ≠ '/' → z ≠ '\\' → ((if c = '\\' then '/' else c) = z ↔ c = z) := by
    intro c z hslash hback
    by_cases hc : c = '\\'
    · rw [if_pos hc, hc]
      exact iff_of_false (Ne.symm hslash) (Ne.symm hback)
    · rw [if_neg hc]
  unfold CutOrQuoted normalizeSeparators
  rw [String.toList_ofList]
  apply or_congr
  · simp only [List.mem_map, hkeep _ '\n' (by decide) (by decide), exists_eq_right]
  · cases path with
    | nil => rfl
    | cons c rest =>
      simpa only [List.map_cons, List.head?_cons, Option.some.injEq] using
        hkeep c '"' (by decide) (by decide)

theorem length_normalizeSeparators (path : List Char) :
    (normalizeSeparators path).toList.length = path.length := by
  unfold normalizeSeparators
  rw [String.toList_ofList, List.length_map]

theorem backslash_notMem_normalizeSeparators (path : List Char) :
    '\\' ∉ (normalizeSeparators path).toList := by
  unfold normalizeSeparators
  rw [String.toList_ofList]
  intro hmem
  obtain ⟨c, -, hc⟩ := List.mem_map.mp hmem
  split at hc
  · cases hc
  · contradiction

/-! ## One line -/

/-- The path in a line of a reported pair is within the pair's path. -/
theorem field_sublist {pair : String × IndexStageEntry} (h : ReportedPair git pair)
    {line head field : List Char} (hline : line ∈ (indexInfoLine pair.1 pair.2).splitOn '\n')
    (hsplit : splitn '\t' 2 line = [head, field]) : field.Sublist pair.1.toList := by
  have hhead : ∀ c, isHeadChar c = false → c ∉ headText pair.2.mode pair.2.oid pair.2.stage.toNat :=
    fun c hc => notMem_headText h.mode h.oid h.low h.high hc
  have hfront : '\n' ∉ headText pair.2.mode pair.2.oid pair.2.stage.toNat ++ ['\t'] := by
    rw [List.mem_append, List.mem_singleton]
    rintro (hmem | heq)
    · exact hhead '\n' (by decide) hmem
    · cases heq
  have htext : indexInfoLine pair.1 pair.2 =
      (headText pair.2.mode pair.2.oid pair.2.stage.toNat ++ ['\t']) ++ pair.1.toList := by
    rw [List.append_assoc]
    rfl
  rw [htext] at hline
  rcases mem_splitOn_append hfront hline with ⟨first, hfirst, rfl⟩ | hpart
  · -- the line begins with the head, so its field is a part of the path
    rw [List.append_assoc, List.singleton_append, splitn_tab (hhead '\t' (by decide))] at hsplit
    have hfield : first = field := by simpa using (List.cons_eq_cons.mp hsplit).2
    rw [← hfield]
    exact sublist_of_mem_splitOn hfirst
  · have hwhole := eq_of_splitn_tab hsplit
    have hsub : field.Sublist line := by
      rw [hwhole]
      exact ((List.Sublist.refl field).cons '\t').trans (List.sublist_append_right head _)
    exact hsub.trans (sublist_of_mem_splitOn hpart)

/-- A path without a line feed has one line, with the whole path in it. -/
theorem field_eq {pair : String × IndexStageEntry} (h : ReportedPair git pair)
    (hpath : '\n' ∉ pair.1.toList) {line head field : List Char}
    (hline : line ∈ (indexInfoLine pair.1 pair.2).splitOn '\n')
    (hsplit : splitn '\t' 2 line = [head, field]) : field = pair.1.toList := by
  rw [List.splitOn_eq_singleton (lineFeed_notMem_indexInfoLine h hpath),
    List.mem_singleton] at hline
  have htab : '\t' ∉ headText pair.2.mode pair.2.oid pair.2.stage.toNat :=
    notMem_headText h.mode h.oid h.low h.high (by decide)
  rw [hline, indexInfoLine, splitn_tab htab] at hsplit
  simpa using (List.cons_eq_cons.mp hsplit).2.symm

/-- What is read from a line: nothing that is cut or quoted, or something shorter
than a path that is. -/
theorem readText_fromLine (hgit : git.Documented) {pair : String × IndexStageEntry}
    (h : ReportedPair git pair) {line : List Char}
    (hline : line ∈ (indexInfoLine pair.1 pair.2).splitOn '\n') {entry : CacheEntry}
    (hfrom : FromLine git line entry) :
    ¬CutOrQuoted (git.readText entry.path) ∨
      (CutOrQuoted pair.1.toList ∧ (git.readText entry.path).length < pair.1.toList.length) := by
  obtain ⟨head, field, hsplit, -, hpath⟩ := hfrom
  have hfeed : '\n' ∉ field := by
    have hnone := notMem_of_mem_splitOn hline
    rw [eq_of_splitn_tab hsplit, List.mem_append, List.mem_cons] at hnone
    exact fun hmem => hnone (Or.inr (Or.inr hmem))
  unfold IndexText.pathField at hpath
  by_cases hquote : field.head? = some '"'
  · right
    rw [if_pos hquote] at hpath
    have hshort := (hgit.quoted field entry.path hquote hpath).1
    refine ⟨?_, hshort.trans_le (field_sublist h hline hsplit).length_le⟩
    by_cases hcut : '\n' ∈ pair.1.toList
    · exact Or.inl hcut
    · rw [field_eq h hcut hline hsplit] at hquote
      exact Or.inr hquote
  · left
    rw [if_neg hquote, Option.some_inj] at hpath
    rw [← hpath, hgit.read, String.toList_ofList]
    rintro (hmem | hhead)
    · exact hfeed hmem
    · exact hquote hhead

theorem wellFormed_fromLine (hgit : git.Documented) {pair : String × IndexStageEntry}
    (h : ReportedPair git pair) {line : List Char}
    (hline : line ∈ (indexInfoLine pair.1 pair.2).splitOn '\n') {entry : CacheEntry}
    (hfrom : FromLine git line entry) (hstage : entry.stage ≠ 0) : WellFormed git entry := by
  obtain ⟨head, field, hsplit, hread, hpath⟩ := hfrom
  obtain ⟨hmode, hoid, hhigh⟩ := hgit.added _ _ _ _ hread
  refine ⟨hmode, hoid, Nat.one_le_iff_ne_zero.mpr hstage, hhigh, ?_⟩
  unfold IndexText.pathField at hpath
  by_cases hquote : field.head? = some '"'
  · rw [if_pos hquote] at hpath
    exact (hgit.quoted field entry.path hquote hpath).2
  · rw [if_neg hquote, Option.some_inj] at hpath
    rw [← hpath, hgit.read, String.toList_ofList]
    exact fun hmem => h.nulFree ((field_sublist h hline hsplit).subset hmem)

end

/-! ## The whole list -/

section

variable {git : IndexText} {debug : String → String} {entries : List UnmergedIndexEntry}
  {clean : List CacheEntry}

/-- Every entry of the index that is not merged was read from a line of a reported
pair. -/
theorem fromLine_of_apply (hclean : ∀ entry ∈ clean, entry.stage = 0)
    {index : List CacheEntry} (happly : applyUnmergedIndexEntries git entries clean = some index)
    {entry : CacheEntry} (hmem : entry ∈ index) (hstage : entry.stage ≠ 0) :
    ∃ pair ∈ stagePairs entries, ∃ line ∈ (indexInfoLine pair.1 pair.2).splitOn '\n',
      FromLine git line entry := by
  unfold applyUnmergedIndexEntries at happly
  split at happly
  · rw [← Option.some.inj happly] at hmem
    exact absurd (hclean entry hmem) hstage
  · rcases updateIndexInfo_mem happly hmem with hold | ⟨line, hline, hfrom⟩
    · exact absurd (stage_removed hclean hold) hstage
    · rw [indexInfo, inputLines_frame, indexInfoLines_eq] at hline
      obtain ⟨text, htext, hpart⟩ := List.mem_flatMap.mp hline
      obtain ⟨pair, hpair, rfl⟩ := List.mem_map.mp htext
      exact ⟨pair, hpair, line, hpart, hfrom⟩

/-- Every captured path was read from a line of a reported pair. -/
theorem fromLine_of_roundTrips (hgit : git.Documented)
    (hclean : ∀ entry ∈ clean, entry.stage = 0) (h : ReportedByGit git entries)
    (hback : RoundTripsThroughIndex git debug clean entries) {entry : UnmergedIndexEntry}
    (hmem : entry ∈ entries) :
    ∃ pair ∈ stagePairs entries, ∃ line ∈ (indexInfoLine pair.1 pair.2).splitOn '\n',
      ∃ found, FromLine git line found ∧
        entry.path = normalizeSeparators (git.readText found.path) := by
  obtain ⟨index, happly, hcapture⟩ := hback
  have hwell : ∀ found ∈ index, found.stage ≠ 0 → WellFormed git found := by
    intro found hfound hstage
    obtain ⟨pair, hpair, line, hline, hfrom⟩ :=
      fromLine_of_apply hclean happly hfound hstage
    exact wellFormed_fromLine hgit (h.pair hpair) hline hfrom hstage
  rw [capture_lsFilesUnmerged hwell, Except.ok.injEq] at hcapture
  rw [← hcapture] at hmem
  obtain ⟨record, hrecord, hpath⟩ := mem_paths_unmergedFromRecords hmem
  obtain ⟨found, hfound, rfl⟩ := List.mem_map.mp hrecord
  have hsorted := (List.mem_insertionSort IndexText.entryBefore).mp hfound
  obtain ⟨hin, hstage⟩ := List.mem_filter.mp hsorted
  obtain ⟨pair, hpair, line, hline, hfrom⟩ :=
    fromLine_of_apply hclean happly hin (of_decide_eq_true hstage)
  exact ⟨pair, hpair, line, hline, found, hfrom, hpath.symm⟩

/-- No path that is cut or quoted is among entries that come back. -/
theorem not_cutOrQuoted_of_roundTrips (hgit : git.Documented)
    (hclean : ∀ entry ∈ clean, entry.stage = 0) (h : ReportedByGit git entries)
    (hback : RoundTripsThroughIndex git debug clean entries) {entry : UnmergedIndexEntry}
    (hmem : entry ∈ entries) : ¬CutOrQuoted entry.path.toList := by
  classical
  intro hbad
  -- the longest of these paths
  let bad := entries.filter fun entry => CutOrQuoted entry.path.toList
  have hin : entry ∈ bad := List.mem_filter.mpr ⟨hmem, decide_eq_true hbad⟩
  obtain ⟨longest, hlongest⟩ : ∃ longest,
      longest ∈ bad.argmax fun entry => entry.path.toList.length := by
    apply Option.isSome_iff_exists.mp
    rw [Option.isSome_iff_ne_none, ne_eq, List.argmax_eq_none]
    exact List.ne_nil_of_mem hin
  obtain ⟨hmem', hbad'⟩ := List.mem_filter.mp (List.argmax_mem hlongest)
  obtain ⟨pair, hpair, line, hline, found, hfrom, hpath⟩ :=
    fromLine_of_roundTrips hgit hclean h hback hmem'
  rcases readText_fromLine hgit (h.pair hpair) hline hfrom with hplain | ⟨hcut, hshort⟩
  · apply hplain
    rw [← cutOrQuoted_normalizeSeparators, ← hpath]
    exact of_decide_eq_true hbad'
  · obtain ⟨other, hother, hin'⟩ := List.mem_flatMap.mp hpair
    obtain ⟨stage, -, rfl⟩ := List.mem_map.mp hin'
    have hle := List.le_of_mem_argmax (f := fun entry => entry.path.toList.length)
      (List.mem_filter.mpr ⟨hother, decide_eq_true hcut⟩) hlongest
    rw [hpath, length_normalizeSeparators] at hle
    exact absurd hshort (Nat.not_lt.mpr hle)

theorem plain_of_roundTrips (hgit : git.Documented)
    (hclean : ∀ entry ∈ clean, entry.stage = 0) (h : ReportedByGit git entries)
    (hback : RoundTripsThroughIndex git debug clean entries) {entry : UnmergedIndexEntry}
    (hmem : entry ∈ entries) : PlainPath entry.path := by
  have hbad := not_cutOrQuoted_of_roundTrips hgit hclean h hback hmem
  refine ⟨fun hfeed => hbad (Or.inl hfeed), ?_, fun hquote => hbad (Or.inr hquote)⟩
  obtain ⟨-, -, -, -, found, -, hpath⟩ := fromLine_of_roundTrips hgit hclean h hback hmem
  rw [hpath]
  exact backslash_notMem_normalizeSeparators _

/-- Entries come back from the index when their paths are plain, and only then. -/
theorem capsule_index_roundTrips_iff (git : IndexText) (debug : String → String)
    (clean : List CacheEntry) (entries : List UnmergedIndexEntry) (hgit : git.Documented)
    (hclean : ∀ entry ∈ clean, entry.stage = 0) (h : ReportedByGit git entries) :
    RoundTripsThroughIndex git debug clean entries ↔ ∀ entry ∈ entries, PlainPath entry.path :=
  ⟨fun hback _ hmem => plain_of_roundTrips hgit hclean h hback hmem,
    roundTrips_of_plain hgit hclean h⟩

end

/-! ## A reader of texts -/

/-- Quotes without an escape between them. -/
def unquotePlain (text : List Char) : Option (List UInt8) :=
  let inner := (text.drop 1).dropLast
  if text = '"' :: (inner ++ ['"']) ∧ '"' ∉ inner ∧ '\\' ∉ inner ∧ '\x00' ∉ inner then
    some (utf8 (String.ofList inner))
  else none

def readPlainHead (text : List Char) : Option IndexInfoHead :=
  match text.splitOn ' ' with
  | [mode, oid, stage] =>
    if IsOid .sha1 (String.ofList oid) then
      if mode = ['0'] then some .remove
      else
        match parseU8 stage with
        | some stage =>
          if CanonicalMode (String.ofList mode) ∧ stage.toNat ≤ 3 then
            some (.add (String.ofList mode) (String.ofList oid) stage.toNat)
          else none
        | none => none
    else none
  | _ => none

def readUtf8 (path : List UInt8) : List Char :=
  match String.fromUTF8? ⟨path.toArray⟩ with
  | some text => text.toList
  | none => []

theorem readUtf8_utf8 (path : String) : readUtf8 (utf8 path) = path.toList := by
  have htext : String.fromUTF8? ⟨(utf8 path).toArray⟩ = some path := by
    rw [utf8, Array.toArray_toList]
    exact dif_pos path.isValidUTF8
  rw [readUtf8, htext]

def demoIndexText : IndexText where
  format := .sha1
  readHead := readPlainHead
  unquote := unquotePlain
  verifyPath path := path ≠ []
  readText := readUtf8

theorem readPlainHead_headText {mode oid : String} {stage : Nat} (hmode : CanonicalMode mode)
    (hoid : IsOid .sha1 oid) (hlow : 1 ≤ stage) (hhigh : stage ≤ 3) :
    readPlainHead (headText mode oid stage) = some (.add mode oid stage) := by
  have hspace : ∀ word, IsHexWord word → ' ' ∉ word := by
    intro word hword hmem
    have := hword.2 ' ' hmem
    exact absurd this (by decide)
  have hzero : mode.toList ≠ ['0'] := by
    have hall : ∀ mode ∈ ["100644", "100755", "120000", "160000"],
        mode.toList ≠ ['0'] := by decide
    exact hall mode hmode
  have hstage : (UInt8.ofNat stage).toNat = stage := by
    rw [UInt8.toNat_ofNat']
    omega
  unfold readPlainHead headText
  rw [List.splitOn_append_cons_self_of_not_mem (hspace _ hmode.isHexWord),
    List.splitOn_append_cons_self_of_not_mem (hspace _ hoid.isHexWord),
    List.splitOn_eq_singleton (hspace _ (isHexWord_stage hlow hhigh))]
  simp only [String.ofList_toList, if_pos hoid, if_neg hzero, parseU8_stage hlow hhigh, hstage,
    if_pos (And.intro hmode hhigh)]

theorem readPlainHead_add {text : List Char} {mode oid : String} {stage : Nat}
    (h : readPlainHead text = some (.add mode oid stage)) :
    CanonicalMode mode ∧ IsOid .sha1 oid ∧ stage ≤ 3 := by
  unfold readPlainHead at h
  split at h
  · split at h
    · rename_i hoid
      split at h
      · cases h
      · split at h
        · split at h
          · rename_i hadd
            cases h
            exact ⟨hadd.1, hoid, hadd.2⟩
          · cases h
        · cases h
    · cases h
  · cases h

theorem demoIndexText_documented : demoIndexText.Documented where
  head _ _ _ hmode hoid hlow hhigh := readPlainHead_headText hmode hoid hlow hhigh
  added _ _ _ _ h := readPlainHead_add h
  quoted text path _ h := by
    have h : unquotePlain text = some path := h
    unfold unquotePlain at h
    dsimp only at h
    split at h
    · rename_i hquoted
      have htext := hquoted.1
      rw [← Option.some.inj h]
      show (readUtf8 _).length < _ ∧ _ ∉ readUtf8 _
      rw [readUtf8_utf8, String.toList_ofList]
      refine ⟨?_, hquoted.2.2.2⟩
      have hlength := congrArg List.length htext
      rw [List.length_cons, List.length_append, List.length_singleton] at hlength
      omega
    · cases h
  read := readUtf8_utf8

def demoOid : String := "0123456789abcdef0123456789abcdef01234567"

def demoStages : List IndexStageEntry :=
  [⟨1, "100644", demoOid⟩, ⟨2, "100755", demoOid⟩, ⟨3, "100644", demoOid⟩]

def conflicted (path : String) : UnmergedIndexEntry := ⟨path, demoStages⟩

theorem reported_conflicted {path : String} (hne : path ≠ "") (hnul : NulFree path)
    (hconflict : directoryConflict (utf8 path) (utf8 path) = false) :
    ReportedByGit demoIndexText [conflicted path] where
  paths := List.pairwise_singleton _ _
  named entry hmem := by
    rw [List.mem_singleton.mp hmem]
    refine ⟨hne, hnul, decide_eq_true fun hnil => hne (utf8_injective hnil)⟩
  staged entry hmem := by
    rw [List.mem_singleton.mp hmem]
    show demoStages ≠ [] ∧ demoStages.Pairwise _
    decide
  stages entry hmem := by
    rw [List.mem_singleton.mp hmem]
    show ∀ stage ∈ demoStages, _
    decide
  apart a ha b hb s _ t _ _ := by
    rw [List.mem_singleton.mp ha, List.mem_singleton.mp hb]
    exact hconflict

theorem capsule_index_roundTrips_iff_plain :
    RoundTripsThroughIndex demoIndexText id [⟨utf8 "README.md", 0, "100644", demoOid⟩]
      [conflicted "src/main.rs"] :=
  (capsule_index_roundTrips_iff demoIndexText id _ _ demoIndexText_documented
    (by decide) (reported_conflicted (by decide) (by decide) (by decide))).mpr (by decide)

/-- A path in quotes is taken for the path between them. -/
theorem quoted_path_is_lost :
    ReportedByGit demoIndexText [conflicted "\"a\""] ∧
      ¬RoundTripsThroughIndex demoIndexText id [] [conflicted "\"a\""] := by
  have hreported : ReportedByGit demoIndexText [conflicted "\"a\""] :=
    reported_conflicted (by decide) (by decide) (by decide)
  refine ⟨hreported, fun hback => ?_⟩
  have hplain := plain_of_roundTrips demoIndexText_documented (by decide) hreported hback
    (List.mem_singleton.mpr rfl)
  exact hplain.2.2 (by decide)

end DevRelay.Snapshot
