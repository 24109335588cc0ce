import DevRelay.Git.StatusRoundTrip
import DevRelay.Snapshot.UnmergedEntries

/-!
# Unmerged entries through the index and back

The paths that come back are those that a line carries as they are.  A path
with a line feed is cut, and one that begins with a quote is unquoted; what is
read of either is shorter than the path, so the longest of them is missing.
-/

namespace DevRelay.Snapshot

open DevRelay.Lib DevRelay.Core DevRelay.Git

/-! ## Capture -/

section

variable {git : IndexText} {debug : String → String}

/-- What is read from the record of an index entry. -/
def readBack (git : IndexText) (entry : CacheEntry) : String × IndexStageEntry :=
  (normalizeSeparators (git.readText entry.path), ⟨UInt8.ofNat entry.stage, entry.mode, entry.oid⟩)

/-- An unmerged entry as git keeps it. -/
structure WellFormed (git : IndexText) (entry : CacheEntry) : Prop where
  mode : CanonicalMode entry.mode
  oid : IsOid git.format entry.oid
  low : 1 ≤ entry.stage
  high : entry.stage ≤ 3
  nulFree : '\x00' ∉ git.readText entry.path

theorem isSpace_of_isHexDigit {c : Char} (h : isHexDigit c = true) : isSpace c = false := by
  have hbounds : (48 ≤ c.toNat ∧ c.toNat ≤ 57) ∨ (97 ≤ c.toNat ∧ c.toNat ≤ 102) := by
    simp only [isHexDigit, Bool.or_eq_true, Bool.and_eq_true, decide_eq_true_eq] at h
    exact h
  simp only [isSpace, Bool.or_eq_false_iff, Bool.and_eq_false_iff, decide_eq_false_iff_not]
  omega

theorem splitWhitespace_headText {format : ObjectFormat} {mode oid : String} {stage : Nat}
    (hmode : CanonicalMode mode) (hoid : IsOid format oid) (hlow : 1 ≤ stage) (hhigh : stage ≤ 3) :
    splitWhitespace (headText mode oid stage) =
      [mode.toList, oid.toList, (toString stage).toList] := by
  have hword : ∀ word, IsHexWord word → word ≠ [] ∧ ∀ c ∈ word, isSpace c = false :=
    fun word h => ⟨h.1, fun c hc => isSpace_of_isHexDigit (h.2 c hc)⟩
  have hframe : headText mode oid stage =
      frame ' ' [mode.toList, oid.toList] ++ (toString stage).toList := by
    simp [headText]
  obtain ⟨hne, hspace⟩ := hword _ (isHexWord_stage hlow hhigh)
  rw [hframe, splitWhitespace_frame (by decide), splitWhitespace_word hne hspace]
  · rfl
  · intro word hmem
    rcases List.mem_cons.mp hmem with rfl | hmem
    · exact hword _ hmode.isHexWord
    · rw [List.mem_singleton.mp hmem]
      exact hword _ hoid.isHexWord

theorem parseU8_stage {stage : Nat} (hlow : 1 ≤ stage) (hhigh : stage ≤ 3) :
    parseU8 (toString stage).toList = some (UInt8.ofNat stage) := by
  obtain rfl | rfl | rfl : stage = 1 ∨ stage = 2 ∨ stage = 3 := by omega
  · decide
  · decide
  · decide

theorem notMem_headText {format : ObjectFormat} {mode oid : String} {stage : Nat}
    (hmode : CanonicalMode mode) (hoid : IsOid format oid) (hlow : 1 ≤ stage) (hhigh : stage ≤ 3)
    {c : Char} (hc : isHeadChar c = false) : c ∉ headText mode oid stage := by
  intro hmem
  rw [isHeadChar_of_mem_headText hmode hoid hlow hhigh hmem] at hc
  cases hc

theorem parse_recordText {entry : CacheEntry} (h : WellFormed git entry) :
    parseUnmergedRecord debug (git.recordText entry) = .ok (readBack git entry) := by
  have htab : '\t' ∉ headText entry.mode entry.oid entry.stage :=
    notMem_headText h.mode h.oid h.low h.high (by decide)
  unfold parseUnmergedRecord IndexText.recordText
  rw [splitn_tab htab]
  simp only [splitWhitespace_headText h.mode h.oid h.low h.high, parseU8_stage h.low h.high,
    String.ofList_toList]
  rfl

theorem mapM_records {entries : List CacheEntry} (h : ∀ entry ∈ entries, WellFormed git entry) :
    (entries.map git.recordText).mapM (parseUnmergedRecord debug) =
      .ok (entries.map (readBack git)) := by
  induction entries with
  | nil => rfl
  | cons first rest ih =>
    rw [List.map_cons, List.mapM_cons, parse_recordText (h first List.mem_cons_self),
      ih fun entry hmem => h entry (List.mem_cons_of_mem first hmem)]
    rfl

/-- Nothing is trimmed behind the last record. -/
theorem trimEnd_frame (records : List (List Char)) :
    trimEnd (frame '\x00' records) = frame '\x00' records := by
  rcases List.eq_nil_or_concat records with rfl | ⟨front, last, rfl⟩
  · rfl
  · rw [List.concat_eq_append, frame_append]
    unfold trimEnd
    have hlast : frame '\x00' [last] = last ++ ['\x00'] := by simp
    rw [hlast, ← List.append_assoc, List.reverse_append, List.reverse_singleton,
      List.singleton_append, List.dropWhile_cons_of_neg (by decide), List.reverse_cons,
      List.reverse_reverse]

/-- Capturing what git lists reads back the unmerged entries of the index. -/
theorem capture_lsFilesUnmerged {index : List CacheEntry}
    (h : ∀ entry ∈ index, entry.stage ≠ 0 → WellFormed git entry) :
    captureUnmergedIndexEntries debug (git.lsFilesUnmerged index) =
      .ok (unmergedFromRecords ((IndexText.unmergedEntries index).map (readBack git))) := by
  have hwell : ∀ entry ∈ IndexText.unmergedEntries index, WellFormed git entry := by
    intro entry hmem
    have hfiltered := (List.mem_insertionSort IndexText.entryBefore).mp hmem
    obtain ⟨hin, hstage⟩ := List.mem_filter.mp hfiltered
    exact h entry hin (of_decide_eq_true hstage)
  have hnul : ∀ record ∈ (IndexText.unmergedEntries index).map git.recordText,
      '\x00' ∉ record := by
    intro record hmem
    obtain ⟨entry, hentry, rfl⟩ := List.mem_map.mp hmem
    have hw := hwell entry hentry
    unfold IndexText.recordText
    rw [List.mem_append, List.mem_cons]
    rintro (hhead | htab | hpath)
    · exact notMem_headText hw.mode hw.oid hw.low hw.high (by decide) hhead
    · exact absurd htab (by decide)
    · exact hw.nulFree hpath
  have hkeep : (((IndexText.unmergedEntries index).map git.recordText) ++ [[]]).filter
      (fun record => !record.isEmpty) = (IndexText.unmergedEntries index).map git.recordText := by
    rw [List.filter_append, List.filter_eq_self.mpr]
    · exact List.append_nil _
    · intro record hmem
      obtain ⟨entry, -, rfl⟩ := List.mem_map.mp hmem
      unfold IndexText.recordText
      simp
  unfold captureUnmergedIndexEntries IndexText.lsFilesUnmerged
  rw [trimEnd_frame, splitOn_frame hnul, hkeep, mapM_records hwell]
  rfl

end

/-! ## Grouping -/

/-- The captured paths are the paths of the records. -/
theorem mem_paths_unmergedFromRecords {records : List (String × IndexStageEntry)}
    {entry : UnmergedIndexEntry} (h : entry ∈ unmergedFromRecords records) :
    ∃ record ∈ records, record.1 = entry.path := by
  obtain ⟨⟨path, stages⟩, hgroup, rfl⟩ := List.mem_map.mp h
  have hfind := SortedMap.mem_entries.mp hgroup
  rw [SortedMap.find?_groupBy] at hfind
  split at hfind
  · cases hfind
  · rename_i hne
    obtain ⟨record, hmem⟩ := List.exists_mem_of_ne_nil _ hne
    obtain ⟨hin, hpath⟩ := List.mem_filter.mp hmem
    exact ⟨record, hin, of_decide_eq_true hpath⟩

/-- The pairs of path and stage entry that a list of entries stands for. -/
def stagePairs (entries : List UnmergedIndexEntry) : List (String × IndexStageEntry) :=
  entries.flatMap fun entry => entry.stages.map fun stage => (entry.path, stage)

theorem filter_stagePairs_of_mem {entries : List UnmergedIndexEntry}
    (hpaths : entries.Pairwise fun a b => a.path < b.path) {entry : UnmergedIndexEntry}
    (hmem : entry ∈ entries) :
    (stagePairs entries).filter (fun pair => pair.1 = entry.path) =
      entry.stages.map fun stage => (entry.path, stage) := by
  unfold stagePairs
  induction entries with
  | nil => cases hmem
  | cons first rest ih =>
    obtain ⟨hfirst, hrest⟩ := List.pairwise_cons.mp hpaths
    rw [List.flatMap_cons, List.filter_append]
    rcases List.mem_cons.mp hmem with rfl | htail
    · -- the paths behind it are all different
      rw [List.filter_eq_self.mpr, List.filter_eq_nil_iff.mpr]
      · exact List.append_nil _
      · intro pair hpair
        obtain ⟨other, hother, hin⟩ := List.mem_flatMap.mp hpair
        obtain ⟨stage, -, rfl⟩ := List.mem_map.mp hin
        simpa using ne_of_gt (hfirst other hother)
      · intro pair hpair
        obtain ⟨stage, -, rfl⟩ := List.mem_map.mp hpair
        exact decide_eq_true rfl
    · rw [ih hrest htail, List.filter_eq_nil_iff.mpr]
      · rfl
      · intro pair hpair
        obtain ⟨stage, -, rfl⟩ := List.mem_map.mp hpair
        simpa using ne_of_lt (hfirst entry htail)

/-- Stage entries in any order are put back in order. -/
theorem sortStages_of_perm {stages sorted : List IndexStageEntry} (hperm : stages.Perm sorted)
    (hsorted : sorted.Pairwise fun a b => a.stage < b.stage) : sortStages stages = sorted := by
  have hle : (sortStages stages).Pairwise fun a b => a.stage ≤ b.stage := by
    have htrans : IsTrans IndexStageEntry fun a b => a.stage ≤ b.stage :=
      ⟨fun _ _ _ => UInt8.le_trans⟩
    have htotal : Std.Total fun a b : IndexStageEntry => a.stage ≤ b.stage :=
      ⟨fun a b => UInt8.le_total a.stage b.stage⟩
    exact List.pairwise_insertionSort _ stages
  have hall : (sortStages stages).Perm sorted := (List.perm_insertionSort _ stages).trans hperm
  -- entries of one stage are one entry, so the order is strict
  have hnodup : (sorted.map IndexStageEntry.stage).Nodup :=
    List.pairwise_map.mpr (hsorted.imp fun h => UInt8.ne_of_lt h)
  apply hall.eq_of_pairwise ?_ hle (hsorted.imp fun h => UInt8.le_of_lt h)
  intro a b ha hb hab hba
  exact List.inj_on_of_nodup_map hnodup (hall.mem_iff.mp ha) hb (UInt8.le_antisymm hab hba)

/-- Records in any order are grouped back into the entries they stand for. -/
theorem unmergedFromRecords_of_perm {records : List (String × IndexStageEntry)}
    {entries : List UnmergedIndexEntry} (hperm : records.Perm (stagePairs entries))
    (hpaths : entries.Pairwise fun a b => a.path < b.path)
    (hstaged : ∀ entry ∈ entries, entry.stages ≠ [] ∧
      entry.stages.Pairwise fun a b => a.stage < b.stage) :
    unmergedFromRecords records = entries := by
  let expected : SortedMap String (List IndexStageEntry) :=
    ⟨entries.map fun entry => (entry.path, entry.stages), List.pairwise_map.mpr hpaths⟩
  have hfound : ∀ k, ((SortedMap.groupBy Prod.fst Prod.snd records).filterMap
      fun _ stages => some (sortStages stages)).find? k = expected.find? k := by
    intro k
    have hmembers : (records.filter fun pair => pair.1 = k).Perm
        ((stagePairs entries).filter fun pair => pair.1 = k) := hperm.filter _
    rw [SortedMap.find?_filterMap, SortedMap.find?_groupBy]
    by_cases hk : ∃ entry ∈ entries, entry.path = k
    · obtain ⟨entry, hmem, rfl⟩ := hk
      rw [filter_stagePairs_of_mem hpaths hmem] at hmembers
      have hexpected : expected.find? entry.path = some entry.stages :=
        SortedMap.mem_entries.mp (List.mem_map_of_mem hmem)
      obtain ⟨hne, hsorted⟩ := hstaged entry hmem
      have hnonempty : records.filter (fun pair => pair.1 = entry.path) ≠ [] := by
        intro hnil
        rw [hnil] at hmembers
        have := hmembers.length_eq
        simp only [List.length_nil, List.length_map] at this
        exact hne (List.length_eq_zero_iff.mp this.symm)
      have hstages : ((records.filter fun pair => pair.1 = entry.path).map Prod.snd).Perm
          entry.stages := by
        have := hmembers.map Prod.snd
        rwa [List.map_map, show (Prod.snd ∘ fun stage => (entry.path, stage)) = id from rfl,
          List.map_id] at this
      rw [if_neg hnonempty, hexpected]
      exact congrArg some (sortStages_of_perm hstages hsorted)
    · have hnone : records.filter (fun pair => pair.1 = k) = [] := by
        rw [List.filter_eq_nil_iff]
        intro pair hpair hpath
        obtain ⟨entry, hmem, hin⟩ := List.mem_flatMap.mp (hperm.mem_iff.mp hpair)
        obtain ⟨stage, -, rfl⟩ := List.mem_map.mp hin
        exact hk ⟨entry, hmem, of_decide_eq_true hpath⟩
      rw [if_pos hnone]
      symm
      apply SortedMap.find?_eq_none_of_not_mem_keys
      intro hmem
      obtain ⟨group, hgroup, rfl⟩ := List.mem_map.mp hmem
      obtain ⟨entry, hentry, rfl⟩ := List.mem_map.mp hgroup
      exact hk ⟨entry, hentry, rfl⟩
  have hentries := congrArg SortedMap.entries (SortedMap.ext hfound)
  have hleft : ((SortedMap.groupBy Prod.fst Prod.snd records).filterMap
      fun _ stages => some (sortStages stages)).entries =
      (SortedMap.groupBy Prod.fst Prod.snd records).entries.map fun group =>
        (group.1, sortStages group.2) := by
    show List.filterMap _ _ = _
    simp only [Option.map_some, List.filterMap_eq_map']
  rw [hleft] at hentries
  have hback := congrArg (List.map fun group : String × List IndexStageEntry =>
    UnmergedIndexEntry.mk group.1 group.2) hentries
  rw [List.map_map] at hback
  refine hback.trans ?_
  show (entries.map fun entry => (entry.path, entry.stages)).map _ = entries
  rw [List.map_map]
  exact List.map_id entries

/-! ## Plain paths come back -/

section

variable {git : IndexText} {debug : String → String} {entries : List UnmergedIndexEntry}

/-- The index entry of a path and a stage entry. -/
def cacheEntry (pair : String × IndexStageEntry) : CacheEntry :=
  ⟨utf8 pair.1, pair.2.stage.toNat, pair.2.mode, pair.2.oid⟩

/-- What is known of each pair that git reports. -/
structure ReportedPair (git : IndexText) (pair : String × IndexStageEntry) : Prop where
  nulFree : NulFree pair.1
  verified : git.verifyPath (utf8 pair.1) = true
  low : 1 ≤ pair.2.stage.toNat
  high : pair.2.stage.toNat ≤ 3
  mode : CanonicalMode pair.2.mode
  oid : IsOid git.format pair.2.oid

theorem ReportedByGit.pair (h : ReportedByGit git entries) {pair : String × IndexStageEntry}
    (hmem : pair ∈ stagePairs entries) : ReportedPair git pair := by
  obtain ⟨entry, hentry, hin⟩ := List.mem_flatMap.mp hmem
  obtain ⟨stage, hstage, rfl⟩ := List.mem_map.mp hin
  obtain ⟨-, hnul, hverified⟩ := h.named entry hentry
  obtain ⟨hlow, hhigh, hmode, hoid⟩ := h.stages entry hentry stage hstage
  exact ⟨hnul, hverified, hlow, hhigh, hmode, hoid⟩

theorem indexInfoLines_eq (entries : List UnmergedIndexEntry) :
    indexInfoLines entries = (stagePairs entries).map fun pair => indexInfoLine pair.1 pair.2 := by
  unfold indexInfoLines stagePairs
  rw [List.map_flatMap]
  congr 1
  funext entry
  rw [List.map_map]
  rfl

theorem ReportedPair.wellFormed (hgit : git.Documented) {pair : String × IndexStageEntry}
    (h : ReportedPair git pair) : WellFormed git (cacheEntry pair) where
  mode := h.mode
  oid := h.oid
  low := h.low
  high := h.high
  nulFree := by
    show '\x00' ∉ git.readText (utf8 pair.1)
    rw [hgit.read]
    exact h.nulFree

theorem normalizeSeparators_of_notMem {path : List Char} (h : '\\' ∉ path) :
    normalizeSeparators path = String.ofList path := by
  unfold normalizeSeparators
  rw [List.map_congr_left (g := id)]
  · rw [List.map_id]
  · intro c hc
    exact if_neg fun heq : c = '\\' => h (heq ▸ hc)

theorem readBack_cacheEntry (hgit : git.Documented) {pair : String × IndexStageEntry}
    (hpath : '\\' ∉ pair.1.toList) : readBack git (cacheEntry pair) = pair := by
  have htext : git.readText (utf8 pair.1) = pair.1.toList := hgit.read pair.1
  unfold readBack cacheEntry
  dsimp only
  rw [htext, normalizeSeparators_of_notMem hpath, String.ofList_toList, UInt8.ofNat_toNat]

/-- The line of a plain path adds its entry. -/
theorem readLine_indexInfoLine (hgit : git.Documented) {pair : String × IndexStageEntry}
    (h : ReportedPair git pair) (hplain : PlainPath pair.1) (index : List CacheEntry) :
    git.readLine index (indexInfoLine pair.1 pair.2) =
      some (addCacheinfo index (cacheEntry pair)) := by
  have htab : '\t' ∉ headText pair.2.mode pair.2.oid pair.2.stage.toNat :=
    notMem_headText h.mode h.oid h.low h.high (by decide)
  have hfield : git.pathField pair.1.toList = some (utf8 pair.1) := by
    unfold IndexText.pathField
    rw [if_neg hplain.2.2, String.ofList_toList]
  unfold IndexText.readLine indexInfoLine
  rw [splitn_tab htab]
  simp only [hgit.head _ _ _ h.mode h.oid h.low h.high, hfield, Option.bind_eq_bind,
    Option.bind_some, h.verified, if_true]
  rfl

theorem foldlM_indexInfoLines (hgit : git.Documented) {pairs : List (String × IndexStageEntry)}
    (h : ∀ pair ∈ pairs, ReportedPair git pair ∧ PlainPath pair.1) (index : List CacheEntry) :
    (pairs.map fun pair => indexInfoLine pair.1 pair.2).foldlM git.readLine index =
      some ((pairs.map cacheEntry).foldl addCacheinfo index) := by
  induction pairs generalizing index with
  | nil => rfl
  | cons first rest ih =>
    obtain ⟨hfirst, hplain⟩ := h first List.mem_cons_self
    rw [List.map_cons, List.foldlM_cons, readLine_indexInfoLine hgit hfirst hplain,
      List.map_cons, List.foldl_cons]
    exact ih (fun pair hmem => h pair (List.mem_cons_of_mem first hmem)) _

/-- No two of the reported pairs have one path and one stage. -/
theorem stagePairs_distinct (h : ReportedByGit git entries) :
    (stagePairs entries).Pairwise fun a b => ¬(a.1 = b.1 ∧ a.2.stage = b.2.stage) := by
  unfold stagePairs
  rw [List.pairwise_flatMap]
  constructor
  · intro entry hentry
    rw [List.pairwise_map]
    apply (h.staged entry hentry).2.imp
    rintro a b hlt ⟨-, heq⟩
    exact UInt8.ne_of_lt hlt heq
  · apply h.paths.imp
    rintro a b hlt x hx y hy ⟨heq, -⟩
    obtain ⟨s, -, rfl⟩ := List.mem_map.mp hx
    obtain ⟨t, -, rfl⟩ := List.mem_map.mp hy
    exact absurd heq (ne_of_lt hlt)

theorem replaces_cacheEntry (h : ReportedByGit git entries)
    {old new : String × IndexStageEntry} (hold : old ∈ stagePairs entries)
    (hnew : new ∈ stagePairs entries) (hdistinct : ¬(old.1 = new.1 ∧ old.2.stage = new.2.stage)) :
    replaces (cacheEntry new) (cacheEntry old) = false := by
  have hzero : new.2.stage.toNat ≠ 0 := by
    have := (h.pair hnew).low
    omega
  have hpath : utf8 old.1 = utf8 new.1 ↔ old.1 = new.1 := utf8_injective.eq_iff
  have hstage : old.2.stage.toNat = new.2.stage.toNat ↔ old.2.stage = new.2.stage :=
    UInt8.toNat_inj
  have hconflict : old.2.stage = new.2.stage →
      directoryConflict (utf8 old.1) (utf8 new.1) = false := by
    obtain ⟨a, ha, hin⟩ := List.mem_flatMap.mp hold
    obtain ⟨b, hb, hin'⟩ := List.mem_flatMap.mp hnew
    obtain ⟨s, hs, rfl⟩ := List.mem_map.mp hin
    obtain ⟨t, ht, rfl⟩ := List.mem_map.mp hin'
    exact h.apart a ha b hb s hs t ht
  unfold replaces cacheEntry
  simp only [hpath, hstage, hzero, decide_false, Bool.or_false]
  by_cases hsame : old.2.stage = new.2.stage
  · rw [hconflict hsame]
    simpa [hsame] using hdistinct
  · simp [hsame]

theorem lineFeed_notMem_indexInfoLine {pair : String × IndexStageEntry}
    (h : ReportedPair git pair) (hpath : '\n' ∉ pair.1.toList) :
    '\n' ∉ indexInfoLine pair.1 pair.2 := by
  unfold indexInfoLine
  rw [List.mem_append, List.mem_cons]
  rintro (hhead | htab | hmem)
  · exact notMem_headText h.mode h.oid h.low h.high (by decide) hhead
  · exact absurd htab (by decide)
  · exact hpath hmem

/-- Removing paths leaves a clean index clean. -/
theorem stage_removed {clean : List CacheEntry} (hclean : ∀ entry ∈ clean, entry.stage = 0)
    {old : CacheEntry}
    (hold : old ∈ entries.foldl (fun index entry => forceRemove index entry.path) clean) :
    old.stage = 0 := by
  have hall : ∀ entry ∈ entries.foldl (fun index entry => forceRemove index entry.path) clean,
      entry.stage = 0 := by
    apply List.foldlRecOn (motive := fun index : List CacheEntry =>
      ∀ entry ∈ index, entry.stage = 0)
    · exact hclean
    · intro index hindex entry _ old hold
      exact hindex old (List.mem_of_mem_filter hold)
  exact hall old hold

/-- The index after the entries were applied to a clean one. -/
theorem apply_of_plain (hgit : git.Documented) {clean : List CacheEntry}
    (hclean : ∀ entry ∈ clean, entry.stage = 0) (h : ReportedByGit git entries)
    (hplain : ∀ pair ∈ stagePairs entries, PlainPath pair.1) :
    ∃ removed : List CacheEntry, (∀ entry ∈ removed, entry.stage = 0) ∧
      applyUnmergedIndexEntries git entries clean =
        some (removed ++ (stagePairs entries).map cacheEntry) := by
  by_cases hnone : entries = []
  · refine ⟨clean, hclean, ?_⟩
    rw [applyUnmergedIndexEntries, if_pos hnone, hnone]
    exact congrArg some (List.append_nil clean).symm
  · have hremoved : ∀ entry ∈ entries.foldl
        (fun index entry => forceRemove index entry.path) clean, entry.stage = 0 :=
      fun entry hmem => stage_removed hclean hmem
    have hlines : ((stagePairs entries).map fun pair => indexInfoLine pair.1 pair.2).flatMap
        (fun line => line.splitOn '\n') =
        (stagePairs entries).map fun pair => indexInfoLine pair.1 pair.2 := by
      rw [← List.flatMap_singleton' ((stagePairs entries).map _), List.flatMap_assoc]
      apply List.flatMap_congr
      intro line hline
      obtain ⟨pair, hmem, rfl⟩ := List.mem_map.mp hline
      rw [List.flatMap_singleton, List.splitOn_eq_singleton
        (lineFeed_notMem_indexInfoLine (h.pair hmem) (hplain pair hmem).1)]
    refine ⟨_, hremoved, ?_⟩
    rw [applyUnmergedIndexEntries, if_neg hnone, IndexText.updateIndexInfo, indexInfo,
      inputLines_frame, indexInfoLines_eq, hlines,
      foldlM_indexInfoLines hgit (fun pair hmem => ⟨h.pair hmem, hplain pair hmem⟩),
      foldl_addCacheinfo]
    · intro old hold new hnew
      obtain ⟨pair, hmem, rfl⟩ := List.mem_map.mp hnew
      have hold := hremoved old hold
      have hlow := (h.pair hmem).low
      have hne : old.stage ≠ (cacheEntry pair).stage := by
        show old.stage ≠ pair.2.stage.toNat
        omega
      have hzero : (cacheEntry pair).stage ≠ 0 := by
        show pair.2.stage.toNat ≠ 0
        omega
      simp [replaces, hne, hzero]
    · rw [List.pairwise_map]
      apply (stagePairs_distinct h).imp_of_mem
      intro a b ha hb hdistinct
      exact replaces_cacheEntry h ha hb hdistinct

/-- Plain paths round trip. -/
theorem roundTrips_of_plain (hgit : git.Documented) {clean : List CacheEntry}
    (hclean : ∀ entry ∈ clean, entry.stage = 0) (h : ReportedByGit git entries)
    (hplain : ∀ entry ∈ entries, PlainPath entry.path) :
    RoundTripsThroughIndex git debug clean entries := by
  have hpairs : ∀ pair ∈ stagePairs entries, PlainPath pair.1 := by
    intro pair hmem
    obtain ⟨entry, hentry, hin⟩ := List.mem_flatMap.mp hmem
    obtain ⟨stage, -, rfl⟩ := List.mem_map.mp hin
    exact hplain entry hentry
  obtain ⟨removed, hremoved, happly⟩ := apply_of_plain hgit hclean h hpairs
  refine ⟨_, happly, ?_⟩
  have hunmerged : (IndexText.unmergedEntries
      (removed ++ (stagePairs entries).map cacheEntry)).Perm
      ((stagePairs entries).map cacheEntry) := by
    refine (List.perm_insertionSort _ _).trans (List.Perm.of_eq ?_)
    rw [List.filter_append, List.filter_eq_nil_iff.mpr, List.filter_eq_self.mpr]
    · rfl
    · intro entry hmem
      obtain ⟨pair, hpair, rfl⟩ := List.mem_map.mp hmem
      have hlow := (h.pair hpair).low
      exact decide_eq_true (show pair.2.stage.toNat ≠ 0 by omega)
    · intro entry hmem
      simp [hremoved entry hmem]
  have hback : ((stagePairs entries).map cacheEntry).map (readBack git) = stagePairs entries := by
    rw [List.map_map]
    calc (stagePairs entries).map (readBack git ∘ cacheEntry)
        = (stagePairs entries).map id := by
          apply List.map_congr_left
          intro pair hpair
          exact readBack_cacheEntry hgit (hpairs pair hpair).2.1
      _ = stagePairs entries := List.map_id _
  rw [capture_lsFilesUnmerged, unmergedFromRecords_of_perm _ h.paths h.staged]
  · have := hunmerged.map (readBack git)
    rwa [hback] at this
  · intro entry hmem hstage
    rcases List.mem_append.mp hmem with hold | hnew
    · exact absurd (hremoved entry hold) hstage
    · obtain ⟨pair, hpair, rfl⟩ := List.mem_map.mp hnew
      exact (h.pair hpair).wellFormed hgit

end

end DevRelay.Snapshot
