import DevRelay.Journal.CrashJournal
import DevRelay.Lib.TextBytes

/-!
# Reading the lines of a journal

What `records` finds in a file of whole lines, in one whose last line is cut,
and in one with two records on a line.
-/

namespace DevRelay.Journal

open DevRelay.Lib DevRelay.Core

/-! ## Bytes -/

theorem bytes_eq_flatMap (s : String) : bytes s = s.toList.flatMap String.utf8EncodeChar := by
  rw [bytes, ← String.utf8Encode_toList, List.utf8Encode, List.toList_data_toByteArray]

theorem bytes_append (s t : String) : bytes (s ++ t) = bytes s ++ bytes t := by
  rw [bytes_eq_flatMap, String.toList_append, List.flatMap_append, ← bytes_eq_flatMap,
    ← bytes_eq_flatMap]

theorem fromUTF8?_bytes (s : String) : String.fromUTF8? ⟨(bytes s).toArray⟩ = some s := by
  rw [bytes, Array.toArray_toList, String.fromUTF8?, dif_pos s.isValidUTF8]
  rfl

theorem bytes_of_fromUTF8? {line : List UInt8} {text : String}
    (h : String.fromUTF8? ⟨line.toArray⟩ = some text) : bytes text = line := by
  unfold String.fromUTF8? at h
  split at h
  · cases h
    rfl
  · cases h

/-- What is cut out of the bytes of a text, and can be decoded, is a part of the
text. -/
theorem prefix_of_bytes {text whole : String} {rest : List UInt8}
    (h : bytes text ++ rest = bytes whole) : text.toList <+: whole.toList := by
  apply List.isPrefix_of_utf8Encode_append_eq_utf8Encode ⟨rest.toArray⟩
  apply ByteArray.ext
  apply Array.toList_inj.mp
  rw [String.utf8Encode_toList, String.utf8Encode_toList]
  simpa [bytes] using h

theorem byte_ge_of_printable {s : String} (hs : Printable s.toList) {b : UInt8}
    (hb : b ∈ bytes s) : 32 ≤ b.toNat := by
  rw [bytes_eq_flatMap] at hb
  obtain ⟨c, hc, hmem⟩ := List.mem_flatMap.mp hb
  exact byte_ge_of_mem_encodeChar (hs c hc) hmem

/-! ## The text of a record -/

theorem printable_toJson (r : CrashJournalRecord) : Printable r.toJson.toList := by
  rw [CrashJournalRecord.toList_toJson]
  exact printable_writeObject _ _

theorem lineFeed_notMem_toJson (r : CrashJournalRecord) : lineFeed ∉ bytes r.toJson := by
  intro hmem
  have hge := byte_ge_of_printable (printable_toJson r) hmem
  exact absurd hge (by decide)

theorem bytes_toJson_ne_nil (r : CrashJournalRecord) : bytes r.toJson ≠ [] := by
  rw [bytes_eq_flatMap, CrashJournalRecord.toList_toJson, CrashJournalRecord.jsonChars,
    writeObject, List.flatMap_cons]
  exact fun h => String.utf8EncodeChar_ne_nil (List.append_eq_nil_iff.mp h).1

/-- A text ends with a brace, so there is no carriage return to be stripped. -/
theorem stripReturn_toJson (r : CrashJournalRecord) :
    stripReturn (bytes r.toJson) = bytes r.toJson := by
  have hlast : r.jsonChars.getLast? = some '}' := getLast?_writeObject _ _
  obtain ⟨front, hfront⟩ := List.getLast?_eq_some_iff.mp hlast
  have hbytes : bytes r.toJson = front.flatMap String.utf8EncodeChar ++ [125] := by
    rw [bytes_eq_flatMap, CrashJournalRecord.toList_toJson, hfront, List.flatMap_append]
    rfl
  unfold stripReturn
  rw [hbytes, List.getLast?_concat, if_neg (by decide)]

/-- What begins like a record is not blank. -/
theorem isBlank_firstPart {text : String} {r : CrashJournalRecord}
    (hfront : text.toList <+: r.jsonChars) (hne : text.toList ≠ []) :
    isBlank text = false := by
  unfold isBlank
  cases htext : text.toList with
  | nil => exact absurd htext hne
  | cons c rest =>
    rw [htext] at hfront
    have hc : c = '\x7b' := (List.cons_prefix_cons.mp hfront).1
    rw [hc]
    rfl

/-! ## Lines -/

theorem linesFrom_line {line : List UInt8} (hline : lineFeed ∉ line) (acc rest : List UInt8) :
    linesFrom acc (line ++ lineFeed :: rest) = stripReturn (acc ++ line) :: linesFrom [] rest := by
  induction line generalizing acc with
  | nil =>
    rw [List.append_nil, List.nil_append, linesFrom, if_pos rfl]
  | cons b line ih =>
    have hb : b ≠ lineFeed := fun heq => hline (heq ▸ List.mem_cons_self)
    have hrest : lineFeed ∉ line := fun h => hline (List.mem_cons_of_mem b h)
    rw [List.cons_append, linesFrom, if_neg hb, ih hrest, List.append_assoc, List.singleton_append]

theorem linesFrom_tail {tail : List UInt8} (htail : lineFeed ∉ tail) (acc : List UInt8) :
    linesFrom acc tail = if acc ++ tail = [] then [] else [acc ++ tail] := by
  induction tail generalizing acc with
  | nil => rw [List.append_nil, linesFrom]
  | cons b tail ih =>
    have hb : b ≠ lineFeed := fun heq => htail (heq ▸ List.mem_cons_self)
    have hrest : lineFeed ∉ tail := fun h => htail (List.mem_cons_of_mem b h)
    rw [linesFrom, if_neg hb, ih hrest, List.append_assoc, List.singleton_append]

/-- The bytes of whole lines. -/
def fileOf (rs : List CrashJournalRecord) : List UInt8 := rs.flatMap lineOf

theorem linesFrom_fileOf (rs : List CrashJournalRecord) (tail : List UInt8) :
    linesFrom [] (fileOf rs ++ tail) = (rs.map fun r => bytes r.toJson) ++ linesFrom [] tail := by
  induction rs with
  | nil => rfl
  | cons r rs ih =>
    rw [fileOf, List.flatMap_cons, lineOf, List.append_assoc, List.append_assoc,
      List.singleton_append, linesFrom_line (lineFeed_notMem_toJson r), List.nil_append,
      stripReturn_toJson, ← fileOf, ih]
    rfl

/-! ## Records -/

section

variable (reader : RecordReader) (path : String)

theorem parseLine_toJson (i : Nat) (r : CrashJournalRecord) :
    parseLine reader path i (bytes r.toJson) = .ok (some r) := by
  have hblank : isBlank r.toJson = false := by
    apply isBlank_firstPart (r := r)
    · rw [CrashJournalRecord.toList_toJson]
    · rw [CrashJournalRecord.toList_toJson]
      exact r.jsonChars_ne_nil
  unfold parseLine
  rw [fromUTF8?_bytes]
  dsimp only
  rw [hblank, if_neg Bool.false_ne_true, reader.reads]

theorem parseLines_append (i : Nat) (rs : List CrashJournalRecord) (lines : List (List UInt8)) :
    parseLines reader path i ((rs.map fun r => bytes r.toJson) ++ lines) =
      (parseLines reader path (i + rs.length) lines).map (rs ++ ·) := by
  induction rs generalizing i with
  | nil =>
    rw [List.map_nil, List.nil_append, List.length_nil, Nat.add_zero]
    cases parseLines reader path i lines with
    | error e => rfl
    | ok found => rfl
  | cons r rs ih =>
    have hindex : i + 1 + rs.length = i + (r :: rs).length := by
      rw [List.length_cons]
      omega
    rw [List.map_cons, List.cons_append, parseLines, parseLine_toJson]
    dsimp only
    rw [ih, hindex]
    cases parseLines reader path (i + (r :: rs).length) lines with
    | error e => rfl
    | ok found => rfl

/-- Whole lines are read back, in the order of their numbers. -/
theorem records_fileOf {file : JournalFile} {rs : List CrashJournalRecord}
    (h : file.getD [] = fileOf rs) :
    records reader path file = .ok (bySequenceNumber rs) := by
  have hlines : linesFrom [] (fileOf rs) = rs.map fun r => bytes r.toJson := by
    have happend := linesFrom_fileOf rs []
    rw [List.append_nil, linesFrom, if_pos rfl, List.append_nil] at happend
    exact happend
  have hparse : parseLines reader path 0 (linesFrom [] (fileOf rs)) = .ok rs := by
    have happend := parseLines_append reader path 0 rs []
    rw [List.append_nil, parseLines] at happend
    rw [hlines, happend]
    change Except.ok (rs ++ []) = Except.ok rs
    rw [List.append_nil]
  cases file with
  | none =>
    have hnil : rs = [] := by
      cases rs with
      | nil => rfl
      | cons r rs =>
        rw [Option.getD_none, fileOf, List.flatMap_cons, lineOf] at h
        simp at h
    subst hnil
    rfl
  | some content =>
    rw [Option.getD_some] at h
    rw [records, h, hparse]
    rfl

/-- A last line that cannot be parsed makes the whole file unreadable. -/
theorem records_badLine {content line tail : List UInt8} {rs : List CrashJournalRecord}
    (hcontent : content = fileOf rs ++ tail) (hlines : linesFrom [] tail = [line])
    (hbad : ∀ i, ∃ e, parseLine reader path i line = .error e) :
    ∃ e, records reader path (some content) = .error e := by
  obtain ⟨e, he⟩ := hbad (0 + rs.length)
  refine ⟨e, ?_⟩
  rw [records, hcontent, linesFrom_fileOf, hlines, parseLines_append, parseLines, he]
  rfl

/-- A line that is cut inside the text of a record. -/
theorem parseLine_cut (r : CrashJournalRecord) {cut : Nat} (hpos : 0 < cut)
    (hcut : cut < (bytes r.toJson).length) (i : Nat) :
    ∃ e, parseLine reader path i ((bytes r.toJson).take cut) = .error e := by
  unfold parseLine
  split
  · exact ⟨_, rfl⟩
  · rename_i text htext
    have hbytes := bytes_of_fromUTF8? htext
    have hfront : text.toList <+: r.jsonChars := by
      rw [← CrashJournalRecord.toList_toJson]
      have hsplit : bytes text ++ (bytes r.toJson).drop cut = bytes r.toJson := by
        rw [hbytes, List.take_append_drop]
      exact prefix_of_bytes hsplit
    have hne : text.toList ≠ [] := by
      intro hnil
      rw [bytes_eq_flatMap, hnil, List.flatMap_nil, eq_comm, List.take_eq_nil_iff] at hbytes
      rcases hbytes with hzero | hempty
      · omega
      · exact bytes_toJson_ne_nil r hempty
    have hpart : text.toList ≠ r.jsonChars := by
      intro hsame
      rw [bytes_eq_flatMap, hsame, ← CrashJournalRecord.toList_toJson, ← bytes_eq_flatMap]
        at hbytes
      have hlength := congrArg List.length hbytes
      rw [List.length_take] at hlength
      omega
    obtain ⟨e, he⟩ := reader.truncated r text hfront hpart
    rw [isBlank_firstPart hfront hne, if_neg Bool.false_ne_true, he]
    exact ⟨_, rfl⟩

/-- Two records on one line. -/
theorem parseLine_glued (r s : CrashJournalRecord) (i : Nat) :
    ∃ e, parseLine reader path i (bytes r.toJson ++ bytes s.toJson) = .error e := by
  have htext : (r.toJson ++ s.toJson).toList = r.jsonChars ++ s.jsonChars := by
    rw [String.toList_append, CrashJournalRecord.toList_toJson, CrashJournalRecord.toList_toJson]
  have hblank : isBlank (r.toJson ++ s.toJson) = false := by
    unfold isBlank
    rw [htext]
    rfl
  obtain ⟨e, he⟩ := reader.trailing r (r.toJson ++ s.toJson) '\x7b' _ rfl htext
  unfold parseLine
  rw [← bytes_append, fromUTF8?_bytes]
  dsimp only
  rw [hblank, if_neg Bool.false_ne_true, he]
  exact ⟨_, rfl⟩

end

end DevRelay.Journal
