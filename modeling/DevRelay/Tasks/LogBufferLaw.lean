import DevRelay.Lib.Run
import DevRelay.Tasks.LogStore
import Mathlib.Data.List.Range

/-!
# What the log store keeps of its records

Over a run of appended chunks, some of whose writes may fail: the records in memory are
the end of the appended ones, within their limit, and the spool is the beginning of the
redacted chunks, with the marker behind them when one was left out.  The numbers of the
records increase as long as each append also writes its chunk to the spool: a chunk that
finds no space or whose write fails leaves its number to the next record.
-/

namespace DevRelay.Tasks

open Lib

/-! ## Slices -/

theorem sliceTo_isPrefix (text : List Char) (index : Nat) : sliceTo text index <+: text := by
  induction text generalizing index with
  | nil => exact List.nil_prefix
  | cons c rest ih =>
    rw [sliceTo]
    by_cases hfits : c.utf8Size ≤ index
    · rw [if_pos hfits]
      exact (List.prefix_cons_inj c).mpr (ih _)
    · rw [if_neg hfits]
      exact List.nil_prefix

/-- A record holds a text, or the beginning of it and of the marker behind it. -/
def CutOf (text : String) (r : TaskLogRecord) : Prop :=
  (r.truncated = false ∧ r.chunk = text) ∨
    (r.truncated = true ∧ ∃ front tail, front <+: text.toList ∧
      tail <+: taskLogTruncationMarker.toList ∧ r.chunk = String.ofList (front ++ tail))

theorem cutOf_liveRecord (store : TaskLogStore) (stream : TaskExecutionLogStream)
    (text : String) : CutOf text (store.liveRecord stream text) := by
  unfold TaskLogStore.liveRecord truncateToByteLimit CutOf
  dsimp only
  split_ifs
  · exact Or.inl ⟨rfl, rfl⟩
  · exact Or.inr ⟨rfl, [], _, List.nil_prefix, sliceTo_isPrefix _ _, rfl⟩
  · exact Or.inr ⟨rfl, _, _, sliceTo_isPrefix _ _, List.prefix_refl _, rfl⟩

/-! ## Lines -/

theorem utf8_ofList_append (s t : List Char) :
    utf8 (String.ofList (s ++ t)) = utf8 (String.ofList s) ++ utf8 (String.ofList t) := by
  rw [utf8_eq_flatMap, utf8_eq_flatMap, utf8_eq_flatMap, String.toList_ofList,
    String.toList_ofList, String.toList_ofList, List.flatMap_append]

theorem printable_jsonChars (r : TaskLogRecord) : Printable r.jsonChars := by
  have hbool : Printable (writeBool r.truncated) := by
    cases r.truncated <;> simp [Printable, writeBool]
  simp only [TaskLogRecord.jsonChars, printable_cons, printable_append]
  exact ⟨by decide, printable_writeField _, by decide, printable_writeField _, by decide,
    printable_writeField _, by decide, printable_writeText _, by decide, hbool, by decide,
    by simp [Printable]⟩

theorem lineFeed_notMem_jsonChars (r : TaskLogRecord) :
    (10 : UInt8) ∉ utf8 (String.ofList r.jsonChars) := by
  rw [utf8_eq_flatMap, String.toList_ofList, List.mem_flatMap]
  rintro ⟨c, hc, hmem⟩
  have hge := byte_ge_of_mem_encodeChar (printable_jsonChars r c hc) hmem
  exact absurd hge (by decide)

theorem dropLast_encodeRecord (r : TaskLogRecord) :
    (encodeRecord r).dropLast = utf8 (String.ofList r.jsonChars) := by
  rw [encodeRecord, List.dropLast_concat]

theorem dropLast_encodeRecord_ne_nil (r : TaskLogRecord) : (encodeRecord r).dropLast ≠ [] := by
  rw [dropLast_encodeRecord, utf8_eq_flatMap, String.toList_ofList, TaskLogRecord.jsonChars,
    List.flatMap_cons]
  exact fun h => String.utf8EncodeChar_ne_nil (List.append_eq_nil_iff.mp h).1

/-- The last bytes of a line tell whether its record was cut. -/
def lineEnd (truncated : Bool) : List UInt8 :=
  if truncated then [116, 114, 117, 101, 125, 10] else [97, 108, 115, 101, 125, 10]

theorem lineEnd_suffix (r : TaskLogRecord) : lineEnd r.truncated <:+ encodeRecord r := by
  obtain ⟨front, hfront⟩ : ∃ front : List Char, r.jsonChars =
      front ++ (writeBool r.truncated ++ ['}']) := by
    refine ⟨'{' :: (writeField ("sequence".toList, .number r.sequence) ++
      ',' :: (writeField ("stream".toList, .text r.stream.asStr.toList) ++
        ',' :: (writeField ("chunk".toList, .text r.chunk.toList) ++
          ',' :: (writeText "truncated".toList ++ [':'])))), ?_⟩
    simp [TaskLogRecord.jsonChars]
  have hend : lineEnd r.truncated <:+
      utf8 (String.ofList (writeBool r.truncated ++ ['}'])) ++ [10] := by
    cases r.truncated <;> decide
  rw [encodeRecord, hfront, utf8_ofList_append, List.append_assoc]
  exact hend.trans (List.suffix_append _ _)

/-! ## Runs -/

structure Append where
  stream : TaskExecutionLogStream
  chunk : String
  outcome : WriteOutcome
  deriving DecidableEq, Repr

section Run

variable (redactText : String → String) (config : TaskLogStoreConfig) (appends : List Append)

def TaskLogStore.append (store : TaskLogStore) (a : Append) : TaskLogStore :=
  store.appendRecord redactText a.stream a.chunk a.outcome

/-- The store after the first `n` appends. -/
def storeAt (n : Nat) : TaskLogStore :=
  stateAt (TaskLogStore.append redactText) (TaskLogStore.open config) appends n

/-- The line a chunk is to be written as. -/
def TaskLogStore.encodedChunk (store : TaskLogStore) (a : Append) : List UInt8 :=
  encodeRecord (store.spoolRecord a.stream (redactText a.chunk))

/-- The chunk finds no space in the spool. -/
def TaskLogStore.LeavesOut (store : TaskLogStore) (a : Append) : Prop :=
  store.spoolTruncated = true ∨
    store.config.spoolBytes < store.spoolBytes + (store.encodedChunk redactText a).length

instance (store : TaskLogStore) (a : Append) : Decidable (store.LeavesOut redactText a) :=
  inferInstanceAs (Decidable (_ ∨ _))

/-- The live records an append brings: that of its chunk, and the marker when it is
written. -/
def TaskLogStore.appendedBy (store : TaskLogStore) (a : Append) : List TaskLogRecord :=
  store.liveRecord a.stream (redactText a.chunk) ::
    if store.spoolTruncated = false ∧ store.LeavesOut redactText a ∧ a.outcome = .written then
      [store.truncationMarker a.stream]
    else []

/-- All the live records that were appended so far. -/
def appendedRecords : Nat → List TaskLogRecord
  | 0 => []
  | n + 1 => appendedRecords n ++
      match appends[n]? with
      | some a => (storeAt redactText config appends n).appendedBy redactText a
      | none => []

/-- The lines of chunks, numbered from a first number on. -/
def spoolTextFrom : Nat → List Append → List UInt8
  | _, [] => []
  | first, a :: rest =>
    encodeRecord ⟨first, a.stream, redactText a.chunk, false⟩ ++ spoolTextFrom (first + 1) rest

/-- The lines of the first `k` chunks, numbered from zero on. -/
def spoolText (k : Nat) : List UInt8 := spoolTextFrom redactText 0 (appends.take k)

/-- The spool holds the first redacted chunks, and a marker exactly when a chunk was left
out for lack of space. -/
def SpoolLaw (n : Nat) : Prop :=
  ∃ k ≤ n, ∃ marker : Option TaskLogRecord,
    (∀ m ∈ marker, m.chunk = taskLogTruncationMarker ∧ m.truncated = true) ∧
    (storeAt redactText config appends n).file =
      spoolText redactText appends k ++ (marker.map encodeRecord).getD [] ∧
    (marker.isSome ↔ ∃ i, ∃ h : i < appends.length, i < n ∧
      (storeAt redactText config appends i).LeavesOut redactText appends[i]) ∧
    (storeAt redactText config appends n).file.length ≤
      config.spoolBytes + ((marker.map encodeRecord).getD []).length

/-- What is promised of the log after `n` appends. -/
structure LogLaw (n : Nat) : Prop where
  suffix : (storeAt redactText config appends n).liveBuffer.entries <:+
    appendedRecords redactText config appends n
  cut : ∀ r ∈ appendedRecords redactText config appends n,
    ∃ i, ∃ h : i < appends.length, i < n ∧ r.stream = appends[i].stream ∧
      (CutOf (redactText appends[i].chunk) r ∨ r.chunk = taskLogTruncationMarker)
  increasing : (appendedRecords redactText config appends n).Pairwise
    fun r s => r.sequence < s.sequence
  bounded : weightOf TaskLogStore.chunkBytes
    (storeAt redactText config appends n).liveBuffer.entries ≤ config.liveBufferBytes
  spool : SpoolLaw redactText config appends n

/-- All the chunks fit into the spool, and their writes succeed; only the last one may
fail, before its first byte. -/
def SpoolsEverything : Prop :=
  (spoolText redactText appends appends.length).length ≤ config.spoolBytes ∧
    ∀ i, (h : i < appends.length) → appends[i].outcome = .written ∨
      (i + 1 = appends.length ∧ appends[i].outcome = .failed 0)

end Run

/-! ## One append -/

section Step

variable {redactText : String → String} {store : TaskLogStore} {a : Append}

theorem append_truncated (h : store.spoolTruncated = true) :
    store.append redactText a =
      store.pushLiveRecord (store.liveRecord a.stream (redactText a.chunk)) := by
  unfold TaskLogStore.append TaskLogStore.appendRecord
  exact if_pos h

theorem append_written (htruncated : store.spoolTruncated = false)
    (hfits : ¬store.LeavesOut redactText a) (houtcome : a.outcome = .written) :
    store.append redactText a =
      { store.pushLiveRecord (store.liveRecord a.stream (redactText a.chunk)) with
        file := store.file ++ store.encodedChunk redactText a
        spoolBytes := store.spoolBytes + (store.encodedChunk redactText a).length
        nextSequence := store.nextSequence + 1 } := by
  have hspace := fun h => hfits (Or.inr h)
  unfold TaskLogStore.append TaskLogStore.appendRecord
  dsimp only
  rw [if_neg (by rw [TaskLogStore.pushLiveRecord, htruncated]; decide)]
  refine (if_neg hspace).trans ?_
  rw [houtcome]
  rfl

theorem append_failed {count : Nat} (htruncated : store.spoolTruncated = false)
    (hfits : ¬store.LeavesOut redactText a) (houtcome : a.outcome = .failed count) :
    store.append redactText a =
      { store.pushLiveRecord (store.liveRecord a.stream (redactText a.chunk)) with
        file := store.file ++ (store.encodedChunk redactText a).dropLast.take count } := by
  have hspace := fun h => hfits (Or.inr h)
  unfold TaskLogStore.append TaskLogStore.appendRecord
  dsimp only
  rw [if_neg (by rw [TaskLogStore.pushLiveRecord, htruncated]; decide)]
  refine (if_neg hspace).trans ?_
  rw [houtcome]
  rfl

theorem append_full (htruncated : store.spoolTruncated = false)
    (hfull : store.LeavesOut redactText a) :
    store.append redactText a =
      (store.pushLiveRecord (store.liveRecord a.stream (redactText a.chunk))).writeTruncationMarker
        a.stream a.outcome := by
  have hspace := hfull.resolve_left (by rw [htruncated]; decide)
  unfold TaskLogStore.append TaskLogStore.appendRecord
  dsimp only
  rw [if_neg (by rw [TaskLogStore.pushLiveRecord, htruncated]; decide)]
  exact if_pos hspace

end Step

/-! ## What holds of every run -/

section Run

variable {redactText : String → String} {config : TaskLogStoreConfig} {appends : List Append}

theorem storeAt_succ {n : Nat} (h : n < appends.length) :
    storeAt redactText config appends (n + 1) =
      (storeAt redactText config appends n).append redactText appends[n] := stateAt_succ h

theorem appendedRecords_succ {n : Nat} (h : n < appends.length) :
    appendedRecords redactText config appends (n + 1) =
      appendedRecords redactText config appends n ++
        (storeAt redactText config appends n).appendedBy redactText appends[n] := by
  rw [appendedRecords, List.getElem?_eq_getElem h]

/-- The records in memory are the end of a history. -/
def TaskLogStore.Keeps (store : TaskLogStore) (history : List TaskLogRecord) : Prop :=
  store.liveBuffer.Holds TaskLogStore.chunkBytes store.config.liveBufferBytes history

theorem TaskLogStore.Keeps.push {store : TaskLogStore} {history : List TaskLogRecord}
    (h : store.Keeps history) (r : TaskLogRecord) :
    (store.pushLiveRecord r).Keeps (history ++ [r]) := Buffer.Holds.push h r

variable (redactText) in
/-- One append puts its records behind the history. -/
theorem TaskLogStore.Keeps.append {store : TaskLogStore} {history : List TaskLogRecord}
    (h : store.Keeps history) (a : Append) :
    (store.append redactText a).Keeps (history ++ store.appendedBy redactText a) ∧
      (store.append redactText a).config = store.config := by
  have hpush := h.push (store.liveRecord a.stream (redactText a.chunk))
  by_cases htruncated : store.spoolTruncated = true
  · have hnone : store.appendedBy redactText a =
        [store.liveRecord a.stream (redactText a.chunk)] := by
      rw [TaskLogStore.appendedBy, if_neg (fun h => by rw [h.1] at htruncated; cases htruncated)]
    rw [append_truncated htruncated, hnone]
    exact ⟨hpush, rfl⟩
  · rw [Bool.not_eq_true] at htruncated
    by_cases hfull : store.LeavesOut redactText a
    · cases houtcome : a.outcome with
      | written =>
        have hboth : store.appendedBy redactText a =
            [store.liveRecord a.stream (redactText a.chunk)] ++
              [store.truncationMarker a.stream] := by
          rw [TaskLogStore.appendedBy, if_pos ⟨htruncated, hfull, houtcome⟩]
          rfl
        rw [append_full htruncated hfull, hboth, houtcome, ← List.append_assoc]
        exact ⟨hpush.push (store.truncationMarker a.stream), rfl⟩
      | failed count =>
        have hnone : store.appendedBy redactText a =
            [store.liveRecord a.stream (redactText a.chunk)] := by
          rw [TaskLogStore.appendedBy, if_neg (fun h => by rw [houtcome] at h; cases h.2.2)]
        rw [append_full htruncated hfull, hnone, houtcome]
        exact ⟨hpush, rfl⟩
    · have hnone : store.appendedBy redactText a =
          [store.liveRecord a.stream (redactText a.chunk)] := by
        rw [TaskLogStore.appendedBy, if_neg (fun h => hfull h.2.1)]
      rw [hnone]
      cases houtcome : a.outcome with
      | written =>
        rw [append_written htruncated hfull houtcome]
        exact ⟨hpush, rfl⟩
      | failed count =>
        rw [append_failed htruncated hfull houtcome]
        exact ⟨hpush, rfl⟩

variable (redactText config) in
theorem keeps_storeAt {n : Nat} (hn : n ≤ appends.length) :
    (storeAt redactText config appends n).Keeps (appendedRecords redactText config appends n) ∧
      (storeAt redactText config appends n).config = config := by
  induction n with
  | zero => exact ⟨Buffer.holds_empty, rfl⟩
  | succ n ih =>
    have hprev := ih (by omega)
    have hstep := TaskLogStore.Keeps.append redactText hprev.1 appends[n]
    rw [storeAt_succ hn, appendedRecords_succ hn, hstep.2]
    exact ⟨hstep.1, hprev.2⟩

theorem cut_of_mem_appendedBy {store : TaskLogStore} {a : Append} {r : TaskLogRecord}
    (hr : r ∈ store.appendedBy redactText a) : r.stream = a.stream ∧
      (CutOf (redactText a.chunk) r ∨ r.chunk = taskLogTruncationMarker) := by
  unfold TaskLogStore.appendedBy at hr
  rw [List.mem_cons] at hr
  cases hr with
  | inl hlive =>
    rw [hlive]
    exact ⟨rfl, Or.inl (cutOf_liveRecord store a.stream _)⟩
  | inr hmarker =>
    split_ifs at hmarker
    · rw [List.mem_singleton] at hmarker
      rw [hmarker]
      exact ⟨rfl, Or.inr rfl⟩
    · exact absurd hmarker List.not_mem_nil

theorem cut_appendedRecords {n : Nat} (hn : n ≤ appends.length) :
    ∀ r ∈ appendedRecords redactText config appends n,
      ∃ i, ∃ h : i < appends.length, i < n ∧ r.stream = appends[i].stream ∧
        (CutOf (redactText appends[i].chunk) r ∨ r.chunk = taskLogTruncationMarker) := by
  induction n with
  | zero => exact fun r hr => absurd hr List.not_mem_nil
  | succ n ih =>
    intro r hr
    rw [appendedRecords_succ hn, List.mem_append] at hr
    cases hr with
    | inl hold =>
      obtain ⟨i, hi, hin, hcut⟩ := ih (by omega) r hold
      exact ⟨i, hi, by omega, hcut⟩
    | inr hnew => exact ⟨n, hn, by omega, cut_of_mem_appendedBy hnew⟩

/-! ## As long as every chunk is spooled -/

theorem spoolTextFrom_concat (first : Nat) (front : List Append) (a : Append) :
    spoolTextFrom redactText first (front ++ [a]) = spoolTextFrom redactText first front ++
      encodeRecord ⟨first + front.length, a.stream, redactText a.chunk, false⟩ := by
  induction front generalizing first with
  | nil => exact List.append_nil _
  | cons b front ih =>
    rw [List.cons_append, spoolTextFrom, ih, spoolTextFrom, List.append_assoc,
      List.length_cons, Nat.add_assoc first 1, Nat.add_comm 1]

theorem spoolText_succ {k : Nat} (hk : k < appends.length) :
    spoolText redactText appends (k + 1) = spoolText redactText appends k ++
      encodeRecord ⟨k, appends[k].stream, redactText appends[k].chunk, false⟩ := by
  have htake : appends.take (k + 1) = appends.take k ++ [appends[k]] :=
    List.take_succ_eq_append_getElem hk
  have hlength : (appends.take k).length = k := List.length_take_of_le (by omega)
  rw [spoolText, htake, spoolTextFrom_concat, hlength, Nat.zero_add]
  rfl

variable (redactText) in
theorem length_spoolText_mono {m n : Nat} (hmn : m ≤ n) (hn : n ≤ appends.length) :
    (spoolText redactText appends m).length ≤ (spoolText redactText appends n).length := by
  induction hmn with
  | refl => exact Nat.le_refl _
  | @step n hmn ih =>
    have hprev := ih (by omega)
    rw [spoolText_succ hn, List.length_append]
    omega

variable (redactText config appends) in
/-- Every chunk so far stands in the spool under its number. -/
structure SpooledAll (n : Nat) : Prop where
  file : (storeAt redactText config appends n).file = spoolText redactText appends n
  spoolBytes : (storeAt redactText config appends n).spoolBytes =
    (spoolText redactText appends n).length
  next : (storeAt redactText config appends n).nextSequence = n
  truncated : (storeAt redactText config appends n).spoolTruncated = false
  numbers : (appendedRecords redactText config appends n).map (·.sequence) = List.range n

theorem spooledAll_zero : SpooledAll redactText config appends 0 := ⟨rfl, rfl, rfl, rfl, rfl⟩

namespace SpooledAll

variable {n : Nat}

theorem encodedChunk (h : SpooledAll redactText config appends n) (hn : n < appends.length) :
    (storeAt redactText config appends n).encodedChunk redactText appends[n] =
      encodeRecord ⟨n, appends[n].stream, redactText appends[n].chunk, false⟩ := by
  rw [TaskLogStore.encodedChunk, TaskLogStore.spoolRecord, h.next]

/-- The next chunk is left out exactly when the whole text with it is too long. -/
theorem leavesOut_iff (h : SpooledAll redactText config appends n) (hn : n < appends.length) :
    (storeAt redactText config appends n).LeavesOut redactText appends[n] ↔
      config.spoolBytes < (spoolText redactText appends (n + 1)).length := by
  have hconfig := (keeps_storeAt redactText config hn.le).2
  rw [TaskLogStore.LeavesOut, h.truncated, h.spoolBytes, h.encodedChunk hn, hconfig,
    spoolText_succ hn, List.length_append]
  simp

theorem numbers_succ (h : SpooledAll redactText config appends n) (hn : n < appends.length)
    (hfits : ¬(storeAt redactText config appends n).LeavesOut redactText appends[n]) :
    (appendedRecords redactText config appends (n + 1)).map (·.sequence) = List.range (n + 1) := by
  rw [appendedRecords_succ hn, List.map_append, h.numbers, TaskLogStore.appendedBy,
    if_neg (fun hall => hfits hall.2.1), List.range_succ]
  show _ ++ [(storeAt redactText config appends n).nextSequence] = _
  rw [h.next]

theorem succ (h : SpooledAll redactText config appends n) (hn : n < appends.length)
    (hfits : ¬(storeAt redactText config appends n).LeavesOut redactText appends[n])
    (houtcome : appends[n].outcome = .written) : SpooledAll redactText config appends (n + 1) := by
  have hstep := (storeAt_succ hn).trans (append_written h.truncated hfits houtcome)
  refine ⟨?_, ?_, ?_, ?_, h.numbers_succ hn hfits⟩
  · rw [hstep, spoolText_succ hn, ← h.file, ← h.encodedChunk hn]
  · rw [hstep, spoolText_succ hn, List.length_append, ← h.spoolBytes, ← h.encodedChunk hn]
  · rw [hstep]
    exact congrArg (· + 1) h.next
  · rw [hstep]
    exact h.truncated

/-- An append that fails before its first byte only leaves its record in memory. -/
theorem failed_zero (h : SpooledAll redactText config appends n) (hn : n < appends.length)
    (hfits : ¬(storeAt redactText config appends n).LeavesOut redactText appends[n])
    (houtcome : appends[n].outcome = .failed 0) :
    (storeAt redactText config appends (n + 1)).file = spoolText redactText appends n := by
  rw [storeAt_succ hn, append_failed h.truncated hfits houtcome, ← h.file]
  exact List.append_nil _

end SpooledAll

theorem pairwise_of_numbers {n : Nat}
    (h : (appendedRecords redactText config appends n).map (·.sequence) = List.range n) :
    (appendedRecords redactText config appends n).Pairwise
      fun r s => r.sequence < s.sequence := by
  rw [← List.pairwise_map (f := fun r : TaskLogRecord => r.sequence) (R := (· < ·)), h]
  exact List.pairwise_lt_range

theorem logLaw_of_spooled {n k : Nat} (hn : n ≤ appends.length) (hk : k ≤ n)
    (hnumbers : (appendedRecords redactText config appends n).map (·.sequence) = List.range n)
    (hfile : (storeAt redactText config appends n).file = spoolText redactText appends k)
    (hspace : (spoolText redactText appends appends.length).length ≤ config.spoolBytes)
    (hfits : ∀ i, (h : i < appends.length) → i < n →
      ¬(storeAt redactText config appends i).LeavesOut redactText appends[i]) :
    LogLaw redactText config appends n := by
  have hkeeps := keeps_storeAt redactText config hn
  have hlength := length_spoolText_mono redactText (hk.trans hn) le_rfl
  refine ⟨hkeeps.1.suffix, cut_appendedRecords hn, pairwise_of_numbers hnumbers, ?_,
    k, hk, none, ?_, ?_, ?_, ?_⟩
  · have hbounded := hkeeps.1.bounded
    rwa [hkeeps.2] at hbounded
  · exact fun m hm => absurd hm (Option.not_mem_none m)
  · rw [hfile]
    exact (List.append_nil _).symm
  · constructor
    · exact fun h => absurd h (by decide)
    · rintro ⟨i, hi, hin, hout⟩
      exact absurd hout (hfits i hi hin)
  · rw [hfile]
    exact (hlength.trans hspace).trans (Nat.le_add_right _ _)

/-! ## What a chunk that is not spooled breaks -/

variable (redactText) in
theorem lineEnd_of_spoolText {k : Nat} (hk : k ≤ appends.length) :
    spoolText redactText appends k = [] ∨ lineEnd false <:+ spoolText redactText appends k := by
  cases k with
  | zero => exact Or.inl rfl
  | succ k =>
    right
    have hline := lineEnd_suffix ⟨k, appends[k].stream, redactText appends[k].chunk, false⟩
    rw [spoolText_succ hk]
    exact hline.trans (List.suffix_append _ _)

/-- A spool that keeps its promise is empty or ends with a line feed. -/
theorem SpoolLaw.whole {n : Nat} (h : SpoolLaw redactText config appends n)
    (hn : n ≤ appends.length) {last : UInt8}
    (hlast : (storeAt redactText config appends n).file.getLast? = some last) : last = 10 := by
  obtain ⟨k, hk, marker, -, hfile, -, -⟩ := h
  rw [hfile] at hlast
  cases marker with
  | none =>
    cases lineEnd_of_spoolText redactText (hk.trans hn) with
    | inl hnil =>
      rw [hnil] at hlast
      cases hlast
    | inr hend =>
      obtain ⟨front, hfront⟩ := hend
      rw [← hfront] at hlast
      simp only [lineEnd, Option.map_none, Option.getD_none, List.append_nil] at hlast
      simpa using hlast.symm
  | some m =>
    simp only [Option.map_some, Option.getD_some, encodeRecord] at hlast
    rw [← List.append_assoc, List.getLast?_concat] at hlast
    exact (Option.some.inj hlast).symm

theorem getLast?_torn (front : List UInt8) (r : TaskLogRecord) (count : Nat) :
    ∃ last, last ≠ 10 ∧
      (front ++ (encodeRecord r).dropLast.take (count + 1)).getLast? = some last := by
  have hne : (encodeRecord r).dropLast.take (count + 1) ≠ [] := by
    rw [Ne, List.take_eq_nil_iff]
    exact fun h => h.elim (fun h => by cases h) (dropLast_encodeRecord_ne_nil r)
  refine ⟨((encodeRecord r).dropLast.take (count + 1)).getLast hne, ?_, ?_⟩
  · intro hlast
    apply lineFeed_notMem_jsonChars r
    rw [← dropLast_encodeRecord, ← hlast]
    exact List.mem_of_mem_take (List.getLast_mem hne)
  · rw [List.getLast?_append, List.getLast?_eq_some_getLast hne]
    rfl

/-- A write that ends within its line breaks the spool. -/
theorem not_spoolLaw_of_torn {n count : Nat} (hn : n ≤ appends.length) {front : List UInt8}
    {r : TaskLogRecord} (hfile : (storeAt redactText config appends n).file =
      front ++ (encodeRecord r).dropLast.take (count + 1)) :
    ¬SpoolLaw redactText config appends n := by
  intro h
  obtain ⟨last, hne, hlast⟩ := getLast?_torn front r count
  rw [← hfile] at hlast
  exact hne (h.whole hn hlast)

namespace SpooledAll

variable {n : Nat}

/-- A chunk that finds no space has the number of the marker behind it, or is left out
without a marker. -/
theorem not_law_of_full (h : SpooledAll redactText config appends n) (hn : n < appends.length)
    (hfull : (storeAt redactText config appends n).LeavesOut redactText appends[n]) :
    ¬LogLaw redactText config appends (n + 1) := by
  intro hlaw
  cases houtcome : appends[n].outcome with
  | written =>
    have hincreasing := hlaw.increasing
    rw [appendedRecords_succ hn, TaskLogStore.appendedBy,
      if_pos ⟨h.truncated, hfull, houtcome⟩] at hincreasing
    have hpair := (List.pairwise_append.mp hincreasing).2.1
    exact absurd (List.rel_of_pairwise_cons hpair (List.mem_singleton_self _))
      (Nat.lt_irrefl (storeAt redactText config appends n).nextSequence)
  | failed count =>
    have hfile : (storeAt redactText config appends (n + 1)).file =
        spoolText redactText appends n ++ (encodeRecord
          ((storeAt redactText config appends n).truncationMarker
            appends[n].stream)).dropLast.take count := by
      rw [storeAt_succ hn, append_full h.truncated hfull, houtcome, ← h.file]
      rfl
    cases count with
    | succ count => exact not_spoolLaw_of_torn hn hfile hlaw.spool
    | zero =>
      rw [List.take_zero, List.append_nil] at hfile
      obtain ⟨k, -, marker, hmarker, hwhole, hpresent, -⟩ := hlaw.spool
      obtain ⟨m, hm⟩ := Option.isSome_iff_exists.mp
        (hpresent.mpr ⟨n, hn, Nat.lt_succ_self n, hfull⟩)
      have hcut := lineEnd_suffix m
      rw [(hmarker m hm).2] at hcut
      have hend : lineEnd true <:+ spoolText redactText appends n := by
        rw [← hfile, hwhole, hm]
        exact hcut.trans (List.suffix_append _ _)
      cases lineEnd_of_spoolText redactText hn.le with
      | inl hnil =>
        rw [hnil, List.suffix_nil] at hend
        cases hend
      | inr hline =>
        have heq := List.IsSuffix.eq_of_length
          (List.suffix_of_suffix_length_le hend hline (by decide)) rfl
        cases heq

/-- A chunk whose write fails leaves its number to the next one. -/
theorem not_law_of_failed (h : SpooledAll redactText config appends n) {count : Nat}
    (hn : n + 1 < appends.length)
    (hfits : ¬(storeAt redactText config appends n).LeavesOut redactText appends[n])
    (houtcome : appends[n].outcome = .failed count) :
    ¬LogLaw redactText config appends (n + 2) := by
  intro hlaw
  have hnext : (storeAt redactText config appends (n + 1)).nextSequence = n := by
    rw [storeAt_succ (by omega), append_failed h.truncated hfits houtcome]
    exact h.next
  have hincreasing := hlaw.increasing
  rw [appendedRecords_succ hn, List.pairwise_append] at hincreasing
  have hold : (storeAt redactText config appends n).liveRecord appends[n].stream
      (redactText appends[n].chunk) ∈ appendedRecords redactText config appends (n + 1) := by
    rw [appendedRecords_succ (by omega)]
    exact List.mem_append_right _ List.mem_cons_self
  have hlt := hincreasing.2.2 _ hold _ List.mem_cons_self
  have hsame : n < n := by
    calc
      n = (storeAt redactText config appends n).nextSequence := h.next.symm
      _ < (storeAt redactText config appends (n + 1)).nextSequence := hlt
      _ = n := hnext
  exact Nat.lt_irrefl n hsame

end SpooledAll

theorem spooledAll_of_law
    (hlaw : ∀ n ≤ appends.length, LogLaw redactText config appends n) {n : Nat}
    (hn : n < appends.length) : SpooledAll redactText config appends n := by
  induction n with
  | zero => exact spooledAll_zero
  | succ n ih =>
    have hprev := ih (by omega)
    have hfits : ¬(storeAt redactText config appends n).LeavesOut redactText appends[n] :=
      fun hfull => hprev.not_law_of_full (by omega) hfull (hlaw (n + 1) hn.le)
    cases houtcome : appends[n].outcome with
    | written => exact hprev.succ (by omega) hfits houtcome
    | failed count =>
      exact absurd (hlaw (n + 2) hn) (hprev.not_law_of_failed hn hfits houtcome)

theorem spooledAll_of_spoolsEverything (h : SpoolsEverything redactText config appends)
    {n : Nat} (hn : n < appends.length) : SpooledAll redactText config appends n := by
  induction n with
  | zero => exact spooledAll_zero
  | succ n ih =>
    have hprev := ih (by omega)
    have hfits : ¬(storeAt redactText config appends n).LeavesOut redactText appends[n] := by
      rw [hprev.leavesOut_iff (by omega), Nat.not_lt]
      exact (length_spoolText_mono redactText hn.le le_rfl).trans h.1
    have houtcome := (h.2 n (by omega)).resolve_right (fun hlast => by omega)
    exact hprev.succ (by omega) hfits houtcome

end Run

/-- The log keeps its promise after every append exactly when every chunk is spooled:
all of them fit, and no write fails but possibly the last one, with nothing written. -/
theorem logLaw_iff (redactText : String → String) (config : TaskLogStoreConfig)
    (appends : List Append) :
    (∀ n ≤ appends.length, LogLaw redactText config appends n) ↔
      SpoolsEverything redactText config appends := by
  constructor
  · intro hlaw
    have hfits : ∀ i, (hi : i < appends.length) →
        ¬(storeAt redactText config appends i).LeavesOut redactText appends[i] :=
      fun i hi hfull => (spooledAll_of_law hlaw hi).not_law_of_full hi hfull (hlaw (i + 1) hi)
    constructor
    · cases hlength : appends.length with
      | zero =>
        have hnil : appends = [] := List.length_eq_zero_iff.mp hlength
        subst hnil
        exact Nat.zero_le _
      | succ n =>
        have hn : n < appends.length := by omega
        have hlast := hfits n hn
        rw [(spooledAll_of_law hlaw hn).leavesOut_iff hn] at hlast
        exact Nat.le_of_not_lt hlast
    · intro i hi
      have hspooled := spooledAll_of_law hlaw hi
      cases houtcome : appends[i].outcome with
      | written => exact Or.inl rfl
      | failed count =>
        right
        have hlast : i + 1 = appends.length := by
          by_contra hne
          exact hspooled.not_law_of_failed (by omega) (hfits i hi) houtcome
            (hlaw (i + 2) (by omega))
        refine ⟨hlast, ?_⟩
        cases count with
        | zero => rfl
        | succ count =>
          have hfile : (storeAt redactText config appends (i + 1)).file =
              (storeAt redactText config appends i).file ++
                ((storeAt redactText config appends i).encodedChunk redactText
                  appends[i]).dropLast.take (count + 1) := by
            rw [storeAt_succ hi, append_failed hspooled.truncated (hfits i hi) houtcome]
          exact absurd (hlaw (i + 1) hi).spool (not_spoolLaw_of_torn hi hfile)
  · intro h n hn
    have hfits : ∀ i, (hi : i < appends.length) → i < n →
        ¬(storeAt redactText config appends i).LeavesOut redactText appends[i] := by
      intro i hi _
      rw [(spooledAll_of_spoolsEverything h hi).leavesOut_iff hi, Nat.not_lt]
      exact (length_spoolText_mono redactText hi le_rfl).trans h.1
    cases n with
    | zero => exact logLaw_of_spooled hn le_rfl rfl rfl h.1 hfits
    | succ n =>
      have hprev := spooledAll_of_spoolsEverything h hn
      have hfit := hfits n hn (by omega)
      cases h.2 n hn with
      | inl houtcome =>
        have hnow := hprev.succ hn hfit houtcome
        exact logLaw_of_spooled hn le_rfl hnow.numbers hnow.file h.1 hfits
      | inr hlast =>
        exact logLaw_of_spooled hn (Nat.le_succ n) (hprev.numbers_succ hn hfit)
          (hprev.failed_zero hn hfit hlast.2) h.1 hfits

def demoAppends : List Append :=
  [⟨.stdout, "first", .written⟩, ⟨.stdout, "second", .written⟩]

/-- The second chunk finds no space: its live record and the marker have one number. -/
theorem full_spool_repeats_a_number :
    ¬∀ n ≤ demoAppends.length, LogLaw id ⟨1000, 80⟩ demoAppends n := by
  intro hlaw
  have hlast := hlaw 2 le_rfl
  have hlive := hlast.increasing.sublist hlast.suffix.sublist
  have hnumbers : ((storeAt id ⟨1000, 80⟩ demoAppends 2).liveBuffer.entries.map
      (·.sequence)) = [0, 1, 1] := by
    decide
  rw [← List.pairwise_map (f := fun r : TaskLogRecord => r.sequence) (R := (· < ·)),
    hnumbers] at hlive
  exact absurd hlive (by decide)

end DevRelay.Tasks
