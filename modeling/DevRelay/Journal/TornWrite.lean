import DevRelay.Journal.Operations
import DevRelay.Lib.Run

/-!
# Crashes in the middle of an append

A run of appends and cleanups, beside it what was written, and then an append of
which only the first bytes reach the file.  A cut in front of the line or behind
it does no harm.  A cut inside the text makes the file unreadable, and a cut in
front of the line feed lets the next record be written on the same line.
-/

namespace DevRelay.Journal

open DevRelay.Lib DevRelay.Core

/-- The file, all records that were written to it, and those that no cleanup has
removed since. -/
structure JournalState where
  file : JournalFile
  history : List CrashJournalRecord
  live : List CrashJournalRecord

namespace JournalState

/-- No file yet. -/
def initial : JournalState := ⟨none, [], []⟩

def written (s : JournalState) (record : CrashJournalRecord) (file : JournalFile) : JournalState :=
  { file := file
    history := s.history ++ [record]
    live := s.live ++ [record] }

end JournalState

inductive JournalCall where
  | append (env : JournalEnv) (input : CrashJournalRecordInput)
  | cleanup (path : String)

section

variable (reader : RecordReader)

def journalStep (s : JournalState) : JournalCall → JournalState
  | .append env input =>
    let file := (appendRecord reader env input s.file).2
    match recordToAppend reader env input s.file with
    | .ok record => s.written record file
    | .error _ => { s with file }
  | .cleanup path =>
    { s with
      file := (cleanupCompleted reader path s.file).2
      live := s.live.filter fun r => !completed s.history r.operationId }

/-- The journal after a run that started without a file. -/
def journalAfter (calls : List JournalCall) : JournalState :=
  stateAt (journalStep reader) .initial calls calls.length

/-- The next append gets no further than `cut` bytes. -/
def crashed (env : JournalEnv) (input : CrashJournalRecordInput) (cut : Nat)
    (s : JournalState) : JournalState :=
  let file := tornAppend reader env input cut s.file
  match recordToAppend reader env input s.file with
  | .ok record => if (lineOf record).length ≤ cut then s.written record file else { s with file }
  | .error _ => { s with file }

/-- The records of some appends that are all to succeed. -/
def appendAll (path : String) (file : JournalFile) :
    List (UInt64 × CrashJournalRecordInput) → Except DevRelayError (List CrashJournalRecord)
  | [] => .ok []
  | (now, input) :: later =>
    match appendRecord reader ⟨path, none, now⟩ input file with
    | (.error e, _) => .error e
    | (.ok record, file) => (appendAll path file later).map (record :: ·)

/-- The journal is readable with everything in it, replay tells the operations that
are not done, and it can be continued under fresh numbers, until they run out. -/
structure Recovers (path : String) (s : JournalState) : Prop where
  recovered : ∃ rs, records reader path s.file = .ok rs ∧ ∀ r ∈ s.live, r ∈ rs
  incomplete : ∃ operations, replay reader path s.file = .ok operations ∧
    ∀ o, (∃ op ∈ operations, op.operationId = o ∧ op.terminal = false) ↔
      ∃ r, lastOf s.history o = some r ∧ r.phase.isTerminal = false
  appends : ∀ later, ∃ rs, appendAll reader path s.file later = .ok rs ∧
    (s.history.length + later.length < 2 ^ 64 →
      rs.Pairwise (fun a b => a.sequenceNumber < b.sequenceNumber) ∧
        ∀ r ∈ s.live, ∀ w ∈ rs, r.sequenceNumber < w.sequenceNumber)

/-! ## Whole lines -/

/-- The file has the records `rs` on whole lines, and they are the live ones of each
operation. -/
structure Intact (s : JournalState) (rs : List CrashJournalRecord) : Prop where
  file : s.file.getD [] = fileOf rs
  live : ∀ o, own o s.live = own o rs
  ordered : Ordered rs
  last : ∀ o, lastOf s.history o = lastOf rs o ∨
    (own o rs = [] ∧ completed s.history o = true)
  bound : s.history.length < 2 ^ 64 →
    ∀ r ∈ rs, r.sequenceNumber.toNat ≤ s.history.length

variable {reader} {s : JournalState} {rs : List CrashJournalRecord} {path : String}

theorem Intact.mem_live (h : Intact s rs) {r : CrashJournalRecord} : r ∈ s.live ↔ r ∈ rs := by
  have hown := h.live r.operationId
  have hlive : r ∈ own r.operationId s.live ↔ r ∈ s.live := by
    rw [mem_own]
    exact and_iff_left rfl
  have hfile : r ∈ own r.operationId rs ↔ r ∈ rs := by
    rw [mem_own]
    exact and_iff_left rfl
  rw [← hlive, hown, hfile]

theorem intact_initial : Intact .initial [] where
  file := rfl
  live _ := rfl
  ordered _ := List.Pairwise.nil
  last _ := Or.inl rfl
  bound _ r hr := by cases hr

theorem nextSequenceNumber_intact (h : Intact s rs) (path : String) :
    nextSequenceNumber reader path s.file = .ok (nextOf rs) := by
  rw [nextSequenceNumber, records_fileOf reader path h.file]
  rfl

theorem recordToAppend_intact (h : Intact s rs) (env : JournalEnv)
    (input : CrashJournalRecordInput) :
    recordToAppend reader env input s.file =
      (injectFault env.fault .beforeAppend).map fun _ => newRecord env input (nextOf rs) := by
  unfold recordToAppend
  rw [nextSequenceNumber_intact h]
  cases injectFault env.fault .beforeAppend with
  | error e => rfl
  | ok _ => rfl

theorem replay_intact (h : Intact s rs) (path : String) :
    replay reader path s.file =
      .ok ((operationsOf rs).map (replayOperation (bySequenceNumber rs))) := by
  rw [replay, records_fileOf reader path h.file]
  rfl

theorem getD_extend (file : JournalFile) (tail : List UInt8) :
    (extend file tail).getD [] = file.getD [] ++ tail := rfl

theorem fileOf_concat (rs : List CrashJournalRecord) (record : CrashJournalRecord) :
    fileOf (rs ++ [record]) = fileOf rs ++ lineOf record := by
  simp [fileOf]

/-! ## Steps -/

theorem completed_concat_self (rs : List CrashJournalRecord) (record : CrashJournalRecord) :
    lastOf (rs ++ [record]) record.operationId = some record := by
  rw [lastOf, own_append, own_singleton, if_pos rfl, List.getLast?_concat]

theorem lastOf_concat_other {record : CrashJournalRecord} {o : String}
    (h : record.operationId ≠ o) (rs : List CrashJournalRecord) :
    lastOf (rs ++ [record]) o = lastOf rs o := by
  rw [lastOf, own_append, own_singleton, if_neg h, List.append_nil, lastOf]

/-- A record with the next number, on a line of its own. -/
theorem Intact.append (h : Intact s rs) {record : CrashJournalRecord}
    (hnumber : record.sequenceNumber = nextOf rs) {file : JournalFile}
    (hfile : file.getD [] = s.file.getD [] ++ lineOf record) :
    Intact (s.written record file) (rs ++ [record]) where
  file := by
    change file.getD [] = _
    rw [hfile, h.file, fileOf_concat]
  live o := by
    change own o (s.live ++ [record]) = _
    rw [own_append, own_append, h.live]
  ordered o := by
    rw [own_append, List.pairwise_append]
    refine ⟨h.ordered o, ?_, ?_⟩
    · rw [own_singleton]
      split
      · exact List.pairwise_singleton _ _
      · exact List.Pairwise.nil
    · intro a ha b hb
      have hb' : b = record := List.mem_singleton.mp (mem_own.mp hb).1
      rw [hb', hnumber]
      exact le_nextOf (mem_own.mp ha).1
  last o := by
    change lastOf (s.history ++ [record]) o = _ ∨ _ ∧ completed (s.history ++ [record]) o = _
    by_cases hid : record.operationId = o
    · subst hid
      left
      rw [completed_concat_self, completed_concat_self]
    · have hown : own o (rs ++ [record]) = own o rs := by
        rw [own_append, own_singleton, if_neg hid, List.append_nil]
      unfold completed
      rw [lastOf_concat_other hid, lastOf_concat_other hid, hown]
      exact h.last o
  bound hroom r hr := by
    change (s.history ++ [record]).length < 2 ^ 64 at hroom
    change r.sequenceNumber.toNat ≤ (s.history ++ [record]).length
    rw [List.length_append, List.length_singleton] at hroom ⊢
    have hbound := h.bound (by omega)
    rcases List.mem_append.mp hr with hold | hnew
    · have hle := hbound r hold
      omega
    · rw [List.mem_singleton.mp hnew, hnumber]
      exact (nextOf_fresh (by omega) hbound).1

theorem completed_of_last (h : Intact s rs) {o : String} (hne : own o rs ≠ []) :
    completed s.history o = completed rs o := by
  rcases h.last o with hlast | ⟨hnil, -⟩
  · unfold completed
    rw [hlast]
  · exact absurd hnil hne

theorem own_filter_not_completed (history live : List CrashJournalRecord) (o : String) :
    own o (live.filter fun r => !completed history r.operationId) =
      if completed history o then [] else own o live := by
  unfold own
  rw [List.filter_filter]
  cases hcase : completed history o with
  | true =>
    rw [if_pos rfl, List.filter_eq_nil_iff]
    intro r _ hr
    simp only [Bool.and_eq_true, decide_eq_true_eq, Bool.not_eq_true'] at hr
    rw [hr.1, hcase] at hr
    exact absurd hr.2 (by decide)
  | false =>
    rw [if_neg Bool.false_ne_true]
    apply List.filter_congr
    intro r _
    by_cases hid : r.operationId = o
    · simp [hid, hcase]
    · simp [hid]

/-- A cleanup leaves the records of the operations that are not done. -/
theorem Intact.cleanup (h : Intact s rs) :
    Intact { s with
      file := rewriteRecords (retained rs)
      live := s.live.filter fun r => !completed s.history r.operationId } (retained rs) where
  file := rfl
  live o := by
    change own o (s.live.filter _) = _
    rw [own_filter_not_completed, own_retained h.ordered, h.live]
    by_cases hnil : own o rs = []
    · rw [hnil, ite_self, ite_self]
    · rw [completed_of_last h hnil]
  ordered o := by
    rw [own_retained h.ordered]
    split
    · exact List.Pairwise.nil
    · exact h.ordered o
  last o := by
    change lastOf s.history o = _ ∨ _ ∧ completed s.history o = true
    unfold lastOf
    rw [own_retained h.ordered]
    by_cases hnil : own o rs = []
    · rw [hnil, ite_self]
      rcases h.last o with hlast | hdone
      · left
        rw [lastOf, lastOf, hnil] at hlast
        exact hlast
      · exact Or.inr ⟨rfl, hdone.2⟩
    · rw [← completed_of_last h hnil]
      split
      · rename_i hdone
        exact Or.inr ⟨rfl, hdone⟩
      · rcases h.last o with hlast | hdone
        · exact Or.inl hlast
        · exact absurd hdone.1 hnil
  bound hroom r hr := by
    have hmem : r ∈ own r.operationId (retained rs) := mem_own.mpr ⟨hr, rfl⟩
    rw [own_retained h.ordered] at hmem
    split at hmem
    · cases hmem
    · exact h.bound hroom r (mem_own.mp hmem).1

theorem appendRecord_snd (env : JournalEnv) (input : CrashJournalRecordInput)
    {file : JournalFile} {record : CrashJournalRecord}
    (h : recordToAppend reader env input file = .ok record) :
    (appendRecord reader env input file).2 = extend file (lineOf record) := by
  rw [appendRecord, h]

theorem intact_step (h : Intact s rs) (call : JournalCall) :
    ∃ rs', Intact (journalStep reader s call) rs' := by
  cases call with
  | append env input =>
    have hrecord : recordToAppend reader env input s.file = _ :=
      recordToAppend_intact h env input
    cases hfault : injectFault env.fault .beforeAppend with
    | error e =>
      rw [hfault] at hrecord
      refine ⟨rs, ?_⟩
      have hstep : journalStep reader s (.append env input) = s := by
        simp only [journalStep, appendRecord]
        rw [hrecord]
        rfl
      rw [hstep]
      exact h
    | ok _ =>
      rw [hfault] at hrecord
      have hstep : journalStep reader s (.append env input) =
          s.written (newRecord env input (nextOf rs))
            (extend s.file (lineOf (newRecord env input (nextOf rs)))) := by
        simp only [journalStep]
        rw [appendRecord_snd env input hrecord, hrecord]
        rfl
      rw [hstep]
      exact ⟨_, h.append rfl (getD_extend _ _)⟩
  | cleanup path =>
    refine ⟨retained rs, ?_⟩
    have hfile : (cleanupCompleted reader path s.file).2 = rewriteRecords (retained rs) := by
      rw [cleanupCompleted, replay_intact h]
      rfl
    unfold journalStep
    dsimp only
    rw [hfile]
    exact h.cleanup

theorem intact_run (reader : RecordReader) (calls : List JournalCall) :
    ∃ rs, Intact (journalAfter reader calls) rs :=
  stateAt_invariant (I := fun s => ∃ rs, Intact s rs) ⟨[], intact_initial⟩
    (fun _ call h => intact_step h.choose_spec call) calls.length

/-! ## Whole lines recover -/

theorem appendAll_intact (h : Intact s rs) (path : String)
    (later : List (UInt64 × CrashJournalRecordInput)) :
    ∃ ws, appendAll reader path s.file later = .ok ws ∧
      (s.history.length + later.length < 2 ^ 64 →
        ws.Pairwise (fun a b => a.sequenceNumber < b.sequenceNumber) ∧
          ∀ r ∈ rs, ∀ w ∈ ws, r.sequenceNumber < w.sequenceNumber) := by
  induction later generalizing s rs with
  | nil =>
    refine ⟨[], rfl, fun _ => ⟨List.Pairwise.nil, ?_⟩⟩
    intro r _ w hw
    cases hw
  | cons input later ih =>
    obtain ⟨now, input⟩ := input
    let record := newRecord ⟨path, none, now⟩ input (nextOf rs)
    have hrecord : recordToAppend reader ⟨path, none, now⟩ input s.file = .ok record :=
      recordToAppend_intact h _ input
    have happend : appendRecord reader ⟨path, none, now⟩ input s.file =
        (.ok record, extend s.file (lineOf record)) := by
      rw [appendRecord, hrecord]
      rfl
    have hnext : Intact (s.written record (extend s.file (lineOf record)))
        (rs ++ [record]) := h.append rfl (getD_extend _ _)
    obtain ⟨ws, hws, hfresh⟩ := ih hnext
    refine ⟨record :: ws, ?_, fun hroom => ?_⟩
    · rw [appendAll, happend]
      change (appendAll reader path (extend s.file (lineOf record)) later).map _ = _
      change appendAll reader path (extend s.file (lineOf record)) later = .ok ws at hws
      rw [hws]
      rfl
    · rw [List.length_cons] at hroom
      have hlength : (s.written record (extend s.file (lineOf record))).history.length =
          s.history.length + 1 := List.length_append
      obtain ⟨hpairwise, habove⟩ := hfresh (by omega)
      have hbound := h.bound (by omega)
      have hrecordFresh := (nextOf_fresh (by omega) hbound).2
      constructor
      · rw [List.pairwise_cons]
        refine ⟨fun w hw => ?_, hpairwise⟩
        exact habove record (List.mem_append_right rs List.mem_cons_self) w hw
      · intro r hr w hw
        rcases List.mem_cons.mp hw with rfl | hw
        · exact hrecordFresh r hr
        · exact habove r (List.mem_append_left _ hr) w hw

theorem Intact.recovers (h : Intact s rs) (reader : RecordReader) (path : String) :
    Recovers reader path s where
  recovered := by
    refine ⟨_, records_fileOf reader path h.file, fun r hr => ?_⟩
    exact mem_bySequenceNumber.mpr (h.mem_live.mp hr)
  incomplete := by
    refine ⟨_, replay_intact h path, fun o => ?_⟩
    rw [mem_incomplete h.ordered]
    rcases h.last o with hlast | ⟨hnil, hdone⟩
    · rw [hlast]
    · constructor
      · rintro ⟨r, hr, -⟩
        rw [lastOf, hnil] at hr
        cases hr
      · rintro ⟨r, hr, hopen⟩
        rw [completed, hr, Option.any_some, hopen] at hdone
        cases hdone
  appends later := by
    obtain ⟨ws, hws, hfresh⟩ := appendAll_intact h path later
    refine ⟨ws, hws, fun hroom => ?_⟩
    obtain ⟨hpairwise, habove⟩ := hfresh hroom
    exact ⟨hpairwise, fun r hr => habove r (h.mem_live.mp hr)⟩

/-! ## A cut append -/

theorem crashed_eq {env : JournalEnv} {input : CrashJournalRecordInput}
    {record : CrashJournalRecord} (h : recordToAppend reader env input s.file = .ok record)
    (cut : Nat) :
    crashed reader env input cut s =
      if (lineOf record).length ≤ cut then
        s.written record (extend s.file ((lineOf record).take cut))
      else { s with file := extend s.file ((lineOf record).take cut) } := by
  rw [crashed, tornAppend, h]

/-- Nothing of the line, or all of it. -/
theorem recovers_of_whole (h : Intact s rs) {env : JournalEnv}
    {input : CrashJournalRecordInput} {record : CrashJournalRecord}
    (hrecord : recordToAppend reader env input s.file = .ok record)
    (hnumber : record.sequenceNumber = nextOf rs) {cut : Nat}
    (hcut : cut = 0 ∨ (lineOf record).length ≤ cut) :
    Recovers reader path (crashed reader env input cut s) := by
  rw [crashed_eq hrecord]
  by_cases hwhole : (lineOf record).length ≤ cut
  · rw [if_pos hwhole, List.take_of_length_le hwhole]
    exact (h.append hnumber (getD_extend _ _)).recovers reader path
  · have hzero : cut = 0 := by
      rcases hcut with h | h
      · exact h
      · exact absurd h hwhole
    rw [if_neg hwhole, hzero, List.take_zero]
    have hfile : (extend s.file []).getD [] = fileOf rs := by
      rw [getD_extend, List.append_nil, h.file]
    have hsame : Intact { s with file := extend s.file [] } rs := { h with file := hfile }
    exact hsame.recovers reader path

theorem length_lineOf (record : CrashJournalRecord) :
    (lineOf record).length = (bytes record.toJson).length + 1 := by
  rw [lineOf, List.length_append, List.length_singleton]

/-- What is left of a line that is cut in front of its line feed. -/
theorem take_lineOf (record : CrashJournalRecord) {cut : Nat}
    (hcut : cut ≤ (bytes record.toJson).length) :
    (lineOf record).take cut = (bytes record.toJson).take cut :=
  List.take_append_of_le_length hcut

theorem linesFrom_bytes {line : List UInt8} (hline : lineFeed ∉ line) (hne : line ≠ []) :
    linesFrom [] line = [line] := by
  rw [linesFrom_tail hline, List.nil_append, if_neg hne]

/-- A cut inside the text: nothing can be read any more. -/
theorem records_cut (h : Intact s rs) (record : CrashJournalRecord) {cut : Nat}
    (hpos : 0 < cut) (hcut : cut < (bytes record.toJson).length) :
    ∃ e, records reader path (extend s.file ((lineOf record).take cut)) = .error e := by
  have htail : (lineOf record).take cut = (bytes record.toJson).take cut :=
    take_lineOf record (by omega)
  have hline : lineFeed ∉ (bytes record.toJson).take cut :=
    fun hmem => lineFeed_notMem_toJson record (List.mem_of_mem_take hmem)
  have hne : (bytes record.toJson).take cut ≠ [] := by
    apply List.ne_nil_of_length_pos
    rw [List.length_take]
    omega
  have hfile : s.file.getD [] ++ (lineOf record).take cut =
      fileOf rs ++ (bytes record.toJson).take cut := by
    rw [htail, h.file]
  exact records_badLine reader path hfile (linesFrom_bytes hline hne)
    (parseLine_cut reader path record hpos hcut)

/-- A cut in front of the line feed: the record is read, and the next one is
written behind it on the same line. -/
theorem records_glued (h : Intact s rs) (record next : CrashJournalRecord) :
    ∃ e, records reader path (extend (extend s.file (bytes record.toJson)) (lineOf next)) =
      .error e := by
  have hline : lineFeed ∉ bytes record.toJson ++ bytes next.toJson := by
    intro hmem
    rcases List.mem_append.mp hmem with hfirst | hsecond
    · exact lineFeed_notMem_toJson record hfirst
    · exact lineFeed_notMem_toJson next hsecond
  have hstrip : stripReturn (bytes record.toJson ++ bytes next.toJson) =
      bytes record.toJson ++ bytes next.toJson := by
    have hlast : next.jsonChars.getLast? = some '}' := getLast?_writeObject _ _
    obtain ⟨front, hfront⟩ := List.getLast?_eq_some_iff.mp hlast
    have hbytes : bytes next.toJson = front.flatMap String.utf8EncodeChar ++ [125] := by
      rw [bytes_eq_flatMap, CrashJournalRecord.toList_toJson, hfront, List.flatMap_append]
      rfl
    rw [hbytes, ← List.append_assoc, stripReturn, List.getLast?_concat, if_neg (by decide)]
  have hlines : linesFrom [] (bytes record.toJson ++ lineOf next) =
      [bytes record.toJson ++ bytes next.toJson] := by
    rw [lineOf, ← List.append_assoc, linesFrom_line hline, List.nil_append, hstrip,
      linesFrom, if_pos rfl]
  have hfile : s.file.getD [] ++ bytes record.toJson ++ lineOf next =
      fileOf rs ++ (bytes record.toJson ++ lineOf next) := by
    rw [h.file, List.append_assoc]
  exact records_badLine reader path hfile hlines (parseLine_glued reader path record next)

theorem appendAll_unreadable {file : JournalFile}
    (h : ∃ e, records reader path file = .error e) (now : UInt64)
    (input : CrashJournalRecordInput) (later : List (UInt64 × CrashJournalRecordInput)) :
    ∃ e, appendAll reader path file ((now, input) :: later) = .error e := by
  obtain ⟨e, he⟩ := h
  refine ⟨e, ?_⟩
  have hrecord : recordToAppend reader ⟨path, none, now⟩ input file = .error e := by
    unfold recordToAppend nextSequenceNumber
    rw [he]
    rfl
  rw [appendAll, appendRecord, hrecord]

/-- After a cut in front of the line feed one append succeeds, and it is the last. -/
theorem appendAll_glued (h : Intact s rs) (record : CrashJournalRecord) (now : UInt64)
    (input : CrashJournalRecordInput) :
    ∃ e, appendAll reader path (extend s.file (bytes record.toJson))
      [(now, input), (now, input)] = .error e := by
  cases hfirst : appendRecord reader ⟨path, none, now⟩ input
      (extend s.file (bytes record.toJson)) with
  | mk reply file =>
    cases reply with
    | error e =>
      refine ⟨e, ?_⟩
      rw [appendAll, hfirst]
    | ok next =>
      have hfile : file = extend (extend s.file (bytes record.toJson)) (lineOf next) := by
        unfold appendRecord at hfirst
        split at hfirst
        · cases hfirst
        · rename_i written _
          obtain ⟨hreply, hfile⟩ := Prod.mk.inj hfirst
          have hsame : written = next := Except.ok.inj hreply
          rw [← hfile, hsame]
      obtain ⟨e, he⟩ := appendAll_unreadable
        (records_glued h record next) now input []
      refine ⟨e, ?_⟩
      rw [appendAll, hfirst]
      change (appendAll reader path file [(now, input)]).map _ = _
      rw [hfile, he]
      rfl

theorem not_recovers_of_cut (h : Intact s rs) {env : JournalEnv}
    {input : CrashJournalRecordInput} {record : CrashJournalRecord}
    (hrecord : recordToAppend reader env input s.file = .ok record) {cut : Nat}
    (hpos : 0 < cut) (hcut : cut < (lineOf record).length) :
    ¬Recovers reader path (crashed reader env input cut s) := by
  intro hrecovers
  rw [crashed_eq hrecord, if_neg (by omega)] at hrecovers
  rw [length_lineOf] at hcut
  by_cases hinside : cut < (bytes record.toJson).length
  · obtain ⟨e, he⟩ := records_cut h record hpos hinside
    obtain ⟨found, hfound, -⟩ := hrecovers.recovered
    rw [he] at hfound
    cases hfound
  · have hall : cut = (bytes record.toJson).length := by omega
    have htail : (lineOf record).take cut = bytes record.toJson := by
      rw [take_lineOf record (by omega), hall, List.take_length]
    rw [htail] at hrecovers
    obtain ⟨e, he⟩ := appendAll_glued h record 0 input
    obtain ⟨ws, hws, -⟩ := hrecovers.appends [(0, input), (0, input)]
    rw [he] at hws
    cases hws

/-! ## The journal after a crash -/

/-- Of the line that the append writes, nothing reached the file, or all of it. -/
def WholeLine (reader : RecordReader) (env : JournalEnv) (input : CrashJournalRecordInput)
    (cut : Nat) (s : JournalState) : Prop :=
  cut = 0 ∨ ∀ record, recordToAppend reader env input s.file = .ok record →
    (lineOf record).length ≤ cut

/-- After any run of appends and cleanups a crash in an append leaves a journal that
recovers, exactly if it did not cut the line. -/
theorem torn_append_recovers_iff (reader : RecordReader) (calls : List JournalCall)
    (path : String) (now : UInt64) (input : CrashJournalRecordInput) (cut : Nat) :
    Recovers reader path
        (crashed reader ⟨path, none, now⟩ input cut (journalAfter reader calls)) ↔
      WholeLine reader ⟨path, none, now⟩ input cut (journalAfter reader calls) := by
  obtain ⟨rs, h⟩ := intact_run reader calls
  have hrecord : recordToAppend reader ⟨path, none, now⟩ input (journalAfter reader calls).file =
      .ok (newRecord ⟨path, none, now⟩ input (nextOf rs)) :=
    recordToAppend_intact h _ input
  unfold WholeLine
  rw [hrecord]
  constructor
  · intro hrecovers
    by_contra hcut
    push Not at hcut
    obtain ⟨hpos, record, hsame, hshort⟩ := hcut
    cases hsame
    exact not_recovers_of_cut h hrecord (by omega) hshort hrecovers
  · intro hcut
    apply recovers_of_whole h hrecord rfl
    rcases hcut with hzero | hwhole
    · exact Or.inl hzero
    · exact Or.inr (hwhole _ rfl)

end

/-! ## A publish that is cut -/

def demoJournalEnv : JournalEnv where
  path := "crash.jsonl"
  fault := none
  unixNowSeconds := 1700000000

def demoPublish (phase : CrashJournalPhase) : CrashJournalRecordInput where
  operationId := "op-publish"
  projectId := some "project123"
  workspaceId := none
  snapshotId := some "s1_snapshot"
  leaseId := none
  phase := phase
  detailJson := "\x7b\"snapshot_id\":\"s1_snapshot\"\x7d"

/-- The start of the publish is in the journal; of its end one byte gets there, and
the journal cannot be read any more. -/
theorem cut_append_unreadable :
    ¬Recovers compactReader "crash.jsonl"
      (crashed compactReader demoJournalEnv (demoPublish .publishComplete) 1
        (journalAfter compactReader [.append demoJournalEnv (demoPublish .publishStart)])) := by
  obtain ⟨rs, h⟩ := intact_run compactReader
    [.append demoJournalEnv (demoPublish .publishStart)]
  let record := newRecord demoJournalEnv (demoPublish .publishComplete) (nextOf rs)
  have hrecord : recordToAppend compactReader demoJournalEnv (demoPublish .publishComplete)
      (journalAfter compactReader [.append demoJournalEnv (demoPublish .publishStart)]).file =
        .ok record := recordToAppend_intact h _ _
  have hpos := List.length_pos_iff.mpr (bytes_toJson_ne_nil record)
  have hlength := length_lineOf record
  exact not_recovers_of_cut h hrecord (by omega) (by omega)

end DevRelay.Journal
