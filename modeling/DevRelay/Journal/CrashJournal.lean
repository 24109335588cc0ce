import DevRelay.Core.Error
import DevRelay.Lib.FlatJson
import DevRelay.Lib.Machine
import Mathlib.Data.List.Dedup
import Mathlib.Data.List.Sort
import Mathlib.Data.String.Basic

/-!
# Journal records

The records of `crash_journal.rs` and the line of text each of them is written
as.  Reading a line is the JSON library's; `RecordReader` is what the journal
relies on there.
-/

namespace DevRelay.Journal

open DevRelay.Lib

inductive CrashJournalPhase where
  | snapshotCreationStart
  | snapshotCreationComplete
  | publishStart
  | publishComplete
  | targetApplyStart
  | targetBackupComplete
  | baseApplied
  | workApplied
  | indexApplied
  | verified
  | leaseCommitted
  deriving DecidableEq, Repr

namespace CrashJournalPhase

def asStr : CrashJournalPhase → String
  | snapshotCreationStart => "snapshot-creation-start"
  | snapshotCreationComplete => "snapshot-creation-complete"
  | publishStart => "publish-start"
  | publishComplete => "publish-complete"
  | targetApplyStart => "target-apply-start"
  | targetBackupComplete => "target-backup-complete"
  | baseApplied => "base-applied"
  | workApplied => "work-applied"
  | indexApplied => "index-applied"
  | verified => "verified"
  | leaseCommitted => "lease-committed"

def isTerminal : CrashJournalPhase → Bool
  | snapshotCreationComplete => true
  | publishComplete => true
  | verified => true
  | leaseCommitted => true
  | _ => false

def all : List CrashJournalPhase := [snapshotCreationStart, snapshotCreationComplete,
  publishStart, publishComplete, targetApplyStart, targetBackupComplete, baseApplied,
  workApplied, indexApplied, verified, leaseCommitted]

/-- The name of a phase in a record, read back. -/
def parse? (name : List Char) : Option CrashJournalPhase :=
  all.find? fun phase => phase.asStr.toList = name

theorem parse?_asStr (phase : CrashJournalPhase) : parse? phase.asStr.toList = some phase := by
  cases phase <;> decide

end CrashJournalPhase

structure CrashJournalRecord where
  sequenceNumber : UInt64
  operationId : String
  projectId : Option String
  workspaceId : Option String
  snapshotId : Option String
  leaseId : Option String
  phase : CrashJournalPhase
  detailJson : String
  createdAtUnixSeconds : UInt64
  deriving DecidableEq

/-! ## The text of a record -/

def stringField (name value : String) : JsonField := (name.toList, .text value.toList)

def optionField (name : String) : Option String → JsonField
  | some value => stringField name value
  | none => (name.toList, .null)

def numberField (name : String) (value : UInt64) : JsonField :=
  (name.toList, .number value.toNat)

namespace CrashJournalRecord

/-- The fields behind the first one, in the order of the struct. -/
def laterFields (r : CrashJournalRecord) : List JsonField := [
  stringField "operation_id" r.operationId,
  optionField "project_id" r.projectId,
  optionField "workspace_id" r.workspaceId,
  optionField "snapshot_id" r.snapshotId,
  optionField "lease_id" r.leaseId,
  stringField "phase" r.phase.asStr,
  stringField "detail_json" r.detailJson,
  numberField "created_at_unix_seconds" r.createdAtUnixSeconds]

def jsonChars (r : CrashJournalRecord) : List Char :=
  writeObject (numberField "sequence_number" r.sequenceNumber) r.laterFields

/-- `serde_json::to_string` of a record. -/
def toJson (r : CrashJournalRecord) : String := String.ofList r.jsonChars

@[simp] theorem toList_toJson (r : CrashJournalRecord) : r.toJson.toList = r.jsonChars :=
  String.toList_ofList

theorem jsonChars_ne_nil (r : CrashJournalRecord) : r.jsonChars ≠ [] :=
  List.cons_ne_nil _ _

end CrashJournalRecord

/-! ## Reading a record -/

/-- The blanks that JSON allows around a value. -/
def isJsonSpace (c : Char) : Bool := c = ' ' || c = '\n' || c = '\r' || c = '\t'

/-- `serde_json::from_str`, on the texts that a journal can contain. -/
structure RecordReader where
  fromStr : String → Except String CrashJournalRecord
  reads : ∀ r, fromStr r.toJson = .ok r
  /-- "EOF while parsing an object" -/
  truncated : ∀ (r : CrashJournalRecord) (t : String), t.toList <+: r.jsonChars →
    t.toList ≠ r.jsonChars → ∃ e, fromStr t = .error e
  /-- "trailing characters" -/
  trailing : ∀ (r : CrashJournalRecord) (t : String) (c : Char) (rest : List Char),
    isJsonSpace c = false → t.toList = r.jsonChars ++ c :: rest → ∃ e, fromStr t = .error e

/-! ## A reader for compact texts

It reads the texts that `toJson` writes and refuses all others, which shows that
the laws of a reader can be met. -/

def readOption : JsonScalar → Option (Option String)
  | .null => some none
  | .text s => some (some (String.ofList s))
  | .number _ => none

def recordOfFields : List JsonField → Option CrashJournalRecord
  | [(_, .number sequenceNumber), (_, .text operationId), (_, projectId), (_, workspaceId),
      (_, snapshotId), (_, leaseId), (_, .text phase), (_, .text detailJson),
      (_, .number createdAt)] => do
      some {
        sequenceNumber := UInt64.ofNat sequenceNumber
        operationId := String.ofList operationId
        projectId := ← readOption projectId
        workspaceId := ← readOption workspaceId
        snapshotId := ← readOption snapshotId
        leaseId := ← readOption leaseId
        phase := ← CrashJournalPhase.parse? phase
        detailJson := String.ofList detailJson
        createdAtUnixSeconds := UInt64.ofNat createdAt }
  | _ => none

theorem readOption_optionField (name : String) (value : Option String) :
    readOption (optionField name value).2 = some value := by
  cases value with
  | none => rfl
  | some s => simp [optionField, stringField, readOption]

theorem recordOfFields_fields (r : CrashJournalRecord) :
    recordOfFields (numberField "sequence_number" r.sequenceNumber :: r.laterFields) = some r := by
  simp [CrashJournalRecord.laterFields, recordOfFields, numberField, stringField,
    readOption_optionField, CrashJournalPhase.parse?_asStr]

def readCompact (text : String) : Except String CrashJournalRecord :=
  match readObject text.toList with
  | some (fields, []) =>
    match recordOfFields fields with
    | some r => if r.jsonChars = text.toList then .ok r else .error "not compact"
    | none => .error "invalid type"
  | some (_, _ :: _) => .error "trailing characters"
  | none => .error "EOF while parsing an object"

theorem readObject_jsonChars (r : CrashJournalRecord) (rest : List Char) :
    readObject (r.jsonChars ++ rest) =
      some (numberField "sequence_number" r.sequenceNumber :: r.laterFields, rest) :=
  readObject_write _ _ rest

/-- What is read is the text of the record. -/
theorem jsonChars_of_readCompact {text : String} {r : CrashJournalRecord}
    (h : readCompact text = .ok r) : text.toList = r.jsonChars := by
  unfold readCompact at h
  split at h
  · split at h
    · split at h
      · rename_i hsame
        cases h
        exact hsame.symm
      · cases h
    · cases h
  · cases h
  · cases h

/-- No text of a record continues another one. -/
theorem jsonChars_prefixFree {r s : CrashJournalRecord} {rest : List Char}
    (h : r.jsonChars ++ rest = s.jsonChars) : rest = [] := by
  have hr := readObject_jsonChars r rest
  have hs := readObject_jsonChars s []
  rw [List.append_nil] at hs
  rw [h, hs] at hr
  exact (Prod.mk.inj (Option.some.inj hr)).2.symm

theorem readCompact_error {text : String}
    (h : ∀ r : CrashJournalRecord, text.toList ≠ r.jsonChars) :
    ∃ e, readCompact text = .error e := by
  cases hread : readCompact text with
  | error e => exact ⟨e, rfl⟩
  | ok r => exact absurd (jsonChars_of_readCompact hread) (h r)

def compactReader : RecordReader where
  fromStr := readCompact
  reads r := by
    have hread := readObject_jsonChars r []
    rw [List.append_nil] at hread
    unfold readCompact
    rw [CrashJournalRecord.toList_toJson, hread]
    dsimp only
    rw [recordOfFields_fields]
    exact if_pos rfl
  truncated r t hfront hne := by
    apply readCompact_error
    intro s hs
    obtain ⟨rest, hrest⟩ := hfront
    rw [hs] at hrest hne
    have hnil := jsonChars_prefixFree hrest
    subst hnil
    rw [List.append_nil] at hrest
    exact hne hrest
  trailing r t c rest _ ht := by
    apply readCompact_error
    intro s hs
    rw [ht] at hs
    exact List.cons_ne_nil c rest (jsonChars_prefixFree hs)

end DevRelay.Journal

/-!
## The crash journal

`crash_journal.rs`: appending a record as one line, reading all lines back, the
replay by operation, and the cleanup, which writes a new file and renames it
over the old one.  A journal file is a list of bytes, so that a write can be cut
anywhere.
-/

namespace DevRelay.Journal

open DevRelay.Lib DevRelay.Core

inductive CrashJournalFaultPoint where
  | beforeAppend
  | afterRecordWrite
  deriving DecidableEq, Repr

def CrashJournalFaultPoint.asStr : CrashJournalFaultPoint → String
  | beforeAppend => "before-append"
  | afterRecordWrite => "after-record-write"

def injectFault (configured : Option CrashJournalFaultPoint)
    (fault : CrashJournalFaultPoint) : Except DevRelayError Unit :=
  if configured = some fault then
    .error (.config ("injected crash journal fault at " ++ fault.asStr))
  else
    .ok ()

/-- `CrashJournal`, and the clock at the call. -/
structure JournalEnv where
  path : String
  fault : Option CrashJournalFaultPoint
  unixNowSeconds : UInt64

structure CrashJournalRecordInput where
  operationId : String
  projectId : Option String
  workspaceId : Option String
  snapshotId : Option String
  leaseId : Option String
  phase : CrashJournalPhase
  detailJson : String
  deriving DecidableEq

structure CrashJournalOperationReplay where
  operationId : String
  records : List CrashJournalRecord
  latestPhase : Option CrashJournalPhase
  terminal : Bool
  deriving DecidableEq

/-- The bytes of the file, when it exists. -/
abbrev JournalFile := Option (List UInt8)

/-! ## Lines -/

def bytes (s : String) : List UInt8 := s.toByteArray.data.toList

def lineFeed : UInt8 := 10
def carriageReturn : UInt8 := 13

/-- A line that was ended by a line feed loses a carriage return in front of it. -/
def stripReturn (line : List UInt8) : List UInt8 :=
  if line.getLast? = some carriageReturn then line.dropLast else line

/-- `BufRead::lines`, before the bytes are decoded; `line` is what was read of the
current line. -/
def linesFrom (line : List UInt8) : List UInt8 → List (List UInt8)
  | [] => if line = [] then [] else [line]
  | b :: rest =>
    if b = lineFeed then stripReturn line :: linesFrom [] rest
    else linesFrom (line ++ [b]) rest

/-- `line.trim().is_empty()` -/
def isBlank (line : String) : Bool := line.toList.all isSpace

section

variable (reader : RecordReader)

/-- The record on a line, if it is not blank. -/
def parseLine (path : String) (lineIndex : Nat) (line : List UInt8) :
    Except DevRelayError (Option CrashJournalRecord) :=
  match String.fromUTF8? ⟨line.toArray⟩ with
  | none => .error (.io "stream did not contain valid UTF-8")
  | some text =>
    if isBlank text then .ok none
    else
      match reader.fromStr text with
      | .ok record => .ok (some record)
      | .error e => .error (.config ("invalid crash journal line " ++
          toString (lineIndex + 1) ++ " in " ++ path ++ ": " ++ e))

def parseLines (path : String) : Nat → List (List UInt8) →
    Except DevRelayError (List CrashJournalRecord)
  | _, [] => .ok []
  | lineIndex, line :: lines =>
    match parseLine reader path lineIndex line with
    | .error e => .error e
    | .ok record => (parseLines path (lineIndex + 1) lines).map (record.toList ++ ·)

/-- `sort_by_key(|record| record.sequence_number)`, which is stable. -/
def bySequenceNumber (records : List CrashJournalRecord) : List CrashJournalRecord :=
  records.insertionSort fun a b => a.sequenceNumber ≤ b.sequenceNumber

def records (path : String) (file : JournalFile) : Except DevRelayError (List CrashJournalRecord) :=
  match file with
  | none => .ok []
  | some content => (parseLines reader path 0 (linesFrom [] content)).map bySequenceNumber

/-! ## Appending -/

def nextSequenceNumber (path : String) (file : JournalFile) : Except DevRelayError UInt64 :=
  (records reader path file).map fun records =>
    match records.getLast? with
    | some record => saturatingAdd record.sequenceNumber 1
    | none => 1

def newRecord (env : JournalEnv) (input : CrashJournalRecordInput)
    (sequenceNumber : UInt64) : CrashJournalRecord where
  sequenceNumber := sequenceNumber
  operationId := input.operationId
  projectId := input.projectId
  workspaceId := input.workspaceId
  snapshotId := input.snapshotId
  leaseId := input.leaseId
  phase := input.phase
  detailJson := input.detailJson
  createdAtUnixSeconds := env.unixNowSeconds

/-- The record that an append writes. -/
def recordToAppend (env : JournalEnv) (input : CrashJournalRecordInput)
    (file : JournalFile) : Except DevRelayError CrashJournalRecord := do
  injectFault env.fault .beforeAppend
  let sequenceNumber ← nextSequenceNumber reader env.path file
  .ok (newRecord env input sequenceNumber)

/-- What is written for a record: its text and a line feed. -/
def lineOf (record : CrashJournalRecord) : List UInt8 := bytes record.toJson ++ [lineFeed]

/-- The file with some bytes behind its content. -/
def extend (file : JournalFile) (tail : List UInt8) : JournalFile :=
  some (file.getD [] ++ tail)

def appendRecord (env : JournalEnv) (input : CrashJournalRecordInput) (file : JournalFile) :
    Except DevRelayError CrashJournalRecord × JournalFile :=
  match recordToAppend reader env input file with
  | .error e => (.error e, file)
  | .ok record =>
    ((injectFault env.fault .afterRecordWrite).map fun _ => record,
      extend file (lineOf record))

/-- The file after a crash that lets through the first `cut` bytes of an append. -/
def tornAppend (env : JournalEnv) (input : CrashJournalRecordInput) (cut : Nat)
    (file : JournalFile) : JournalFile :=
  match recordToAppend reader env input file with
  | .error _ => file
  | .ok record => extend file ((lineOf record).take cut)

/-! ## Replay and cleanup -/

def replayOperation (records : List CrashJournalRecord) (operationId : String) :
    CrashJournalOperationReplay :=
  let own := bySequenceNumber (records.filter fun r => r.operationId = operationId)
  let latestPhase := own.getLast?.map CrashJournalRecord.phase
  { operationId := operationId
    records := own
    latestPhase := latestPhase
    terminal := latestPhase.any CrashJournalPhase.isTerminal }

/-- The operations in the order of a `BTreeMap`. -/
def replay (path : String) (file : JournalFile) :
    Except DevRelayError (List CrashJournalOperationReplay) :=
  (records reader path file).map fun records =>
    (((records.map CrashJournalRecord.operationId).dedup).insertionSort (· ≤ ·)).map
      (replayOperation records)

/-- The file that `rewrite_records` puts in place. -/
def rewriteRecords (records : List CrashJournalRecord) : JournalFile :=
  some (records.flatMap lineOf)

def retainedRecords (operations : List CrashJournalOperationReplay) : List CrashJournalRecord :=
  (operations.filter fun operation => !operation.terminal).flatMap
    CrashJournalOperationReplay.records

def removedCount (operations : List CrashJournalOperationReplay) : Nat :=
  ((operations.filter CrashJournalOperationReplay.terminal).map
    fun operation => operation.records.length).sum

def cleanupCompleted (path : String) (file : JournalFile) :
    Except DevRelayError Nat × JournalFile :=
  match replay reader path file with
  | .error e => (.error e, file)
  | .ok operations =>
    (.ok (removedCount operations), rewriteRecords (retainedRecords operations))

end

end DevRelay.Journal
