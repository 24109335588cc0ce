import DevRelay.Lib.BoundedBuffer
import DevRelay.Lib.FlatJson
import DevRelay.Lib.TextBytes

/-!
# The task log store

`task_logs.rs`: the records of a task run that are held in memory, and the spool file
the redacted chunks are written to.  The redactor is a parameter.  A write of the spool
may fail, and may then have written the first bytes of its record.

Sizes in memory and on disk are natural numbers: a sum of them does not reach the bound
at which the saturating additions of the code would differ.
-/

namespace DevRelay.Tasks

open Lib

def taskLogTruncationMarker : String := "[devrelay log truncated]\n"

structure TaskLogStoreConfig where
  liveBufferBytes : Nat
  spoolBytes : Nat
  deriving DecidableEq, Repr

inductive TaskExecutionLogStream where
  | stdout
  | stderr
  deriving DecidableEq, Repr

def TaskExecutionLogStream.asStr : TaskExecutionLogStream → String
  | .stdout => "stdout"
  | .stderr => "stderr"

structure TaskLogRecord where
  sequence : Nat
  stream : TaskExecutionLogStream
  chunk : String
  truncated : Bool
  deriving DecidableEq, Repr

/-! ## Cutting a text -/

/-- The UTF-8 length of a text. -/
def utf8Length (text : List Char) : Nat := (text.map Char.utf8Size).sum

/-- `str::is_char_boundary`. -/
def isCharBoundary (text : List Char) (index : Nat) : Bool :=
  (text.inits.map utf8Length).contains index

/-- The loops that step back to a character boundary. -/
def floorCharBoundary (text : List Char) : Nat → Nat
  | 0 => 0
  | index + 1 =>
    if isCharBoundary text (index + 1) then index + 1 else floorCharBoundary text index

/-- `&text[..index]`. -/
def sliceTo : List Char → Nat → List Char
  | [], _ => []
  | c :: rest, index =>
    if c.utf8Size ≤ index then c :: sliceTo rest (index - c.utf8Size) else []

def truncateToByteLimit (value : String) (limit : Nat) : String × Bool :=
  let text := value.toList
  let marker := taskLogTruncationMarker.toList
  if utf8Length text ≤ limit then (value, false)
  else if limit ≤ utf8Length marker then
    (String.ofList (sliceTo marker (floorCharBoundary marker limit)), true)
  else
    let cut := max (limit - utf8Length marker) 1
    (String.ofList (sliceTo text (floorCharBoundary text cut) ++ marker), true)

/-! ## The line of a record -/

def writeBool (b : Bool) : List Char := (if b then "true" else "false").toList

/-- The JSON text of a record. -/
def TaskLogRecord.jsonChars (r : TaskLogRecord) : List Char :=
  '{' :: (writeField ("sequence".toList, .number r.sequence) ++
    ',' :: (writeField ("stream".toList, .text r.stream.asStr.toList) ++
      ',' :: (writeField ("chunk".toList, .text r.chunk.toList) ++
        ',' :: (writeText "truncated".toList ++ ':' :: (writeBool r.truncated ++ ['}'])))))

def encodeRecord (r : TaskLogRecord) : List UInt8 := utf8 (String.ofList r.jsonChars) ++ [10]

/-! ## The store -/

structure TaskLogStore where
  config : TaskLogStoreConfig
  /-- `live_buffer` and `live_buffer_bytes`. -/
  liveBuffer : Buffer TaskLogRecord
  spoolBytes : Nat
  nextSequence : Nat
  spoolTruncated : Bool
  /-- The bytes of the spool file. -/
  file : List UInt8
  deriving DecidableEq, Repr

/-- How the write of a record ends: it is written, or an error comes after some of its
bytes, never after the last one. -/
inductive WriteOutcome where
  | written
  | failed (count : Nat)
  deriving DecidableEq, Repr

namespace TaskLogStore

def «open» (config : TaskLogStoreConfig) : TaskLogStore where
  config := config
  liveBuffer := Buffer.empty
  spoolBytes := 0
  nextSequence := 0
  spoolTruncated := false
  file := []

def liveRecord (store : TaskLogStore) (stream : TaskExecutionLogStream) (chunk : String) :
    TaskLogRecord :=
  let cut := truncateToByteLimit chunk (max store.config.liveBufferBytes 1)
  ⟨store.nextSequence, stream, cut.1, cut.2⟩

/-- The bytes of a record's chunk. -/
def chunkBytes (r : TaskLogRecord) : Nat := utf8Length r.chunk.toList

def pushLiveRecord (store : TaskLogStore) (r : TaskLogRecord) : TaskLogStore :=
  { store with
    liveBuffer := store.liveBuffer.push chunkBytes store.config.liveBufferBytes r }

/-- `Err` is `false`. -/
def writeEncodedRecord (store : TaskLogStore) (encoded : List UInt8) :
    WriteOutcome → Bool × TaskLogStore
  | .written =>
    (true, { store with
      file := store.file ++ encoded
      spoolBytes := store.spoolBytes + encoded.length })
  | .failed count => (false, { store with file := store.file ++ encoded.dropLast.take count })

/-- The marker that is written when the next record does not fit. -/
def truncationMarker (store : TaskLogStore) (stream : TaskExecutionLogStream) : TaskLogRecord :=
  ⟨store.nextSequence, stream, taskLogTruncationMarker, true⟩

def writeTruncationMarker (store : TaskLogStore) (stream : TaskExecutionLogStream)
    (outcome : WriteOutcome) : TaskLogStore :=
  let r := store.truncationMarker stream
  match store.writeEncodedRecord (encodeRecord r) outcome with
  | (false, store) => store
  | (true, store) =>
    { store with
      nextSequence := store.nextSequence + 1
      spoolTruncated := true }.pushLiveRecord r

/-- The record of a redacted chunk in the spool. -/
def spoolRecord (store : TaskLogStore) (stream : TaskExecutionLogStream) (redacted : String) :
    TaskLogRecord :=
  ⟨store.nextSequence, stream, redacted, false⟩

variable (redactText : String → String)

def appendRecord (store : TaskLogStore) (stream : TaskExecutionLogStream) (chunk : String)
    (outcome : WriteOutcome) : TaskLogStore :=
  let redacted := redactText chunk
  let store := store.pushLiveRecord (store.liveRecord stream redacted)
  if store.spoolTruncated then store
  else
    let encoded := encodeRecord (store.spoolRecord stream redacted)
    if store.config.spoolBytes < store.spoolBytes + encoded.length then
      store.writeTruncationMarker stream outcome
    else
      match store.writeEncodedRecord encoded outcome with
      | (false, store) => store
      | (true, store) => { store with nextSequence := store.nextSequence + 1 }

end TaskLogStore

end DevRelay.Tasks
