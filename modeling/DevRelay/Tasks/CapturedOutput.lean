import DevRelay.Lib.LossySplit
import DevRelay.Tasks.RunnerConfinement

/-!
# The captured output

Each read of a stream is decoded by itself, and the pieces are put together as text.  The outcome
is the text of all the bytes exactly if no read ends inside a character that the next one goes
on with.
-/

namespace DevRelay.Runner

open DevRelay.Lib DevRelay.Core

/-! ## What is captured -/

/-- `String::from_utf8_lossy` -/
def lossyString (bytes : List UInt8) : String := String.ofList (fromUtf8Lossy bytes)

def ProcessRun.reads (process : ProcessRun) :
    TaskExecutionLogStream → List (Except IoFailure (List UInt8))
  | .stdout => process.stdoutReads
  | .stderr => process.stderrReads

/-- The reads return these pieces, and then the end of the stream. -/
structure Delivers (reads : List (Except IoFailure (List UInt8)))
    (pieces : List (List UInt8)) : Prop where
  eq : reads = pieces.map .ok ++ [.ok []]
  ne_nil : ∀ piece ∈ pieces, piece ≠ []

def TaskExecutionResult.output (result : TaskExecutionResult) : TaskExecutionLogStream → String
  | .stdout => result.stdout
  | .stderr => result.stderr

def Captured.output (captured : Captured) : TaskExecutionLogStream → String
  | .stdout => captured.stdout
  | .stderr => captured.stderr

/-- The chunks of the events of a stream. -/
def chunksOf (stream : TaskExecutionLogStream) (events : List TaskExecutionLogEvent) :
    List String :=
  (events.filter fun event => event.stream = stream).map (·.chunk)

/-- The output and the events of a stream are the text of what was written to it. -/
structure Captures (result : TaskExecutionResult) (stream : TaskExecutionLogStream)
    (written : List UInt8) : Prop where
  output : result.output stream = lossyString written
  logged : String.join (chunksOf stream result.logs) = lossyString written

def LogMessage.event (message : LogMessage) : TaskExecutionLogEvent :=
  ⟨message.stream, message.chunk⟩

section

variable {env : ExecutionEnv}

/-! ## The messages of the two readers -/

theorem spawnLogReader_of_delivers {stream : TaskExecutionLogStream}
    {reads : List (Except IoFailure (List UInt8))} {pieces : List (List UInt8)}
    (h : Delivers reads pieces) :
    spawnLogReader stream reads = pieces.map fun piece => ⟨stream, lossyString piece⟩ := by
  obtain ⟨rfl, hne⟩ := h
  induction pieces with
  | nil => rfl
  | cons piece pieces ih =>
    have hrest := ih fun other hother => hne other (List.mem_cons_of_mem _ hother)
    cases piece with
    | nil => exact absurd rfl (hne [] List.mem_cons_self)
    | cons byte bytes =>
      rw [List.map_cons, List.map_cons, ← hrest]
      rfl

/-- The channel keeps the messages of each reader, in their order. -/
theorem filter_received (order : List TaskExecutionLogStream) {out err : List LogMessage}
    (hout : ∀ message ∈ out, message.stream = .stdout)
    (herr : ∀ message ∈ err, message.stream = .stderr) :
    ((received order out err).filter fun message => message.stream = .stdout) = out ∧
      ((received order out err).filter fun message => message.stream = .stderr) = err := by
  induction order generalizing out err with
  | nil =>
    have hkept : (out.filter fun message => message.stream = .stdout) = out :=
      List.filter_eq_self.mpr fun message hm => by simp [hout message hm]
    have hother : (err.filter fun message => message.stream = .stdout) = [] :=
      List.filter_eq_nil_iff.mpr fun message hm => by simp [herr message hm]
    have hnone : (out.filter fun message => message.stream = .stderr) = [] :=
      List.filter_eq_nil_iff.mpr fun message hm => by simp [hout message hm]
    have hself : (err.filter fun message => message.stream = .stderr) = err :=
      List.filter_eq_self.mpr fun message hm => by simp [herr message hm]
    rw [received, List.filter_append, List.filter_append, hkept, hother, hnone, hself]
    exact ⟨List.append_nil _, List.nil_append _⟩
  | cons stream order ih =>
    cases stream with
    | stdout =>
      cases out with
      | nil => exact ih hout herr
      | cons message out =>
        have hfirst := hout message List.mem_cons_self
        obtain ⟨hkept, hself⟩ := ih (fun other hm => hout other (List.mem_cons_of_mem _ hm))
          herr
        rw [received, List.filter_cons, List.filter_cons, hkept, hself, hfirst]
        exact ⟨rfl, rfl⟩
    | stderr =>
      cases err with
      | nil => exact ih hout herr
      | cons message err =>
        have hfirst := herr message List.mem_cons_self
        obtain ⟨hkept, hself⟩ := ih hout fun other hm =>
          herr other (List.mem_cons_of_mem _ hm)
        rw [received, List.filter_cons, List.filter_cons, hkept, hself, hfirst]
        exact ⟨rfl, rfl⟩

theorem chunksOf_events (stream : TaskExecutionLogStream) (messages : List LogMessage) :
    chunksOf stream (messages.map LogMessage.event) =
      (messages.filter fun message => message.stream = stream).map (·.chunk) := by
  rw [chunksOf, List.filter_map, List.map_map]
  rfl

/-- What the channel hands over of a stream are the texts of its pieces. -/
theorem chunksOf_received {process : ProcessRun}
    {pieces : TaskExecutionLogStream → List (List UInt8)}
    (h : ∀ stream, Delivers (process.reads stream) (pieces stream))
    (stream : TaskExecutionLogStream) :
    chunksOf stream ((received process.order (spawnLogReader .stdout process.stdoutReads)
      (spawnLogReader .stderr process.stderrReads)).map LogMessage.event) =
      (pieces stream).map lossyString := by
  have hout : spawnLogReader .stdout process.stdoutReads =
      (pieces .stdout).map fun piece => ⟨.stdout, lossyString piece⟩ :=
    spawnLogReader_of_delivers (h .stdout)
  have herr : spawnLogReader .stderr process.stderrReads =
      (pieces .stderr).map fun piece => ⟨.stderr, lossyString piece⟩ :=
    spawnLogReader_of_delivers (h .stderr)
  rw [hout, herr, chunksOf_events]
  have houtStream : ∀ message ∈ (pieces .stdout).map fun piece =>
      (⟨.stdout, lossyString piece⟩ : LogMessage), message.stream = .stdout := by
    simp
  have herrStream : ∀ message ∈ (pieces .stderr).map fun piece =>
      (⟨.stderr, lossyString piece⟩ : LogMessage), message.stream = .stderr := by
    simp
  obtain ⟨hkept, hself⟩ := filter_received process.order houtStream herrStream
  cases stream with
  | stdout =>
    rw [hkept, List.map_map]
    rfl
  | stderr =>
    rw [hself, List.map_map]
    rfl

/-! ## Putting them together -/

/-- The events are those of these messages, and the outputs are what the events say. -/
structure Collected (captured : Captured) (messages : List LogMessage) : Prop where
  events : captured.events = messages.map LogMessage.event
  output : ∀ stream, captured.output stream = String.join (chunksOf stream captured.events)

theorem Collected.appendLogMessage {captured next : Captured} {messages : List LogMessage}
    {message : LogMessage} (h : Collected captured messages)
    (hstep : appendLogMessage env captured message = .ok next) :
    Collected next (messages ++ [message]) := by
  unfold Runner.appendLogMessage at hstep
  dsimp only at hstep
  cases hlog : env.onLog captured.events ⟨message.stream, message.chunk⟩ with
  | error e =>
    rw [hlog] at hstep
    cases hstep
  | ok _ =>
    rw [hlog] at hstep
    cases hstep
    constructor
    · rw [List.map_append, ← h.events]
      rfl
    · intro stream
      have hbefore := h.output stream
      rw [chunksOf] at hbefore ⊢
      dsimp only
      rw [List.filter_append, List.map_append, String.join_append, ← hbefore]
      cases stream <;> cases hstream : message.stream <;>
        simp [Captured.output, String.join_cons, String.join_nil]

theorem Collected.foldlM {captured final : Captured} {messages more : List LogMessage}
    (h : Collected captured messages)
    (hfold : more.foldlM (Runner.appendLogMessage env) captured = .ok final) :
    Collected final (messages ++ more) := by
  induction more generalizing captured messages with
  | nil =>
    cases hfold
    rw [List.append_nil]
    exact h
  | cons message more ih =>
    rw [List.foldlM_cons] at hfold
    cases hstep : Runner.appendLogMessage env captured message with
    | error e =>
      rw [hstep] at hfold
      cases hfold
    | ok next =>
      rw [hstep] at hfold
      have hrest := ih (h.appendLogMessage hstep) hfold
      rw [List.append_assoc] at hrest
      exact hrest

theorem collected_nil : Collected ⟨"", "", []⟩ [] :=
  ⟨rfl, fun stream => by cases stream <;> rfl⟩

variable {manifest : Manifest} {workspace : TaskRunnerWorkspace} {definition : TaskDefinition}
  {options : TaskExecutionOptions} {result : TaskExecutionResult} {command : StartedCommand}
  {process : ProcessRun}

/-- The outputs and events of a result are those of the process that was started. -/
theorem exists_collected
    (hrun : executeTaskInRunnerWorkspace env manifest workspace definition options =
      (.ok result, some command)) (hspawn : env.spawn command = .ok process) :
    ∃ captured, captureOutput env process = .ok captured ∧
      (∀ stream, result.output stream = captured.output stream) ∧
      result.logs = captured.events := by
  have hstarted := executeTask_started_iff.mp (congrArg Prod.snd hrun)
  obtain ⟨path, program, args, other, hpath, hhost, hcommand, rfl, hother⟩ := hstarted
  rw [hspawn] at hother
  cases hother
  unfold executeTaskInRunnerWorkspace at hrun
  rw [hpath] at hrun
  dsimp only at hrun
  rw [if_neg (not_not.mpr hhost), hcommand] at hrun
  unfold commandIn at hspawn
  dsimp only at hrun
  rw [hspawn] at hrun
  dsimp only at hrun
  have hfinished := congrArg Prod.fst hrun
  dsimp only at hfinished
  unfold finishCommand at hfinished
  cases hcaptured : captureOutput env process with
  | error e =>
    rw [hcaptured] at hfinished
    cases hfinished
  | ok captured =>
    rw [hcaptured] at hfinished
    cases hending : process.ending with
    | error e =>
      rw [hending] at hfinished
      cases hfinished
    | ok ending =>
      rw [hending] at hfinished
      cases hfinished
      refine ⟨captured, rfl, ?_, rfl⟩
      intro stream
      cases stream <;> rfl

theorem join_lossyString_iff (pieces : List (List UInt8)) :
    String.join (pieces.map lossyString) = lossyString pieces.flatten ↔ KeepsCharacters pieces := by
  have htexts : String.join (pieces.map lossyString) =
      String.ofList (pieces.flatMap fromUtf8Lossy) := by
    apply String.toList_injective
    rw [String.toList_join, List.flatMap_map, String.toList_ofList]
    simp [lossyString]
  rw [htexts, ← flatMap_fromUtf8Lossy_iff]
  exact String.ofList_inj

/-- What a task wrote is what its result says exactly if no read cuts a character. -/
theorem captures_iff {pieces : TaskExecutionLogStream → List (List UInt8)}
    (hrun : executeTaskInRunnerWorkspace env manifest workspace definition options =
      (.ok result, some command)) (hspawn : env.spawn command = .ok process)
    (hreads : ∀ stream, Delivers (process.reads stream) (pieces stream))
    (stream : TaskExecutionLogStream) :
    Captures result stream (pieces stream).flatten ↔ KeepsCharacters (pieces stream) := by
  obtain ⟨captured, hcaptured, houtput, hlogs⟩ := exists_collected hrun hspawn
  have hcollected := collected_nil.foldlM hcaptured
  have hchunks : chunksOf stream captured.events = (pieces stream).map lossyString := by
    rw [hcollected.events]
    exact chunksOf_received hreads stream
  have hjoin := join_lossyString_iff (pieces stream)
  constructor
  · intro h
    have hlogged := h.logged
    rw [hlogs, hchunks] at hlogged
    exact hjoin.mp hlogged
  · intro hkeeps
    have htext := hjoin.mpr hkeeps
    constructor
    · rw [houtput, hcollected.output, hchunks, htext]
    · rw [hlogs, hchunks, htext]

end

/-! ## One character in two reads -/

/-- A command whose standard output is read in these pieces. -/
def writingProcess (pieces : List (List UInt8)) : ProcessRun :=
  ⟨pieces.map .ok ++ [.ok []], [.ok []], [], .ok (some 0, false)⟩

def writingEnv (pieces : List (List UInt8)) : ExecutionEnv :=
  { linkedEnv with spawn := fun _ => .ok (writingProcess pieces) }

def plainOptions : TaskExecutionOptions := ⟨none, .empty⟩

def writtenResult (pieces : List (List UInt8)) : TaskExecutionResult :=
  executionResult (writingEnv pieces) demoWorkspace demoDefinition "/ws"
    ⟨some 0, String.join (pieces.map lossyString), "", false, false⟩
    (pieces.map fun piece => ⟨.stdout, lossyString piece⟩)

def writtenPieces (pieces : List (List UInt8)) : TaskExecutionLogStream → List (List UInt8)
  | .stdout => pieces
  | .stderr => []

theorem writing_delivers {pieces : List (List UInt8)} (h : ∀ piece ∈ pieces, piece ≠ [])
    (stream : TaskExecutionLogStream) :
    Delivers ((writingProcess pieces).reads stream) (writtenPieces pieces stream) := by
  cases stream with
  | stdout => exact ⟨rfl, h⟩
  | stderr => exact ⟨rfl, fun _ hmem => nomatch hmem⟩

/-- The two bytes of "é". -/
def eAcute : List UInt8 := [0xC3, 0xA9]

theorem whole_run : executeTaskInRunnerWorkspace (writingEnv [eAcute, [0x41]]) demoManifest
    demoWorkspace demoDefinition plainOptions =
      (.ok (writtenResult [eAcute, [0x41]]), some ⟨"/ws", "make", [], []⟩) := by
  rfl

/-- "éA" in two reads. -/
theorem captures_eAcute : Captures (writtenResult [eAcute, [0x41]]) .stdout (eAcute ++ [0x41]) := by
  apply (captures_iff whole_run rfl (writing_delivers (by decide)) .stdout).mpr
  have hjoined : [eAcute, [0x41]].flatMap fromUtf8Lossy = fromUtf8Lossy (eAcute ++ [0x41]) := by
    decide
  exact (flatMap_fromUtf8Lossy_iff _).mp hjoined

theorem cut_run : executeTaskInRunnerWorkspace (writingEnv [[0xC3], [0xA9]]) demoManifest
    demoWorkspace demoDefinition plainOptions =
      (.ok (writtenResult [[0xC3], [0xA9]]), some ⟨"/ws", "make", [], []⟩) := by
  rfl

theorem cut_character_is_lost :
    ¬∀ (env : ExecutionEnv) (manifest : Manifest) (workspace : TaskRunnerWorkspace)
      (definition : TaskDefinition) (options : TaskExecutionOptions)
      (result : TaskExecutionResult) (command : StartedCommand) (process : ProcessRun)
      (pieces : TaskExecutionLogStream → List (List UInt8)),
      executeTaskInRunnerWorkspace env manifest workspace definition options =
        (.ok result, some command) → env.spawn command = .ok process →
      (∀ stream, Delivers (process.reads stream) (pieces stream)) →
      ∀ stream, Captures result stream (pieces stream).flatten := by
  intro hall
  have h := hall _ _ _ _ _ _ _ _ (writtenPieces [[0xC3], [0xA9]]) cut_run rfl
    (writing_delivers (by decide)) .stdout
  have hlogged := h.logged
  revert hlogged
  decide

end DevRelay.Runner
