import DevRelay.Core.Error
import DevRelay.Lib.Run
import DevRelay.Lib.Slots
import DevRelay.Lib.Statements
import Std.Data.String.ToNat

/-!
# Log files and their rotation

`StructuredLogFile::append` over a directory of files.  A line is written to the
file of the log; when it does not fit, the file becomes `.1`, `.1` becomes `.2`
and so on, and the last one is removed.  Each file operation can fail, and the
process can die between two of them or in the middle of a write.
-/

namespace DevRelay.Logging

open DevRelay.Lib DevRelay.Core

/-- The bytes of the files that exist, by path. -/
abbrev LogFiles := String → Option (List UInt8)

structure LogRotation where
  maxBytes : ℕ := 10 * 1024 * 1024
  maxFiles : ℕ := 5

structure StructuredLogFile where
  path : String
  rotation : LogRotation

def rotatedPath (path : String) (index : ℕ) : String := path ++ "." ++ index.repr

/-! ## File operations -/

/-- `fs::remove_file` -/
def removeFile? (path : String) (fs : LogFiles) : Option LogFiles :=
  if (fs path).isSome then some (Function.update fs path none) else none

/-- `fs::rename` -/
def rename? (source target : String) (fs : LogFiles) : Option LogFiles :=
  (fs source).map fun bytes =>
    Function.update (Function.update fs source none) target (some bytes)

/-- Write bytes at the end of a file opened with `create` and `append`. -/
def writeEnd (path : String) (bytes : List UInt8) (fs : LogFiles) : LogFiles :=
  Function.update fs path (some ((fs path).getD [] ++ bytes))

def notFound : DevRelayError := .io "No such file or directory (os error 2)"

abbrev LogStep := Prog LogFiles DevRelayError Unit

/-- `if path.exists() { fs::remove_file(path)?; }` -/
def removeExisting (path : String) : LogStep := do
  let present ← Prog.query fun fs => (fs path).isSome
  if present then Prog.attempt (removeFile? path) notFound else pure ()

/-- `if from.exists() { fs::rename(from, to)?; }` -/
def renameExisting (source target : String) : LogStep := do
  let present ← Prog.query fun fs => (fs source).isSome
  if present then Prog.attempt (rename? source target) notFound else pure ()

/-! ## Rotation -/

/-- The loop over `(1..=count).rev()`. -/
def shiftRotated (path : String) : ℕ → LogStep
  | 0 => pure ()
  | index + 1 => do
    renameExisting (rotatedPath path (index + 1)) (rotatedPath path (index + 2))
    shiftRotated path index

def rotateLogFiles (path : String) (maxFiles : ℕ) : LogStep :=
  if maxFiles = 0 then
    removeExisting path
  else do
    removeExisting (rotatedPath path maxFiles)
    shiftRotated path (maxFiles - 1)
    renameExisting path (rotatedPath path 1)

def StructuredLogFile.rotateIfNeeded (file : StructuredLogFile) (incomingBytes : ℕ) : LogStep :=
  if file.rotation.maxBytes = 0 then
    pure ()
  else do
    let current ← Prog.query fun fs => (fs file.path).map List.length
    match current with
    | none => pure ()
    | some currentBytes =>
      if currentBytes = 0 ∨ currentBytes + incomingBytes ≤ file.rotation.maxBytes then
        pure ()
      else
        rotateLogFiles file.path file.rotation.maxFiles

/-- Append a formatted record with its newline.  The first statement creates the
parent directory; the write may reach the file in two pieces, `cut` bytes first. -/
def StructuredLogFile.append (file : StructuredLogFile) (line : List UInt8) (cut : ℕ) :
    LogStep := do
  Prog.query fun _ => ()
  file.rotateIfNeeded line.length
  Prog.write (writeEnd file.path [])
  Prog.write (writeEnd file.path (line.take cut))
  Prog.write (writeEnd file.path (line.drop cut))

/-- A call of `append` and how its execution ends. -/
structure LogAppend where
  line : List UInt8
  cut : ℕ
  fault : Fault DevRelayError

def StructuredLogFile.perform (file : StructuredLogFile) (fs : LogFiles)
    (call : LogAppend) : Except DevRelayError Unit × LogFiles :=
  (file.append call.line call.cut).exec call.fault 0 fs

def StructuredLogFile.step (file : StructuredLogFile) (fs : LogFiles) (call : LogAppend) :
    LogFiles := (file.perform fs call).2

/-- The directory after the first `n` calls. -/
abbrev StructuredLogFile.filesAt (file : StructuredLogFile) (fs : LogFiles)
    (calls : List LogAppend) (n : ℕ) : LogFiles := stateAt file.step fs calls n

/-! ## The slots of a log -/

/-- The files of the log by age: the log itself, then `.1`, `.2`, .. -/
def slotPath (path : String) : ℕ → String
  | 0 => path
  | index + 1 => rotatedPath path (index + 1)

theorem slotPath_injective (path : String) : Function.Injective (slotPath path) := by
  have hself : ∀ index, path ≠ rotatedPath path index := by
    intro index heq
    have hlength := congrArg String.length heq
    have hdot : ".".length = 1 := rfl
    simp only [rotatedPath, String.length_append] at hlength
    omega
  intro i j heq
  cases i with
  | zero =>
    cases j with
    | zero => rfl
    | succ j => exact absurd heq (hself _)
  | succ i =>
    cases j with
    | zero => exact absurd heq.symm (hself _)
    | succ j =>
      have hrepr : (i + 1).repr = (j + 1).repr := by
        simpa [slotPath, rotatedPath] using heq
      exact Nat.repr_injective hrepr

theorem slotPath_ne_log {path : String} {i : ℕ} (h : i ≠ 0) : slotPath path i ≠ path :=
  fun heq => h (slotPath_injective path (heq.trans (rfl : path = slotPath path 0)))

theorem slotPath_inj {path : String} {i j : ℕ} : slotPath path i = slotPath path j ↔ i = j :=
  (slotPath_injective path).eq_iff

/-- What the directory keeps of a history of written pieces: the files, oldest first,
hold its last pieces; none is larger than the bound; no other path changed. -/
structure LogKept (file : StructuredLogFile) (bound : ℕ) (start : LogFiles)
    (history : List (List UInt8)) (fs : LogFiles) : Prop where
  told : ∃ slots, joined slots file.rotation.maxFiles <:+ history ∧
    ∀ i, i ≤ file.rotation.maxFiles →
      (fs (slotPath file.path i)).getD [] = (slots i).flatten
  bounded : 0 < file.rotation.maxBytes → ∀ i, i ≤ file.rotation.maxFiles →
    ((fs (slotPath file.path i)).getD []).length ≤ bound
  frame : ∀ path, (∀ i, i ≤ file.rotation.maxFiles → path ≠ slotPath file.path i) →
    fs path = start path

namespace LogKept

variable {file : StructuredLogFile} {bound : ℕ} {start fs : LogFiles}
  {history : List (List UInt8)}

theorem removed (h : LogKept file bound start history fs) :
    LogKept file bound start history
      (Function.update fs (slotPath file.path file.rotation.maxFiles) none) where
  told := by
    obtain ⟨slots, hsuffix, hcontent⟩ := h.told
    refine ⟨Function.update slots file.rotation.maxFiles [],
      (joined_clear _ _).trans hsuffix, fun i hi => ?_⟩
    by_cases heq : i = file.rotation.maxFiles
    · subst heq
      rw [Function.update_self, Function.update_self]
      rfl
    · rw [Function.update_of_ne (fun hslot => heq (slotPath_inj.mp hslot)),
        Function.update_of_ne heq]
      exact hcontent i hi
  bounded hbytes i hi := by
    by_cases heq : i = file.rotation.maxFiles
    · subst heq
      simp
    · rw [Function.update_of_ne (fun hslot => heq (slotPath_inj.mp hslot))]
      exact h.bounded hbytes i hi
  frame path hpath := by
    rw [Function.update_of_ne (hpath _ (Nat.le_refl _))]
    exact h.frame path hpath

theorem renamed (h : LogKept file bound start history fs) {i : ℕ} {bytes : List UInt8}
    (hi : i < file.rotation.maxFiles) (hsource : fs (slotPath file.path i) = some bytes)
    (htarget : fs (slotPath file.path (i + 1)) = none) :
    LogKept file bound start history
      (Function.update (Function.update fs (slotPath file.path i) none)
        (slotPath file.path (i + 1)) (some bytes)) where
  told := by
    obtain ⟨slots, hsuffix, hcontent⟩ := h.told
    have hempty : (slots (i + 1)).flatten = [] := by
      rw [← hcontent (i + 1) (by omega), htarget]
      rfl
    have hmoved : (slots i).flatten = bytes := by
      rw [← hcontent i (by omega), hsource]
      rfl
    refine ⟨_, (joined_moveUp slots hi).symm ▸ hsuffix, fun j hj => ?_⟩
    by_cases hnew : j = i + 1
    · subst hnew
      rw [Function.update_self, Function.update_self, List.flatten_append, hempty, hmoved]
      rfl
    · rw [Function.update_of_ne (fun hslot => hnew (slotPath_inj.mp hslot)),
        Function.update_of_ne hnew]
      by_cases hold : j = i
      · subst hold
        rw [Function.update_self, Function.update_self]
        rfl
      · rw [Function.update_of_ne (fun hslot => hold (slotPath_inj.mp hslot)),
          Function.update_of_ne hold]
        exact hcontent j hj
  bounded hbytes j hj := by
    have hsize := h.bounded hbytes i (by omega)
    rw [hsource] at hsize
    by_cases hnew : j = i + 1
    · subst hnew
      rwa [Function.update_self]
    · rw [Function.update_of_ne (fun hslot => hnew (slotPath_inj.mp hslot))]
      by_cases hold : j = i
      · subst hold
        rw [Function.update_self]
        exact Nat.zero_le _
      · rw [Function.update_of_ne (fun hslot => hold (slotPath_inj.mp hslot))]
        exact h.bounded hbytes j hj
  frame path hpath := by
    rw [Function.update_of_ne (hpath (i + 1) (by omega)),
      Function.update_of_ne (hpath i (by omega))]
    exact h.frame path hpath

theorem extended (h : LogKept file bound start history fs) {piece : List UInt8}
    (hsize : 0 < file.rotation.maxBytes →
      ((fs file.path).getD []).length + piece.length ≤ bound) :
    LogKept file bound start (history ++ [piece]) (writeEnd file.path piece fs) where
  told := by
    obtain ⟨slots, hsuffix, hcontent⟩ := h.told
    refine ⟨Function.update slots 0 (slots 0 ++ [piece]), ?_, fun i hi => ?_⟩
    · rw [joined_extend]
      exact List.suffix_append_self_iff.mpr hsuffix
    · by_cases hzero : i = 0
      · subst hzero
        have hold := hcontent 0 (Nat.zero_le _)
        rw [slotPath] at hold ⊢
        rw [writeEnd, Function.update_self, Function.update_self, List.flatten_append, ← hold]
        simp
      · rw [writeEnd, Function.update_of_ne (slotPath_ne_log hzero), Function.update_of_ne hzero]
        exact hcontent i hi
  bounded hbytes i hi := by
    by_cases hzero : i = 0
    · subst hzero
      have hnew := hsize hbytes
      rw [slotPath, writeEnd, Function.update_self]
      simpa using hnew
    · rw [writeEnd, Function.update_of_ne (slotPath_ne_log hzero)]
      exact h.bounded hbytes i hi
  frame path hpath := by
    have hlog : path ≠ file.path := hpath 0 (Nat.zero_le _)
    rw [writeEnd, Function.update_of_ne hlog]
    exact h.frame path hpath

/-- A call that wrote nothing counts as an empty piece. -/
theorem skipped (h : LogKept file bound start history fs) :
    LogKept file bound start (history ++ [[]]) fs where
  told := by
    obtain ⟨slots, hsuffix, hcontent⟩ := h.told
    refine ⟨Function.update slots 0 (slots 0 ++ [[]]), ?_, fun i hi => ?_⟩
    · rw [joined_extend]
      exact List.suffix_append_self_iff.mpr hsuffix
    · rw [hcontent i hi]
      by_cases hzero : i = 0
      · subst hzero
        simp
      · rw [Function.update_of_ne hzero]
  bounded := h.bounded
  frame := h.frame

end LogKept

/-! ## One call -/

section

variable {file : StructuredLogFile} {bound : ℕ} {start fs : LogFiles}
  {history : List (List UInt8)}

theorem removeExisting_ensures
    (h : LogKept file bound start history fs) :
    (removeExisting (slotPath file.path file.rotation.maxFiles)).Ensures
      (LogKept file bound start history)
      (fun _ fs' => fs' (slotPath file.path file.rotation.maxFiles) = none ∧
        LogKept file bound start history fs') fs := by
  unfold removeExisting
  apply Prog.ensures_query_bind h
  split
  · rename_i hpresent
    refine Prog.ensures_attempt h fun fs' hremove => ?_
    rw [removeFile?, if_pos hpresent] at hremove
    cases hremove
    exact ⟨h.removed, Function.update_self .., h.removed⟩
  · rename_i habsent
    exact Prog.ensures_pure ⟨by simpa using habsent, h⟩

theorem renameExisting_ensures (h : LogKept file bound start history fs) {i : ℕ}
    (hi : i < file.rotation.maxFiles) (htarget : fs (slotPath file.path (i + 1)) = none) :
    (renameExisting (slotPath file.path i) (slotPath file.path (i + 1))).Ensures
      (LogKept file bound start history)
      (fun _ fs' => fs' (slotPath file.path i) = none ∧
        LogKept file bound start history fs') fs := by
  unfold renameExisting
  apply Prog.ensures_query_bind h
  split
  · refine Prog.ensures_attempt h fun fs' hrename => ?_
    obtain ⟨bytes, hsource, rfl⟩ := Option.map_eq_some_iff.mp hrename
    have hkept := h.renamed hi hsource htarget
    refine ⟨hkept, ?_, hkept⟩
    rw [Function.update_of_ne (fun heq => by simpa using slotPath_inj.mp heq),
      Function.update_self]
  · rename_i habsent
    exact Prog.ensures_pure ⟨by simpa using habsent, h⟩

theorem shiftRotated_ensures (h : LogKept file bound start history fs) {count : ℕ}
    (hcount : count < file.rotation.maxFiles)
    (habsent : fs (slotPath file.path (count + 1)) = none) :
    (shiftRotated file.path count).Ensures (LogKept file bound start history)
      (fun _ fs' => fs' (slotPath file.path 1) = none ∧
        LogKept file bound start history fs') fs := by
  induction count generalizing fs with
  | zero => exact Prog.ensures_pure ⟨habsent, h⟩
  | succ count ih =>
    refine Prog.ensures_bind h (renameExisting_ensures h hcount habsent)
      fun _ fs' _ hrenamed => ?_
    exact ih hrenamed.2 (by omega) hrenamed.1

theorem rotateLogFiles_ensures (h : LogKept file bound start history fs) :
    (rotateLogFiles file.path file.rotation.maxFiles).Ensures
      (LogKept file bound start history)
      (fun _ fs' => fs' file.path = none ∧ LogKept file bound start history fs') fs := by
  have holdest := removeExisting_ensures h
  unfold rotateLogFiles
  cases hfiles : file.rotation.maxFiles with
  | zero =>
    rw [hfiles] at holdest
    exact holdest
  | succ count =>
    rw [hfiles] at holdest
    rw [if_neg (Nat.succ_ne_zero count)]
    refine Prog.ensures_bind h holdest fun _ fs₁ _ h₁ => ?_
    refine Prog.ensures_bind h₁.2 (shiftRotated_ensures h₁.2 (by omega) h₁.1)
      fun _ fs₂ _ h₂ => ?_
    exact renameExisting_ensures (i := 0) h₂.2 (by omega) h₂.1

/-- After the rotation the line fits, or the file of the log is empty. -/
theorem rotateIfNeeded_ensures (h : LogKept file bound start history fs) (incoming : ℕ) :
    (file.rotateIfNeeded incoming).Ensures (LogKept file bound start history)
      (fun _ fs' => (0 < file.rotation.maxBytes →
          (fs' file.path).getD [] = [] ∨
            ((fs' file.path).getD []).length + incoming ≤ file.rotation.maxBytes) ∧
        LogKept file bound start history fs') fs := by
  unfold StructuredLogFile.rotateIfNeeded
  split
  · rename_i hzero
    exact Prog.ensures_pure ⟨fun hpos => by omega, h⟩
  · apply Prog.ensures_query_bind h
    cases hlog : fs file.path with
    | none => exact Prog.ensures_pure ⟨fun _ => Or.inl (by rw [hlog]; rfl), h⟩
    | some bytes =>
      simp only [Option.map_some]
      split
      · rename_i hfits
        refine Prog.ensures_pure ⟨fun _ => ?_, h⟩
        rw [hlog]
        simpa using hfits
      · refine Prog.ensures_post (fun _ fs' hrotated => ?_) (rotateLogFiles_ensures h)
        refine ⟨fun _ => Or.inl ?_, hrotated.2⟩
        rw [hrotated.1]
        rfl

theorem writeEnd_writeEnd (path : String) (bytes bytes' : List UInt8) (fs : LogFiles) :
    writeEnd path bytes' (writeEnd path bytes fs) = writeEnd path (bytes ++ bytes') fs := by
  simp [writeEnd]

/-- Wherever a call stops, it has written a first part of its line. -/
theorem append_ensures (h : LogKept file bound start history fs) {line : List UInt8}
    (cut : ℕ) (hbytes : file.rotation.maxBytes ≤ bound) (hline : line.length ≤ bound) :
    (file.append line cut).Ensures
      (fun fs' => ∃ piece, piece <+: line ∧
        LogKept file bound start (history ++ [piece]) fs')
      (fun _ fs' => LogKept file bound start (history ++ [line]) fs' ∧
        ∃ before, fs' file.path = some (before ++ line)) fs := by
  have hnone : ∀ fs', LogKept file bound start history fs' → ∃ piece, piece <+: line ∧
      LogKept file bound start (history ++ [piece]) fs' :=
    fun fs' h' => ⟨[], List.nil_prefix, h'.skipped⟩
  unfold StructuredLogFile.append
  refine Prog.ensures_query_bind (hnone fs h) ?_
  refine Prog.ensures_bind (hnone fs h)
    (Prog.ensures_mono hnone (rotateIfNeeded_ensures h line.length)) fun _ fs₁ _ h₁ => ?_
  obtain ⟨hfits, h₁⟩ := h₁
  have hpiece : ∀ piece, piece <+: line →
      LogKept file bound start (history ++ [piece]) (writeEnd file.path piece fs₁) := by
    intro piece hprefix
    refine h₁.extended fun hpos => ?_
    have hlength := hprefix.length_le
    rcases hfits hpos with hempty | hroom
    · rw [hempty]
      simp only [List.length_nil]
      omega
    · omega
  have hcreated := hpiece [] List.nil_prefix
  have htorn := hpiece (line.take cut) (List.take_prefix cut line)
  have hwhole := hpiece line (List.prefix_refl line)
  refine Prog.ensures_write_bind ⟨[], List.nil_prefix, hcreated⟩ ?_
  refine Prog.ensures_write_bind ⟨line.take cut, List.take_prefix cut line, ?_⟩ ?_
  · rw [writeEnd_writeEnd, List.nil_append]
    exact htorn
  · have hlast : writeEnd file.path (line.drop cut) (writeEnd file.path (line.take cut)
        (writeEnd file.path [] fs₁)) = writeEnd file.path line fs₁ := by
      rw [writeEnd_writeEnd, writeEnd_writeEnd, List.nil_append, List.take_append_drop]
    refine ⟨⟨line, List.prefix_refl line, ?_⟩, ?_⟩
    · rw [hlast]
      exact hwhole
    · show LogKept _ _ _ _ _ ∧ _
      rw [hlast]
      exact ⟨hwhole, (fs₁ file.path).getD [], Function.update_self ..⟩

/-- A call adds one piece to the history: its line, if it succeeds. -/
theorem perform_kept (h : LogKept file bound start history fs) (call : LogAppend)
    (hbytes : file.rotation.maxBytes ≤ bound) (hline : call.line.length ≤ bound) :
    ∃ piece, piece <+: call.line ∧
      LogKept file bound start (history ++ [piece]) (file.step fs call) ∧
      ((file.perform fs call).1 = .ok () → piece = call.line ∧
        ∃ before, file.step fs call file.path = some (before ++ call.line)) := by
  have hensures := append_ensures h call.cut hbytes hline
  cases hreply : (file.perform fs call).1 with
  | error e =>
    obtain ⟨piece, hprefix, hkept⟩ := Prog.exec_ensures call.fault 0 _ fs
      ⟨[], List.nil_prefix, h.skipped⟩ hensures
    exact ⟨piece, hprefix, hkept, fun hok => by cases hok⟩
  | ok u =>
    have hexec : (file.append call.line call.cut).exec call.fault 0 fs =
        (.ok u, file.step fs call) := Prod.ext hreply rfl
    obtain ⟨hkept, hend⟩ := Prog.exec_ok_ensures hensures hexec
    exact ⟨call.line, List.prefix_refl _, hkept, fun _ => ⟨rfl, hend⟩⟩

end

/-! ## Every run -/

/-- The pieces found at the start: one for each file. -/
def StructuredLogFile.foundIn (file : StructuredLogFile) (start : LogFiles) : List (List UInt8) :=
  joined (fun i => [(start (slotPath file.path i)).getD []]) file.rotation.maxFiles

/-- In every run of appends, each of them possibly stopped by an error or a crash in
front of any file operation or in the middle of its write: every call adds one piece
to the log, a first part of its line, and if it succeeds the whole line, which then
ends the file of the log; the files, from the oldest to the newest, hold the last
pieces in order, each piece in one file; no file is larger than the limit, or the
largest line or file there was; and the files of other names are left alone. -/
theorem log_run_law (file : StructuredLogFile) (start : LogFiles) (calls : List LogAppend)
    (bound n : ℕ) (hn : n ≤ calls.length) (hbytes : file.rotation.maxBytes ≤ bound)
    (hlines : ∀ call ∈ calls, call.line.length ≤ bound) (hfiles : ∀ i, i ≤ file.rotation.maxFiles →
      ((start (slotPath file.path i)).getD []).length ≤ bound) :
    ∃ pieces : List (List UInt8), pieces.length = n ∧
      (∀ i (hi : i < n), ∃ piece, pieces[i]? = some piece ∧ piece <+: calls[i].line ∧
        ((file.perform (file.filesAt start calls i) calls[i]).1 = .ok () →
          piece = calls[i].line ∧ ∃ before,
            file.filesAt start calls (i + 1) file.path = some (before ++ calls[i].line))) ∧
      LogKept file bound start (file.foundIn start ++ pieces)
        (file.filesAt start calls n) := by
  induction n with
  | zero =>
    refine ⟨[], rfl, fun i hi => absurd hi (Nat.not_lt_zero i), ?_⟩
    rw [List.append_nil]
    refine ⟨⟨_, List.suffix_refl _, fun i _ => ?_⟩, fun _ => hfiles, fun _ _ => rfl⟩
    simp
  | succ n ih =>
    obtain ⟨pieces, hlength, hpieces, hkept⟩ := ih (by omega)
    obtain ⟨piece, hprefix, hnext, hok⟩ := perform_kept hkept calls[n] hbytes
      (hlines _ (List.getElem_mem _))
    refine ⟨pieces ++ [piece], by simp [hlength], fun i hi => ?_, ?_⟩
    · by_cases hlast : i = n
      · subst hlast
        refine ⟨piece, ?_, hprefix, fun hreply => ?_⟩
        · rw [← hlength, List.getElem?_concat_length]
        · rw [StructuredLogFile.filesAt, stateAt_succ (by omega)]
          exact hok hreply
      · obtain ⟨old, hold, hpart⟩ := hpieces i (by omega)
        refine ⟨old, ?_, hpart⟩
        rw [List.getElem?_append_left (by omega)]
        exact hold
    · rw [StructuredLogFile.filesAt, stateAt_succ (by omega), ← List.append_assoc]
      exact hnext

/-- Three lines of four bytes in files of at most ten bytes, the second one torn. -/
def demoAppends : List LogAppend := [
  ⟨[1, 1, 1, 10], 0, noFault⟩,
  ⟨[2, 2, 2, 10], 2, fun n => if n = 4 then some (.io "no space left") else none⟩,
  ⟨[3, 3, 3, 10], 0, noFault⟩]

def demoLog : StructuredLogFile := ⟨"agent.log", ⟨9, 1⟩⟩

theorem log_run_law_demo :
    ∃ pieces : List (List UInt8), pieces.length = 3 ∧
      LogKept demoLog 9 (fun _ => none) (demoLog.foundIn (fun _ => none) ++ pieces)
        (demoLog.filesAt (fun _ => none) demoAppends 3) :=
  have hlaw := log_run_law demoLog (fun _ => none) demoAppends 9 3 (by decide)
    (by decide) (by decide) (by simp)
  hlaw.elim fun pieces hpieces => ⟨pieces, hpieces.1, hpieces.2.2⟩

/-! ## Runs without failures -/

section

variable {file : StructuredLogFile} {fs : LogFiles} {path : String}

private theorem run_then {p q : LogStep} {fs₁ fs₂ : LogFiles} (hp : p.run fs = (.ok (), fs₁))
    (hq : q.run fs₁ = (.ok (), fs₂)) : (p >>= fun _ => q).run fs = (.ok (), fs₂) := by
  rw [Prog.run_bind, hp]
  exact hq

private theorem run_attempt {f : LogFiles → Option LogFiles} {fs' : LogFiles}
    (hf : f fs = some fs') (e : DevRelayError) :
    (Prog.attempt f e).run fs = (.ok (), fs') := by
  simp [Prog.attempt, hf, Prog.run, Prog.exec, noFault]

theorem run_renameExisting {source target : String} (htarget : fs target = none) :
    (renameExisting source target).run fs =
      (.ok (), Function.update (Function.update fs source none) target (fs source)) := by
  unfold renameExisting
  rw [Prog.run_query_bind]
  cases hsource : fs source with
  | none =>
    have hstay : Function.update fs source none = fs :=
      Function.update_eq_self_iff.mpr hsource.symm
    have hsame : Function.update fs target none = fs :=
      Function.update_eq_self_iff.mpr htarget.symm
    rw [hstay, hsame]
    rfl
  | some bytes =>
    have hrename : rename? source target fs =
        some (Function.update (Function.update fs source none) target (some bytes)) := by
      rw [rename?, hsource, Option.map_some]
    exact run_attempt hrename notFound

theorem run_removeExisting :
    (removeExisting path).run fs = (.ok (), Function.update fs path none) := by
  unfold removeExisting
  rw [Prog.run_query_bind]
  split
  · rename_i hpresent
    exact run_attempt (if_pos hpresent) notFound
  · rename_i habsent
    have hnone : fs path = none := by simpa using habsent
    rw [Function.update_eq_self_iff.mpr hnone.symm]
    rfl

/-- The loop moves the files `.1`, .., `.count` up, into room that is there. -/
theorem run_shiftRotated {count : ℕ} (habsent : fs (slotPath path (count + 1)) = none) :
    ∃ fs', (shiftRotated path count).run fs = (.ok (), fs') ∧
      (∀ i, 1 ≤ i → i ≤ count → fs' (slotPath path (i + 1)) = fs (slotPath path i)) ∧
      fs' (slotPath path 1) = none ∧
      ∀ i, i = 0 ∨ count + 1 < i → fs' (slotPath path i) = fs (slotPath path i) := by
  induction count generalizing fs with
  | zero => exact ⟨fs, rfl, fun i hi hle => by omega, habsent, fun _ _ => rfl⟩
  | succ count ih =>
    let fs₁ := Function.update (Function.update fs (slotPath path (count + 1)) none)
      (slotPath path (count + 2)) (fs (slotPath path (count + 1)))
    have hrename : (renameExisting (slotPath path (count + 1))
        (slotPath path (count + 2))).run fs = (.ok (), fs₁) := run_renameExisting habsent
    have hother : ∀ i, i ≠ count + 1 → i ≠ count + 2 →
        fs₁ (slotPath path i) = fs (slotPath path i) := by
      intro i hne hne'
      show Function.update _ _ _ _ = _
      rw [Function.update_of_ne (fun heq => hne' (slotPath_inj.mp heq)),
        Function.update_of_ne (fun heq => hne (slotPath_inj.mp heq))]
    have hroom : fs₁ (slotPath path (count + 1)) = none := by
      show Function.update _ _ _ _ = _
      rw [Function.update_of_ne (fun heq => by simpa using slotPath_inj.mp heq),
        Function.update_self]
    obtain ⟨fs', hrun, hshift, hfirst, hframe⟩ := ih hroom
    refine ⟨fs', run_then hrename hrun, fun i hi hle => ?_, hfirst, fun i hi => ?_⟩
    · by_cases hlast : i = count + 1
      · subst hlast
        rw [hframe _ (Or.inr (by omega))]
        exact Function.update_self ..
      · rw [hshift i hi (by omega), hother i hlast (by omega)]
    · rw [hframe i (by omega), hother i (by omega) (by omega)]

/-- A rotation that is not disturbed moves every file up by one and drops the last. -/
theorem run_rotateLogFiles (path : String) (maxFiles : ℕ) (fs : LogFiles) :
    ∃ fs', (rotateLogFiles path maxFiles).run fs = (.ok (), fs') ∧
      (∀ i, i < maxFiles → fs' (slotPath path (i + 1)) = fs (slotPath path i)) ∧
      fs' path = none := by
  cases maxFiles with
  | zero =>
    exact ⟨_, run_removeExisting, fun i hi => absurd hi (Nat.not_lt_zero i),
      Function.update_self ..⟩
  | succ count =>
    have hremove : (removeExisting (slotPath path (count + 1))).run fs =
      (.ok (), Function.update fs (slotPath path (count + 1)) none) := run_removeExisting
    have hroom : Function.update fs (slotPath path (count + 1)) none
      (slotPath path (count + 1)) = none := Function.update_self ..
    obtain ⟨fs₁, hrun, hshift, hfirst, hframe⟩ := run_shiftRotated hroom
    have hrename : (renameExisting (slotPath path 0) (slotPath path 1)).run fs₁ =
      (.ok (), _) := run_renameExisting hfirst
    refine ⟨_, run_then hremove (run_then hrun hrename), fun i hi => ?_, ?_⟩
    · by_cases hzero : i = 0
      · subst hzero
        rw [Function.update_self, hframe 0 (Or.inl rfl),
          Function.update_of_ne (fun heq => by simpa using slotPath_inj.mp heq)]
      · rw [Function.update_of_ne (fun heq => hzero (by simpa using slotPath_inj.mp heq)),
          Function.update_of_ne (fun heq => by simpa using slotPath_inj.mp heq),
          hshift i (by omega) (by omega),
          Function.update_of_ne (fun heq => by have := slotPath_inj.mp heq; omega)]
    · rw [Function.update_of_ne (slotPath_ne_log (Nat.succ_ne_zero 0)).symm]
      exact Function.update_self ..

/-- All bytes of the log, the oldest file first. -/
def StructuredLogFile.bytesIn (file : StructuredLogFile) (fs : LogFiles) : List UInt8 :=
  joined (fun i => (fs (slotPath file.path i)).getD []) file.rotation.maxFiles

/-- Every rotated file is there. -/
def StructuredLogFile.Full (file : StructuredLogFile) (fs : LogFiles) : Prop :=
  ∀ i, i < file.rotation.maxFiles → (fs (slotPath file.path (i + 1))).isSome

/-- The rotated files have no gap between them. -/
def StructuredLogFile.Gapless (file : StructuredLogFile) (fs : LogFiles) : Prop :=
  ∀ i, 1 ≤ i → i < file.rotation.maxFiles → (fs (slotPath file.path (i + 1))).isSome →
    (fs (slotPath file.path i)).isSome

/-- What a rotation that is not disturbed leaves. -/
structure Shifted (file : StructuredLogFile) (fs fs' : LogFiles) : Prop where
  present : (fs file.path).isSome
  moved : ∀ i, i < file.rotation.maxFiles →
    fs' (slotPath file.path (i + 1)) = fs (slotPath file.path i)
  cleared : fs' file.path = none

theorem run_rotateIfNeeded (incoming : ℕ) :
    ∃ fs', (file.rotateIfNeeded incoming).run fs = (.ok (), fs') ∧
      (fs' = fs ∨ Shifted file fs fs') := by
  unfold StructuredLogFile.rotateIfNeeded
  split
  · exact ⟨fs, rfl, Or.inl rfl⟩
  · rw [Prog.run_query_bind]
    cases hlog : fs file.path with
    | none => exact ⟨fs, rfl, Or.inl rfl⟩
    | some bytes =>
      simp only [Option.map_some]
      split
      · exact ⟨fs, rfl, Or.inl rfl⟩
      · obtain ⟨fs', hrun, hmoved, hcleared⟩ :=
          run_rotateLogFiles file.path file.rotation.maxFiles fs
        exact ⟨fs', hrun, Or.inr ⟨by rw [hlog]; rfl, hmoved, hcleared⟩⟩

/-- A call that succeeds rotates or does not, and writes its line. -/
theorem step_ok {call : LogAppend} (hok : (file.perform fs call).1 = .ok ()) :
    ∃ fs', (fs' = fs ∨ Shifted file fs fs') ∧
      file.step fs call = writeEnd file.path call.line fs' := by
  obtain ⟨fs', hrotate, hcases⟩ : ∃ fs', (file.rotateIfNeeded call.line.length).run fs =
      (.ok (), fs') ∧ (fs' = fs ∨ Shifted file fs fs') := run_rotateIfNeeded call.line.length
  have hrun : (file.append call.line call.cut).run fs =
      (.ok (), writeEnd file.path call.line fs') := by
    unfold StructuredLogFile.append
    rw [Prog.run_query_bind, Prog.run_bind, hrotate]
    show (Prog.write _ >>= fun _ => Prog.write _ >>= fun _ => Prog.write _).run fs' = _
    rw [Prog.run_write_bind, Prog.run_write_bind, writeEnd_writeEnd, List.nil_append]
    show (_, writeEnd file.path (call.line.drop call.cut)
      (writeEnd file.path (call.line.take call.cut) fs')) = _
    rw [writeEnd_writeEnd, List.take_append_drop]
  rcases Prog.exec_error_or_run call.fault 0 (file.append call.line call.cut) fs with
    ⟨e, herror⟩ | hexec
  · cases herror.symm.trans hok
  · exact ⟨fs', hcases, congrArg Prod.snd (hexec.trans hrun)⟩

theorem bytesIn_writeEnd (line : List UInt8) :
    file.bytesIn (writeEnd file.path line fs) = file.bytesIn fs ++ line := by
  unfold StructuredLogFile.bytesIn
  rw [← joined_extend]
  refine joined_congr fun i _ => ?_
  by_cases hzero : i = 0
  · subst hzero
    simp [slotPath, writeEnd]
  · rw [Function.update_of_ne hzero, writeEnd, Function.update_of_ne (slotPath_ne_log hzero)]

theorem isSome_writeEnd {line : List UInt8} {q : String} (h : (fs q).isSome) :
    (writeEnd file.path line fs q).isSome := by
  by_cases heq : q = file.path
  · subst heq
    rw [writeEnd, Function.update_self]
    rfl
  · rwa [writeEnd, Function.update_of_ne heq]

theorem writeEnd_slotPath {line : List UInt8} (i : ℕ) :
    writeEnd file.path line fs (slotPath file.path (i + 1)) = fs (slotPath file.path (i + 1)) :=
  Function.update_of_ne (slotPath_ne_log (Nat.succ_ne_zero i)) _ _

theorem Full.of_gapless (hgapless : file.Gapless fs)
    (hlast : (fs (slotPath file.path file.rotation.maxFiles)).isSome) : file.Full fs := by
  intro i hi
  obtain ⟨gap, hgap⟩ : ∃ gap, i + 1 + gap = file.rotation.maxFiles :=
    ⟨file.rotation.maxFiles - (i + 1), by omega⟩
  induction gap generalizing i with
  | zero =>
    rw [Nat.add_zero] at hgap
    rwa [hgap]
  | succ gap ih => exact hgapless (i + 1) (by omega) (by omega) (ih (i + 1) (by omega) (by omega))

theorem Shifted.full {fs' : LogFiles} (h : Shifted file fs fs') (hfull : file.Full fs) :
    file.Full fs' := by
  intro i hi
  rw [h.moved i hi]
  cases i with
  | zero => exact h.present
  | succ i => exact hfull i (by omega)

theorem Shifted.gapless {fs' : LogFiles} (h : Shifted file fs fs')
    (hgapless : file.Gapless fs) : file.Gapless fs' := by
  intro i hpos hi hnext
  obtain ⟨j, rfl⟩ : ∃ j, i = j + 1 := ⟨i - 1, by omega⟩
  rw [h.moved (j + 1) hi] at hnext
  rw [h.moved j (by omega)]
  cases j with
  | zero => exact h.present
  | succ j => exact hgapless (j + 1) (by omega) (by omega) hnext

/-- Nothing is lost by a rotation while a rotated file is missing. -/
theorem Shifted.bytesIn {fs' : LogFiles} (h : Shifted file fs fs')
    (hgapless : file.Gapless fs) : file.bytesIn fs' = file.bytesIn fs ∨ file.Full fs := by
  by_cases hlast : (fs (slotPath file.path file.rotation.maxFiles)).isSome
  · exact Or.inr (Full.of_gapless hgapless hlast)
  · left
    unfold StructuredLogFile.bytesIn
    cases hfiles : file.rotation.maxFiles with
    | zero =>
      rw [hfiles] at hlast
      exact absurd h.present hlast
    | succ count =>
      have hempty : fs (slotPath file.path (count + 1)) = none := by
        rw [hfiles] at hlast
        simpa using hlast
      have hcleared : (fs' (slotPath file.path 0)).getD [] = [] := by
        rw [slotPath, h.cleared]
        rfl
      rw [joined_shift hcleared fun i hi => by rw [h.moved i (by omega)], joined, hempty]
      rfl

theorem step_keeps {call : LogAppend} (hok : (file.perform fs call).1 = .ok ())
    (hgapless : file.Gapless fs) :
    file.Gapless (file.step fs call) ∧
      (file.Full fs → file.Full (file.step fs call)) ∧
      (file.bytesIn (file.step fs call) = file.bytesIn fs ++ call.line ∨
        file.Full (file.step fs call)) := by
  obtain ⟨fs', hcases, hstep⟩ := step_ok hok
  rw [hstep, bytesIn_writeEnd]
  have hgap : file.Gapless fs' → file.Gapless (writeEnd file.path call.line fs') := by
    intro h i hpos hi hnext
    rw [writeEnd_slotPath] at hnext
    exact isSome_writeEnd (h i hpos hi hnext)
  have hfull : file.Full fs' → file.Full (writeEnd file.path call.line fs') :=
    fun h i hi => isSome_writeEnd (h i hi)
  rcases hcases with rfl | hshifted
  · exact ⟨hgap hgapless, hfull, Or.inl rfl⟩
  · refine ⟨hgap (hshifted.gapless hgapless), fun h => hfull (hshifted.full h), ?_⟩
    rcases hshifted.bytesIn hgapless with hsame | h
    · exact Or.inl (by rw [hsame])
    · exact Or.inr (hfull (hshifted.full h))

end

/-- In every run whose appends succeed, from a directory whose rotated files have no
gap: as long as one of the rotated files is missing, the log has lost nothing; its
files hold what they held and every line since, in order. -/
theorem log_loses_nothing_before_full (file : StructuredLogFile) (start : LogFiles)
    (calls : List LogAppend) (n : ℕ) (hn : n ≤ calls.length) (hgapless : file.Gapless start)
    (hok : ∀ i (hi : i < n), (file.perform (file.filesAt start calls i) calls[i]).1 = .ok ()) :
    file.bytesIn (file.filesAt start calls n) =
        file.bytesIn start ++ ((calls.take n).map LogAppend.line).flatten ∨
      ∀ i, 1 ≤ i → i ≤ file.rotation.maxFiles →
        (file.filesAt start calls n (rotatedPath file.path i)).isSome := by
  have hrun : file.Gapless (file.filesAt start calls n) ∧
      (file.bytesIn (file.filesAt start calls n) =
          file.bytesIn start ++ ((calls.take n).map LogAppend.line).flatten ∨
        file.Full (file.filesAt start calls n)) := by
    induction n with
    | zero => exact ⟨hgapless, Or.inl (by simp)⟩
    | succ n ih =>
      obtain ⟨hgap, hkept⟩ := ih (by omega) fun i hi => hok i (by omega)
      obtain ⟨hgap', hfull, hbytes⟩ := step_keeps (hok n (by omega)) hgap
      have hnext : file.filesAt start calls (n + 1) =
          file.step (file.filesAt start calls n) calls[n] := stateAt_succ (by omega)
      rw [hnext]
      refine ⟨hgap', ?_⟩
      rcases hkept with hsame | h
      · rcases hbytes with hline | h
        · left
          rw [hline, hsame, List.take_succ_eq_append_getElem (by omega), List.map_append,
            List.flatten_append, List.append_assoc]
          simp
        · exact Or.inr h
      · exact Or.inr (hfull h)
  rcases hrun.2 with hsame | hfull
  · exact Or.inl hsame
  · right
    intro i hpos hi
    obtain ⟨j, rfl⟩ : ∃ j, i = j + 1 := ⟨i - 1, by omega⟩
    exact hfull j (by omega)

/-- A log that keeps two rotated files. -/
def roomyLog : StructuredLogFile := ⟨"agent.log", ⟨9, 2⟩⟩

def demoLines : List LogAppend := [demoAppends[0], demoAppends[2], demoAppends[0]]

/-- The third line rotates the log, and both files together have all three. -/
theorem log_loses_nothing_before_full_demo :
    (roomyLog.filesAt (fun _ => none) demoLines 3 (rotatedPath "agent.log" 1)).isSome ∧
      roomyLog.bytesIn (roomyLog.filesAt (fun _ => none) demoLines 3) =
        [1, 1, 1, 10, 3, 3, 3, 10, 1, 1, 1, 10] := by
  refine ⟨by decide, ?_⟩
  have hgapless : roomyLog.Gapless fun _ => none := fun _ _ _ h => by cases h
  rcases log_loses_nothing_before_full roomyLog (fun _ => none) demoLines 3 (by decide) hgapless
    (by decide) with hkept | hfull
  · exact hkept
  · exact absurd (hfull 2 (by decide) (by decide)) (by decide)

end DevRelay.Logging
