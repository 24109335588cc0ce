import DevRelay.Core.Hashing
import DevRelay.Manifest.Schema

/-!
# The execution trust hash

The bytes that `Manifest::execution_trust_hash` feeds to its hasher.  Every field
is followed by a zero byte, the tags stand in band and nothing counts the
arguments of a command, so what the hash binds is the sequence of the fields and
not their grouping.
-/

namespace DevRelay.Core

open DevRelay.Lib

def updateHashField (hasher : Hasher) (value : String) : Hasher :=
  (hasher.update value.toUTF8).update ⟨#[0]⟩

def updateHashCommand (hasher : Hasher) (field : String) (values : List String) : Hasher :=
  values.foldl updateHashField (updateHashField hasher field)

/-- The body of the loop over the profiles. -/
def updateHashProfile (hasher : Hasher) (entry : String × EnvironmentProfile) : Hasher :=
  let hasher := updateHashField hasher "environment.profile"
  let hasher := updateHashField hasher entry.1
  let hasher := updateHashCommand hasher "command" entry.2.command
  match entry.2.healthcheck with
  | none => hasher
  | some healthcheck => updateHashCommand hasher "healthcheck" healthcheck

/-- The body of the loop over the tasks. -/
def updateHashTask (hasher : Hasher) (entry : String × TaskConfig) : Hasher :=
  let hasher := updateHashField hasher "task"
  let hasher := updateHashField hasher entry.1
  let hasher := updateHashField hasher entry.2.profile
  updateHashCommand hasher "command" entry.2.command

/-- Absolute paths and paths with a `..` component are refused. -/
def resolveFingerprintFile (relative : String) : Except DevRelayError String :=
  if ['/'].isPrefixOf relative.toList ||
      (relative.toList.splitOn '/').contains ['.', '.'] then
    .error (.manifest ("fingerprint file path must stay inside the manifest root: " ++
      debugString relative))
  else
    .ok relative

section Files

variable (readFile : String → Except String ByteArray)

/-- The body of the loop over the fingerprint files; `readFile` reads below the root. -/
def updateFingerprintFile (profileName : String) (hasher : Hasher) (relative : String) :
    Except DevRelayError Hasher := do
  let path ← resolveFingerprintFile relative
  match readFile path with
  | .error err =>
    throw (.manifest ("failed to read environment.profiles." ++ profileName ++
      ".fingerprint_files entry " ++ debugString relative ++ ": " ++ err))
  | .ok bytes =>
    let hasher := updateHashField hasher "environment.profile.fingerprint_file"
    let hasher := updateHashField hasher profileName
    let hasher := updateHashField hasher relative
    let hasher := hasher.update (toLeBytes (UInt64.ofNat bytes.size))
    return ((hasher.update ⟨#[0]⟩).update bytes).update ⟨#[0]⟩

def updateFingerprintFileHashes (self : Manifest) (hasher : Hasher) : Except DevRelayError Hasher :=
  self.profiles.foldlM (fun hasher entry =>
    (entry.2.fingerprintFiles.mergeSort fun a b => decide (a ≤ b)).foldlM
      (updateFingerprintFile readFile entry.1) hasher) hasher

end Files

namespace Manifest

def updateExecutionTrustHash (self : Manifest) (hasher : Hasher) : Hasher :=
  let hasher := updateHashField hasher "devrelay.execution-trust.v1"
  let hasher := self.profiles.foldl updateHashProfile hasher
  self.tasks.entries.foldl updateHashTask hasher

/-- The bytes fed to the hasher by `execution_trust_hash`. -/
def executionTrustStream (self : Manifest) : ByteArray :=
  (self.updateExecutionTrustHash Hasher.new).fed

/-- `digest` is the hash function with its rendering as a hexadecimal string. -/
def executionTrustHash (digest : ByteArray → String) (self : Manifest) : String :=
  digest self.executionTrustStream

/-- The bytes fed to the hasher by `execution_trust_hash_with_files`. -/
def executionTrustStreamWithFiles (readFile : String → Except String ByteArray)
    (self : Manifest) : Except DevRelayError ByteArray := do
  let hasher ← updateFingerprintFileHashes readFile self
    (self.updateExecutionTrustHash Hasher.new)
  return hasher.fed

def executionTrustHashWithFiles (digest : ByteArray → String)
    (readFile : String → Except String ByteArray) (self : Manifest) :
    Except DevRelayError String := do
  return digest (← self.executionTrustStreamWithFiles readFile)

/-- What the approval of a manifest is about: the command and the health check of every
profile, and the profile and the command of every task, in the order of the maps. -/
def executionFields (self : Manifest) :
    List (String × List String × Option (List String)) ×
      List (String × String × List String) :=
  (self.profiles.map fun entry => (entry.1, entry.2.command, entry.2.healthcheck),
    self.tasks.entries.map fun entry => (entry.1, entry.2.profile, entry.2.command))

end Manifest

/-! ## The stream as a sequence of fields -/

/-- The fields with a zero character after each. -/
def framedText : List String → String
  | [] => ""
  | value :: values => value ++ "\x00" ++ framedText values

theorem toList_framedText (values : List String) :
    (framedText values).toList = frame '\x00' (values.map String.toList) := by
  induction values with
  | nil => rfl
  | cons value values ih =>
    rw [framedText, String.toList_append, String.toList_append, ih, List.map_cons,
      frame_cons, List.append_assoc]
    rfl

theorem framedText_append (xs ys : List String) :
    framedText (xs ++ ys) = framedText xs ++ framedText ys := by
  apply String.toList_inj.mp
  rw [String.toList_append, toList_framedText, toList_framedText, toList_framedText,
    List.map_append, frame_append]

/-- Feed the framed fields. -/
def Hasher.feed (self : Hasher) (values : List String) : Hasher :=
  self.update (framedText values).toUTF8

theorem Hasher.feed_append (self : Hasher) (xs ys : List String) :
    self.feed (xs ++ ys) = (self.feed xs).feed ys := by
  unfold Hasher.feed Hasher.update
  rw [framedText_append]
  simp only [String.toUTF8_eq_toByteArray, String.toByteArray_append, ByteArray.append_assoc]

theorem Hasher.feed_nil (self : Hasher) : self.feed [] = self := by
  unfold Hasher.feed Hasher.update
  simp [framedText]

theorem updateHashField_eq (hasher : Hasher) (value : String) :
    updateHashField hasher value = hasher.feed [value] := by
  have hzero : (⟨#[0]⟩ : ByteArray) = "\x00".toByteArray := rfl
  unfold updateHashField Hasher.feed Hasher.update
  simp only [framedText, String.append_empty, String.toUTF8_eq_toByteArray,
    String.toByteArray_append, hzero, ByteArray.append_assoc]

/-- A loop that feeds the fields of each entry feeds all of them. -/
theorem foldl_feed {ε : Type} {f : Hasher → ε → Hasher} {fields : ε → List String}
    (h : ∀ hasher entry, f hasher entry = hasher.feed (fields entry)) (entries : List ε)
    (hasher : Hasher) : entries.foldl f hasher = hasher.feed (entries.flatMap fields) := by
  induction entries generalizing hasher with
  | nil => exact hasher.feed_nil.symm
  | cons entry entries ih =>
    rw [List.foldl_cons, h, ih, List.flatMap_cons, Hasher.feed_append]

theorem updateHashCommand_eq (hasher : Hasher) (field : String) (values : List String) :
    updateHashCommand hasher field values = hasher.feed (field :: values) := by
  rw [updateHashCommand, foldl_feed updateHashField_eq, updateHashField_eq,
    ← Hasher.feed_append, List.flatMap_singleton']
  rfl

def healthcheckFields : Option (List String) → List String
  | none => []
  | some healthcheck => "healthcheck" :: healthcheck

def profileFields (entry : String × EnvironmentProfile) : List String :=
  "environment.profile" :: entry.1 :: "command" ::
    (entry.2.command ++ healthcheckFields entry.2.healthcheck)

def taskFields (entry : String × TaskConfig) : List String :=
  "task" :: entry.1 :: entry.2.profile :: "command" :: entry.2.command

theorem updateHashProfile_eq (hasher : Hasher) (entry : String × EnvironmentProfile) :
    updateHashProfile hasher entry = hasher.feed (profileFields entry) := by
  unfold updateHashProfile profileFields
  simp only [updateHashField_eq, updateHashCommand_eq]
  cases entry.2.healthcheck with
  | none =>
    rw [healthcheckFields, List.append_nil]
    simp only [← Hasher.feed_append, List.cons_append, List.nil_append]
  | some healthcheck =>
    simp only [healthcheckFields, ← Hasher.feed_append, List.cons_append, List.nil_append]

theorem updateHashTask_eq (hasher : Hasher) (entry : String × TaskConfig) :
    updateHashTask hasher entry = hasher.feed (taskFields entry) := by
  unfold updateHashTask taskFields
  simp only [updateHashField_eq, updateHashCommand_eq, ← Hasher.feed_append,
    List.cons_append, List.nil_append]

namespace Manifest

/-- All fields in the order in which they are fed. -/
def hashedFields (self : Manifest) : List String :=
  "devrelay.execution-trust.v1" ::
    (self.profiles.flatMap profileFields ++ self.tasks.entries.flatMap taskFields)

theorem updateExecutionTrustHash_eq (self : Manifest) :
    self.updateExecutionTrustHash Hasher.new = Hasher.new.feed self.hashedFields := by
  unfold updateExecutionTrustHash
  rw [foldl_feed updateHashTask_eq, foldl_feed updateHashProfile_eq, updateHashField_eq,
    ← Hasher.feed_append, ← Hasher.feed_append]
  simp [hashedFields]

theorem fed_feed (values : List String) :
    (Hasher.new.feed values).fed = (framedText values).toByteArray := by
  simp [Hasher.feed, Hasher.update, Hasher.new]

theorem executionTrustStream_eq (self : Manifest) :
    self.executionTrustStream = (framedText self.hashedFields).toByteArray := by
  rw [executionTrustStream, updateExecutionTrustHash_eq, fed_feed]

/-- Two streams are equal when the framed fields are. -/
theorem executionTrustStream_eq_iff {m m' : Manifest} :
    m.executionTrustStream = m'.executionTrustStream ↔
      frame '\x00' (m.hashedFields.map String.toList) =
        frame '\x00' (m'.hashedFields.map String.toList) := by
  rw [executionTrustStream_eq, executionTrustStream_eq, String.toByteArray_inj,
    ← toList_framedText, ← toList_framedText, String.toList_inj]

/-- The fields after the name of the first profile. -/
def fieldsAfterName (profile : EnvironmentProfile)
    (rest : List (String × EnvironmentProfile)) (tasks : List (String × TaskConfig)) :
    List String :=
  profile.command ++ (healthcheckFields profile.healthcheck ++
    (rest.flatMap profileFields ++ tasks.flatMap taskFields))

theorem hashedFields_cons {self : Manifest} {name : String}
    {profile : EnvironmentProfile} {rest : List (String × EnvironmentProfile)}
    (h : self.profiles = (name, profile) :: rest) :
    self.hashedFields = ["devrelay.execution-trust.v1", "environment.profile"] ++
      name :: "command" :: fieldsAfterName profile rest self.tasks.entries := by
  rw [hashedFields, h, List.flatMap_cons]
  simp [profileFields, fieldsAfterName]

end Manifest

/-! ## Fingerprint files -/

/-- What is fed for one file. -/
def fileRecord (profileName relative : String) (bytes : ByteArray) : ByteArray :=
  (framedText ["environment.profile.fingerprint_file", profileName, relative]).toByteArray ++
    (toLeBytes (UInt64.ofNat bytes.size) ++ ⟨#[0]⟩ ++ bytes ++ ⟨#[0]⟩)

theorem updateFingerprintFile_eq_ok {readFile : String → Except String ByteArray}
    {profileName relative : String} {hasher result : Hasher} :
    updateFingerprintFile readFile profileName hasher relative = .ok result ↔
      ∃ path bytes, resolveFingerprintFile relative = .ok path ∧
        readFile path = .ok bytes ∧
        result = hasher.update (fileRecord profileName relative bytes) := by
  have hfed : ∀ bytes : ByteArray,
      ((((updateHashField (updateHashField (updateHashField hasher
        "environment.profile.fingerprint_file") profileName) relative).update
        (toLeBytes (UInt64.ofNat bytes.size))).update ⟨#[0]⟩).update bytes).update ⟨#[0]⟩ =
      hasher.update (fileRecord profileName relative bytes) := by
    intro bytes
    simp only [updateHashField_eq, ← Hasher.feed_append, List.cons_append, List.nil_append]
    simp only [Hasher.feed, Hasher.update, fileRecord, String.toUTF8_eq_toByteArray,
      ByteArray.append_assoc]
  unfold updateFingerprintFile
  rw [bind_eq_ok_iff]
  constructor
  · rintro ⟨path, hpath, h⟩
    cases hread : readFile path with
    | error err =>
      rw [hread] at h
      cases h
    | ok bytes =>
      rw [hread] at h
      cases h
      exact ⟨path, bytes, hpath, hread, hfed bytes⟩
  · rintro ⟨path, bytes, hpath, hread, rfl⟩
    refine ⟨path, hpath, ?_⟩
    rw [hread]
    exact congrArg Except.ok (hfed bytes)

/-- Nothing has been fed since, or more than four bytes. -/
def Grown (hasher result : Hasher) : Prop :=
  ∃ fed, result = hasher.update fed ∧ (fed = ByteArray.empty ∨ 5 ≤ fed.size)

theorem Grown.refl (hasher : Hasher) : Grown hasher hasher :=
  ⟨ByteArray.empty, by simp [Hasher.update], Or.inl rfl⟩

theorem grown_foldlM {α : Type} {f : Hasher → α → Except DevRelayError Hasher}
    (hf : ∀ hasher x result, f hasher x = .ok result → Grown hasher result) {xs : List α}
    {hasher result : Hasher} (h : xs.foldlM f hasher = .ok result) : Grown hasher result := by
  induction xs generalizing hasher with
  | nil =>
    cases h
    exact .refl _
  | cons x xs ih =>
    rw [List.foldlM_cons] at h
    obtain ⟨next, hnext, hrest⟩ := bind_eq_ok_iff.mp h
    obtain ⟨fed, rfl, hfed⟩ := hf hasher x next hnext
    obtain ⟨fed', rfl, hfed'⟩ := ih hrest
    refine ⟨fed ++ fed', by simp [Hasher.update, ByteArray.append_assoc], ?_⟩
    rcases hfed with rfl | hlong
    · rwa [ByteArray.empty_append]
    · right
      rw [ByteArray.size_append]
      omega

theorem grown_updateFingerprintFileHashes {readFile : String → Except String ByteArray}
    {self : Manifest} {hasher result : Hasher}
    (h : updateFingerprintFileHashes readFile self hasher = .ok result) :
    Grown hasher result := by
  refine grown_foldlM (fun hasher entry result h => ?_) h
  refine grown_foldlM (fun hasher relative result h => ?_) h
  obtain ⟨path, bytes, -, -, rfl⟩ := updateFingerprintFile_eq_ok.mp h
  refine ⟨_, rfl, Or.inr ?_⟩
  have hlength : (toLeBytes (UInt64.ofNat bytes.size)).size = 8 := rfl
  simp only [fileRecord, ByteArray.size_append, hlength]
  omega

/-- An empty file is fed as text. -/
def emptyFileFields (profileName relative : String) : List String :=
  ["environment.profile.fingerprint_file", profileName, relative] ++ List.replicate 10 ""

theorem fileRecord_empty (profileName relative : String) :
    fileRecord profileName relative ByteArray.empty =
      (framedText (emptyFileFields profileName relative)).toByteArray := by
  have hzeros : toLeBytes (UInt64.ofNat ByteArray.empty.size) ++ ⟨#[0]⟩ ++ ByteArray.empty ++
      ⟨#[0]⟩ = (framedText (List.replicate 10 "")).toByteArray := rfl
  rw [fileRecord, hzeros, emptyFileFields, framedText_append, String.toByteArray_append]

namespace Manifest

/-- A root below which every fingerprint file can be read. -/
def ReadBy (self : Manifest) (readFile : String → Except String ByteArray) : Prop :=
  ∀ entry ∈ self.profiles, ∀ relative ∈ entry.2.fingerprintFiles,
    ∃ path bytes, resolveFingerprintFile relative = .ok path ∧ readFile path = .ok bytes

/-- The same root with all files empty. -/
def emptied (readFile : String → Except String ByteArray) (path : String) :
    Except String ByteArray :=
  (readFile path).map fun _ => ByteArray.empty

/-- What the fingerprint files add to the stream. -/
theorem executionTrustStreamWithFiles_eq_ok {readFile : String → Except String ByteArray}
    {self : Manifest} {stream : ByteArray}
    (h : self.executionTrustStreamWithFiles readFile = .ok stream) :
    ∃ fed, stream = self.executionTrustStream ++ fed ∧
      (fed = ByteArray.empty ∨ self.profiles ≠ [] ∧ 5 ≤ fed.size) := by
  obtain ⟨result, hfiles, hstream⟩ := bind_eq_ok_iff.mp h
  cases hstream
  cases hprofiles : self.profiles with
  | nil =>
    rw [updateFingerprintFileHashes, hprofiles] at hfiles
    cases hfiles
    exact ⟨ByteArray.empty, ByteArray.append_empty.symm, Or.inl rfl⟩
  | cons entry rest =>
    obtain ⟨fed, rfl, hfed⟩ := grown_updateFingerprintFileHashes hfiles
    exact ⟨fed, rfl, hfed.imp_right fun hlong => ⟨List.cons_ne_nil _ _, hlong⟩⟩

/-- Of one profile, the stream is fed the files in their order. -/
theorem executionTrustStreamWithFiles_single {readFile : String → Except String ByteArray}
    {self : Manifest} {name : String} {profile : EnvironmentProfile}
    (h : self.profiles = [(name, profile)]) :
    self.executionTrustStreamWithFiles readFile =
      ((profile.fingerprintFiles.mergeSort fun a b => decide (a ≤ b)).foldlM
        (updateFingerprintFile readFile name)
        (Hasher.new.feed self.hashedFields)).map Hasher.fed := by
  rw [executionTrustStreamWithFiles, updateExecutionTrustHash_eq, updateFingerprintFileHashes, h,
    List.foldlM_cons]
  cases (profile.fingerprintFiles.mergeSort fun a b => decide (a ≤ b)).foldlM
    (updateFingerprintFile readFile name) (Hasher.new.feed self.hashedFields) <;> rfl

theorem foldlM_emptied {readFile : String → Except String ByteArray} {name : String}
    {files : List String}
    (h : ∀ relative ∈ files, ∃ path bytes, resolveFingerprintFile relative = .ok path ∧
      readFile path = .ok bytes) (values : List String) :
    files.foldlM (updateFingerprintFile (emptied readFile) name) (Hasher.new.feed values) =
      .ok (Hasher.new.feed (values ++ files.flatMap (emptyFileFields name))) := by
  induction files generalizing values with
  | nil => rw [List.flatMap_nil, List.append_nil]; rfl
  | cons relative files ih =>
    rw [List.forall_mem_cons] at h
    obtain ⟨⟨path, bytes, hpath, hread⟩, hrest⟩ := h
    have hfile : updateFingerprintFile (emptied readFile) name (Hasher.new.feed values)
        relative = .ok (Hasher.new.feed (values ++ emptyFileFields name relative)) := by
      refine updateFingerprintFile_eq_ok.mpr
        ⟨path, ByteArray.empty, hpath, by rw [emptied, hread]; rfl, ?_⟩
      rw [fileRecord_empty, Hasher.feed_append]
      rfl
    rw [List.foldlM_cons, hfile]
    show files.foldlM _ _ = _
    rw [ih hrest, List.flatMap_cons, List.append_assoc]

end Manifest

end DevRelay.Core
