import DevRelay.Manifest.TrustHash

/-!
# What the execution trust hash binds

A manifest is bound when no other valid manifest with different commands feeds
the same bytes, to the hash of the manifest alone or to the one with fingerprint
files, whatever these hold.  Since everything after the first profile's name can be
read as one argument with zero characters in it, the contents of fingerprint files
included, only a single profile with one argument and no such files is bound.
-/

namespace DevRelay.Core

open DevRelay.Lib

namespace Manifest

/-- The manifest with one profile, under another name and with another command, and
without tasks. -/
def respell (self : Manifest) (profile : EnvironmentProfile) (name : String)
    (command : List String) : Manifest :=
  { self with
    environment := some ⟨.singleton name
      { profile with command := command, healthcheck := none, fingerprintFiles := [] }⟩
    tasks := .empty }

/-- What reading a path below the root of a manifest gives. -/
abbrev Root : Type := String → Except String ByteArray

/-- No other valid manifest with different commands feeds the same bytes, to either hash
and below any of the roots. -/
def Bound (roots : Set Root) (self : Manifest) : Prop :=
  ∀ m' : Manifest, m'.validate = .ok () → self.executionFields ≠ m'.executionFields →
    self.executionTrustStream ≠ m'.executionTrustStream ∧
    ∀ root ∈ roots, ∀ root' ∈ roots, ∀ stream,
      self.executionTrustStreamWithFiles root = .ok stream →
      m'.executionTrustStreamWithFiles root' ≠ .ok stream

/-- There are no profiles; or there is one, without health check and tasks, its command
is one argument with no zero character strictly inside, its name does not end or
continue with the tag of the command, and it has no fingerprint files or some that
cannot be read. -/
def Unambiguous (roots : Set Root) (self : Manifest) : Prop :=
  self.profiles = [] ∨
    ∃ name profile arg, self.profiles = [(name, profile)] ∧ profile.command = [arg] ∧
      profile.healthcheck = none ∧ self.tasks.entries = [] ∧
      '\x00' ∉ arg.toList.tail.dropLast ∧
      ¬marker '\x00' "command".toList <:+: name.toList ++ ['\x00'] ∧
      (profile.fingerprintFiles = [] ∨ ¬∃ root ∈ roots, self.ReadBy root)

variable {roots : Set Root} {m m' : Manifest} {name name' : String}
  {profile profile' : EnvironmentProfile} {rest rest' : List (String × EnvironmentProfile)}

theorem zero_notMem_command : '\x00' ∉ "command".toList := by decide

/-- The text of the fields after the name of the first profile. -/
def textAfterName (profile : EnvironmentProfile)
    (rest : List (String × EnvironmentProfile)) (tasks : List (String × TaskConfig)) :
    List Char :=
  frame '\x00' ((fieldsAfterName profile rest tasks).map String.toList)

/-- The text of the fields of a manifest with profiles. -/
theorem frame_hashedFields (h : m.profiles = (name, profile) :: rest) :
    frame '\x00' (m.hashedFields.map String.toList) =
      frame '\x00' ["devrelay.execution-trust.v1".toList, "environment.profile".toList] ++
        (name.toList ++ (marker '\x00' "command".toList ++
          textAfterName profile rest m.tasks.entries)) := by
  rw [hashedFields_cons h, List.map_append, frame_append, marker_append]
  simp only [List.map_cons, List.map_nil, frame_cons, textAfterName]

/-- What follows the arguments of a command is nothing, or starts with a tag. -/
theorem following_cases (healthcheck : Option (List String))
    (rest : List (String × EnvironmentProfile)) (tasks : List (String × TaskConfig)) :
    (healthcheck = none ∧ rest = [] ∧ tasks = []) ∨
      ∃ tag fields, tag ∈ ["healthcheck", "environment.profile", "task"] ∧
        healthcheckFields healthcheck ++
          (rest.flatMap profileFields ++ tasks.flatMap taskFields) = tag :: fields := by
  cases healthcheck with
  | some healthcheck => exact Or.inr ⟨"healthcheck", _, by simp, rfl⟩
  | none =>
    cases rest with
    | cons entry rest => exact Or.inr ⟨"environment.profile", _, by simp, rfl⟩
    | nil =>
      cases tasks with
      | cons entry tasks => exact Or.inr ⟨"task", _, by simp, rfl⟩
      | nil => exact Or.inl ⟨rfl, rfl, rfl⟩

/-- The fields of a valid manifest after its first profile's name start with a non-empty
argument, and nothing follows it or at least two symbols do. -/
theorem textAfterName_valid (hvalid : m.validate = .ok ())
    (h : m.profiles = (name, profile) :: rest) :
    ∃ arg args, profile.command = arg :: args ∧ arg.toList ≠ [] ∧
      ∃ more, textAfterName profile rest m.tasks.entries = arg.toList ++ '\x00' :: more ∧
        (2 ≤ more.length ∨
          more = [] ∧ args = [] ∧ profile.healthcheck = none ∧ rest = [] ∧
            m.tasks.entries = []) := by
  obtain ⟨-, hprofiles, -, -⟩ := validate_eq_ok.mp hvalid
  have hprofile := hprofiles (name, profile) (h ▸ List.mem_cons_self)
  obtain ⟨-, ⟨hne, hempty⟩, -, -⟩ := validateProfile_eq_ok.mp hprofile
  obtain ⟨arg, args, hcommand⟩ := List.exists_cons_of_ne_nil hne
  change profile.command = arg :: args at hcommand
  change "" ∉ profile.command at hempty
  rw [hcommand] at hempty
  have hnonempty : ∀ s ∈ arg :: args, s.toList ≠ [] := by
    intro s hs hnil
    rw [String.toList_eq_nil_iff.mp hnil] at hs
    exact hempty hs
  refine ⟨arg, args, hcommand, hnonempty arg List.mem_cons_self, ?_⟩
  unfold textAfterName fieldsAfterName
  rw [hcommand, List.cons_append, List.map_cons, frame_cons]
  refine ⟨_, rfl, ?_⟩
  cases args with
  | cons next args =>
    refine Or.inl ?_
    rw [List.cons_append, List.map_cons]
    exact two_le_length_frame
      (hnonempty next (List.mem_cons_of_mem _ List.mem_cons_self))
  | nil =>
    rw [List.nil_append]
    rcases following_cases profile.healthcheck rest m.tasks.entries with
      ⟨hhealth, hrest, htasks⟩ | ⟨tag, fields, htag, hfields⟩
    · refine Or.inr ⟨?_, rfl, hhealth, hrest, htasks⟩
      rw [hhealth, hrest, htasks]
      rfl
    · refine Or.inl ?_
      rw [hfields, List.map_cons]
      refine two_le_length_frame ?_
      intro hnil
      rw [String.toList_eq_nil_iff.mp hnil] at htag
      revert htag
      decide

/-! ## Bound manifests -/

theorem hashedFields_of_no_profiles (hvalid : m.validate = .ok ())
    (h : m.profiles = []) : m.hashedFields = ["devrelay.execution-trust.v1"] := by
  rw [hashedFields, h, tasks_eq_nil hvalid h]
  rfl

/-- What a manifest may feed after its fields: nothing, or fingerprint files. -/
def IsTail (manifest : Manifest) (tail : List Char) : Prop :=
  tail = [] ∨ manifest.profiles ≠ [] ∧ 2 ≤ tail.length

theorem isTail_nil : m.IsTail [] := Or.inl rfl

/-- The fields of a profile are not read where there is none. -/
theorem frame_ne_of_profiles (hvalid : m.validate = .ok ()) (h : m.profiles = [])
    (h' : m'.profiles = (name', profile') :: rest') (tail : List Char) :
    frame '\x00' (m.hashedFields.map String.toList) ≠
      frame '\x00' (m'.hashedFields.map String.toList) ++ tail := by
  intro heq
  rw [hashedFields_of_no_profiles hvalid h, hashedFields_cons h', List.map_append,
    frame_append, List.append_assoc] at heq
  have hlength := congrArg List.length heq
  simp at hlength

/-- The single argument of an unambiguous manifest is read back whole. -/
theorem executionFields_eq_of_single_argument {arg : String}
    (h : m.profiles = [(name, profile)]) (hcommand : profile.command = [arg])
    (hhealth : profile.healthcheck = none) (htasks : m.tasks.entries = [])
    (harg : '\x00' ∉ arg.toList.tail.dropLast)
    (hname : ¬marker '\x00' "command".toList <:+: name.toList ++ ['\x00'])
    (hvalid' : m'.validate = .ok ()) {tail : List Char} (htail : m'.IsTail tail)
    (heq : frame '\x00' (m.hashedFields.map String.toList) =
      frame '\x00' (m'.hashedFields.map String.toList) ++ tail) :
    m.executionFields = m'.executionFields := by
  have htext : textAfterName profile [] m.tasks.entries = arg.toList ++ ['\x00'] := by
    rw [textAfterName, fieldsAfterName, hcommand, hhealth, htasks]
    simp [healthcheckFields]
  cases h' : m'.profiles with
  | nil =>
    rcases htail with rfl | ⟨hprofiles, -⟩
    · rw [List.append_nil] at heq
      refine absurd ?_ (frame_ne_of_profiles hvalid' h' h [])
      rw [List.append_nil, heq]
    · exact absurd h' hprofiles
  | cons entry rest' =>
    obtain ⟨name', profile'⟩ := entry
    obtain ⟨arg', args', hcommand', harg', more, htext', hmore⟩ :=
      textAfterName_valid hvalid' h'
    rw [frame_hashedFields h, frame_hashedFields h', htext, htext', List.append_assoc,
      List.append_cancel_left_eq, List.append_assoc, List.append_assoc, List.append_assoc,
      List.cons_append] at heq
    have htail' : tail = [] ∨ 2 ≤ tail.length := htail.imp_right And.right
    rcases append_marker_cases zero_notMem_command heq with
      ⟨hsame, hrest⟩ | ⟨u, hprefix, -⟩ | ⟨u, -, hinside⟩
    · -- the same name: the argument cannot be split
      have hshort : more ++ tail = [] ∨ 2 ≤ (more ++ tail).length := by
        rw [List.length_append]
        rcases hmore with hlong | ⟨rfl, -⟩
        · exact Or.inr (by omega)
        · rcases htail' with rfl | hlong
          · exact Or.inl rfl
          · exact Or.inr (by omega)
      obtain ⟨hargs, hnil⟩ := eq_of_append_terminator harg harg' hshort hrest
      rcases hmore with hlong | ⟨-, rfl, hhealth', rfl, htasks'⟩
      · rw [(List.append_eq_nil_iff.mp hnil).1] at hlong
        exact absurd hlong (by decide)
      · rw [executionFields, executionFields, h, h', htasks, htasks']
        simp only [List.map_cons, List.map_nil, hcommand, hcommand', hhealth, hhealth',
          String.toList_inj.mp hsame, String.toList_inj.mp hargs]
    · exact absurd ⟨_, _, hprefix.symm⟩ hname
    · -- a longer name would end inside the argument
      have hpos := List.length_pos_iff.mpr harg'
      have hlong : arg'.toList ++ '\x00' :: (more ++ tail) = [] ∨
          2 ≤ (arg'.toList ++ '\x00' :: (more ++ tail)).length := by
        rw [List.length_append, List.length_cons]
        omega
      have hleft : u ++ "command".toList ≠ [] := by simp
      obtain ⟨-, hnil⟩ := eq_of_append_terminator harg hleft hlong hinside
      exact absurd hnil (List.append_ne_nil_of_left_ne_nil harg' _)

theorem executionFields_eq_of_no_profiles (hvalid : m.validate = .ok ())
    (h : m.profiles = []) (hvalid' : m'.validate = .ok ()) {tail : List Char}
    (heq : frame '\x00' (m.hashedFields.map String.toList) =
      frame '\x00' (m'.hashedFields.map String.toList) ++ tail) :
    m.executionFields = m'.executionFields := by
  cases h' : m'.profiles with
  | nil =>
    rw [executionFields, executionFields, h, h', tasks_eq_nil hvalid h, tasks_eq_nil hvalid' h']
  | cons entry rest' => exact absurd heq (frame_ne_of_profiles hvalid h h' tail)

/-- Bytes that complete a text to a text are one. -/
theorem exists_tail_of_append {text text' : List Char} {fed : ByteArray}
    (h : text.utf8Encode = text'.utf8Encode ++ fed) :
    ∃ tail, text = text' ++ tail ∧ fed.size ≤ 4 * tail.length := by
  obtain ⟨tail, rfl⟩ := List.isPrefix_of_utf8Encode_append_eq_utf8Encode fed h.symm
  refine ⟨tail, rfl, ?_⟩
  rw [List.utf8Encode_append, ByteArray.append_right_inj] at h
  rw [← h]
  clear h
  induction tail with
  | nil => exact Nat.le_refl 0
  | cons c tail ih =>
    have hc := c.utf8Size_le_four
    rw [← List.singleton_append, List.utf8Encode_append, ByteArray.size_append,
      List.length_append, List.length_singleton, List.utf8Encode_singleton,
      List.size_toByteArray, String.length_utf8EncodeChar]
    omega

theorem executionTrustStream_utf8 (self : Manifest) :
    self.executionTrustStream =
      (frame '\x00' (self.hashedFields.map String.toList)).utf8Encode := by
  rw [executionTrustStream_eq, ← toList_framedText, String.utf8Encode_toList]

/-- Equal streams are equal texts, but for what one of them says of fingerprint files. -/
theorem exists_isTail {root : Root} {stream : ByteArray} (h : m.executionTrustStream = stream)
    (h' : m'.executionTrustStreamWithFiles root = .ok stream) :
    ∃ tail, m'.IsTail tail ∧ frame '\x00' (m.hashedFields.map String.toList) =
      frame '\x00' (m'.hashedFields.map String.toList) ++ tail := by
  obtain ⟨fed, heq, hfed⟩ := executionTrustStreamWithFiles_eq_ok h'
  rw [← h, executionTrustStream_utf8, executionTrustStream_utf8] at heq
  rcases hfed with rfl | ⟨hprofiles, hlong⟩
  · rw [ByteArray.append_empty] at heq
    rw [← String.toByteArray_ofList, ← String.toByteArray_ofList, String.toByteArray_inj,
      String.ofList_inj] at heq
    exact ⟨[], isTail_nil, by rw [List.append_nil, heq]⟩
  · obtain ⟨tail, htext, hsize⟩ := exists_tail_of_append heq
    exact ⟨tail, Or.inr ⟨hprofiles, by omega⟩, htext⟩

/-- Without fingerprint files both hashes are of the same bytes. -/
theorem executionTrustStreamWithFiles_of_no_files {root : Root}
    (h : ∀ entry ∈ m.profiles, entry.2.fingerprintFiles = []) :
    m.executionTrustStreamWithFiles root = .ok m.executionTrustStream := by
  have hfiles : ∀ hasher, updateFingerprintFileHashes root m hasher = .ok hasher := by
    unfold updateFingerprintFileHashes
    generalize m.profiles = profiles at h
    induction profiles with
    | nil =>
      intro hasher
      rfl
    | cons entry profiles ih =>
      intro hasher
      rw [List.foldlM_cons, h entry List.mem_cons_self, List.mergeSort_nil]
      exact ih (fun e he => h e (List.mem_cons_of_mem _ he)) hasher
  rw [executionTrustStreamWithFiles, hfiles]
  rfl

/-- Where the text of a manifest is read as of no other commands, and its fingerprint
files add nothing, it is bound. -/
theorem bound_of_reads
    (hreads : ∀ (m' : Manifest) (tail : List Char), m'.validate = .ok () → m'.IsTail tail →
      frame '\x00' (m.hashedFields.map String.toList) =
        frame '\x00' (m'.hashedFields.map String.toList) ++ tail →
      m.executionFields = m'.executionFields)
    (hfiles : ∀ root ∈ roots, ∀ stream, m.executionTrustStreamWithFiles root = .ok stream →
      m.executionTrustStream = stream) : m.Bound roots := by
  intro m' hvalid' hne
  constructor
  · intro heq
    refine hne (hreads m' [] hvalid' isTail_nil ?_)
    rw [List.append_nil]
    exact executionTrustStream_eq_iff.mp heq
  · intro root hroot root' _ stream hstream hstream'
    obtain ⟨tail, htail, heq⟩ := exists_isTail (hfiles root hroot stream hstream) hstream'
    exact hne (hreads m' tail hvalid' htail heq)

theorem readBy_of_stream {root : Root} {stream : ByteArray} (h : m.profiles = [(name, profile)])
    (hstream : m.executionTrustStreamWithFiles root = .ok stream) : m.ReadBy root := by
  rw [executionTrustStreamWithFiles_single h] at hstream
  have hread : ∀ (files : List String) (hasher result : Hasher),
      files.foldlM (updateFingerprintFile root name) hasher = .ok result →
      ∀ relative ∈ files, ∃ path bytes, resolveFingerprintFile relative = .ok path ∧
        root path = .ok bytes := by
    intro files
    induction files with
    | nil => exact fun _ _ _ relative hmem => absurd hmem List.not_mem_nil
    | cons file files ih =>
      intro hasher result hfold
      rw [List.foldlM_cons] at hfold
      obtain ⟨next, hnext, hrest⟩ := bind_eq_ok_iff.mp hfold
      obtain ⟨path, bytes, hpath, hbytes, -⟩ := updateFingerprintFile_eq_ok.mp hnext
      exact List.forall_mem_cons.mpr ⟨⟨path, bytes, hpath, hbytes⟩, ih next result hrest⟩
  have hfold : ∃ result, (profile.fingerprintFiles.mergeSort fun a b =>
      decide (a ≤ b)).foldlM (updateFingerprintFile root name)
        (Hasher.new.feed m.hashedFields) = .ok result := by
    revert hstream
    cases (profile.fingerprintFiles.mergeSort fun a b => decide (a ≤ b)).foldlM
        (updateFingerprintFile root name) (Hasher.new.feed m.hashedFields) with
    | error e => exact fun hstream => nomatch hstream
    | ok result => exact fun _ => ⟨result, rfl⟩
  obtain ⟨result, hfold⟩ := hfold
  intro entry hentry relative hrelative
  rw [h, List.mem_singleton] at hentry
  subst hentry
  exact hread _ _ _ hfold relative (List.mem_mergeSort.mpr hrelative)

theorem bound_of_unambiguous (hvalid : m.validate = .ok ()) (h : m.Unambiguous roots) :
    m.Bound roots := by
  rcases h with hnone | ⟨name, profile, arg, hprofiles, hcommand, hhealth, htasks, harg,
    hname, hfiles⟩
  · refine bound_of_reads
      (fun m' tail hvalid' _ => executionFields_eq_of_no_profiles hvalid hnone hvalid') ?_
    intro root _ stream hstream
    rw [executionTrustStreamWithFiles_of_no_files (by rw [hnone]; exact fun _ h => nomatch h)]
      at hstream
    exact Except.ok.inj hstream
  · refine bound_of_reads (fun m' tail hvalid' htail => executionFields_eq_of_single_argument
      hprofiles hcommand hhealth htasks harg hname hvalid' htail) ?_
    intro root hroot stream hstream
    rcases hfiles with hnone | hunread
    · have hall : ∀ entry ∈ m.profiles, entry.2.fingerprintFiles = [] := by
        intro entry hentry
        rw [hprofiles, List.mem_singleton] at hentry
        rw [hentry]
        exact hnone
      rw [executionTrustStreamWithFiles_of_no_files hall] at hstream
      exact Except.ok.inj hstream
    · exact absurd ⟨root, hroot, readBy_of_stream hprofiles hstream⟩ hunread

/-! ## Collisions -/

theorem validate_respell (hvalid : m.validate = .ok ())
    (h : m.profiles = (name, profile) :: rest) {command : List String}
    (hcommand : command ≠ [] ∧ "" ∉ command) :
    (m.respell profile name' command).validate = .ok () := by
  obtain ⟨hheader, hprofiles, hsecrets, -⟩ := validate_eq_ok.mp hvalid
  have hprofile := hprofiles (name, profile) (h ▸ List.mem_cons_self)
  obtain ⟨htargets, -, -, -⟩ := validateProfile_eq_ok.mp hprofile
  refine validate_eq_ok.mpr ⟨hheader, ?_, hsecrets, ?_⟩
  · intro entry hentry
    obtain rfl := List.mem_singleton.mp hentry
    refine validateProfile_eq_ok.mpr ⟨htargets, hcommand, List.nodup_nil, ?_⟩
    intro healthcheck hsome
    cases hsome
  · intro entry hentry
    cases hentry

/-- The text of a respelled manifest. -/
theorem frame_hashedFields_respell (newName : String) (command : List String) :
    frame '\x00' ((m.respell profile newName command).hashedFields.map String.toList) =
      frame '\x00' ["devrelay.execution-trust.v1".toList, "environment.profile".toList] ++
        (newName.toList ++ (marker '\x00' "command".toList ++
          frame '\x00' (command.map String.toList))) := by
  have hprofiles : (m.respell profile newName command).profiles = (newName, _) :: [] := rfl
  rw [frame_hashedFields hprofiles, textAfterName, fieldsAfterName]
  simp [respell, healthcheckFields]

/-- A respelled manifest that reads the same from the name on breaks the binding. -/
theorem not_bound_of_respell (hvalid : m.validate = .ok ())
    (h : m.profiles = (name, profile) :: rest) (newName : String)
    (command : List String) (hcommand : command ≠ [] ∧ "" ∉ command)
    (htext : name.toList ++ (marker '\x00' "command".toList ++
        textAfterName profile rest m.tasks.entries) =
      newName.toList ++ (marker '\x00' "command".toList ++
        frame '\x00' (command.map String.toList)))
    (hne : m.executionFields ≠ ([(newName, command, none)], [])) : ¬m.Bound roots := by
  intro hbound
  refine (hbound (m.respell profile newName command)
    (validate_respell hvalid h hcommand) hne).1 ?_
  rw [executionTrustStream_eq_iff, frame_hashedFields h, frame_hashedFields_respell, htext]

/-- Everything after the first profile's name, read as one argument. -/
theorem not_bound_of_not_single (hvalid : m.validate = .ok ())
    (h : m.profiles = (name, profile) :: rest)
    (hmany : ¬∃ arg, profile.command = [arg] ∧ profile.healthcheck = none ∧ rest = [] ∧
      m.tasks.entries = []) : ¬m.Bound roots := by
  obtain ⟨arg, args, hcommand, harg, more, htext, -⟩ := textAfterName_valid hvalid h
  let whole := String.ofList (textAfterName profile rest m.tasks.entries).dropLast
  have hwhole : frame '\x00' [whole.toList] = textAfterName profile rest m.tasks.entries := by
    rw [frame_cons, frame_nil, String.toList_ofList]
    refine dropLast_frame_append ?_
    rw [fieldsAfterName, hcommand]
    exact List.cons_ne_nil _ _
  have hnonempty : whole ≠ "" := by
    intro hempty
    have hone := congrArg List.length hwhole
    rw [htext, hempty] at hone
    have hpos := List.length_pos_iff.mpr harg
    simp at hone
    omega
  refine not_bound_of_respell hvalid h name [whole] ⟨List.cons_ne_nil _ _, ?_⟩ ?_ ?_
  · rw [List.mem_singleton]
    exact fun hempty => hnonempty hempty.symm
  · rw [List.map_singleton, hwhole]
  · intro hfields
    obtain ⟨hprofiles, htasks⟩ := Prod.mk.inj hfields
    rw [h, List.map_cons, List.cons.injEq, List.map_eq_nil_iff, Prod.mk.injEq,
      Prod.mk.injEq] at hprofiles
    exact hmany ⟨whole, hprofiles.1.2.1, hprofiles.1.2.2, hprofiles.2,
      List.map_eq_nil_iff.mp htasks⟩

/-- A zero character strictly inside the argument splits it in two. -/
theorem not_bound_of_inner_zero (hvalid : m.validate = .ok ()) {arg : String}
    (h : m.profiles = [(name, profile)]) (hcommand : profile.command = [arg])
    (hhealth : profile.healthcheck = none) (htasks : m.tasks.entries = [])
    (harg : '\x00' ∈ arg.toList.tail.dropLast) : ¬m.Bound roots := by
  obtain ⟨x, y, hx, hy, hsplit⟩ := mem_tail_dropLast_iff.mp harg
  have hstring : ∀ l : List Char, l ≠ [] → String.ofList l ≠ "" := by
    intro l hl hempty
    apply hl
    rw [← String.toList_ofList (l := l), hempty]
    rfl
  refine not_bound_of_respell hvalid h name [String.ofList x, String.ofList y]
    ⟨List.cons_ne_nil _ _, ?_⟩ ?_ ?_
  · intro hmem
    rcases List.mem_cons.mp hmem with hempty | hmem
    · exact hstring x hx hempty.symm
    · exact hstring y hy (List.mem_singleton.mp hmem).symm
  · rw [textAfterName, fieldsAfterName, hcommand, hhealth, htasks]
    simp [healthcheckFields, hsplit]
  · intro hfields
    rw [executionFields, h, htasks] at hfields
    simp [hcommand] at hfields

/-- A name that goes on with the tag of the command can end before it. -/
theorem not_bound_of_tag_in_name (hvalid : m.validate = .ok ()) {arg : String}
    (h : m.profiles = [(name, profile)]) (hcommand : profile.command = [arg])
    (hhealth : profile.healthcheck = none) (htasks : m.tasks.entries = [])
    (hname : marker '\x00' "command".toList <:+: name.toList ++ ['\x00']) : ¬m.Bound roots := by
  obtain ⟨x, y, hxy⟩ := hname
  refine not_bound_of_respell hvalid h (String.ofList x)
    [String.ofList (y ++ "command".toList ++ '\x00' :: arg.toList)]
    ⟨List.cons_ne_nil _ _, ?_⟩ ?_ ?_
  · intro hmem
    have hempty := congrArg String.toList (List.mem_singleton.mp hmem)
    simp at hempty
  · have htext : textAfterName profile [] m.tasks.entries = arg.toList ++ ['\x00'] := by
      rw [textAfterName, fieldsAfterName, hcommand, hhealth, htasks]
      simp [healthcheckFields]
    calc name.toList ++ (marker '\x00' "command".toList ++
          textAfterName profile [] m.tasks.entries)
        = (name.toList ++ ['\x00']) ++ ("command".toList ++ '\x00' :: arg.toList ++
            ['\x00']) := by
          rw [htext, marker_append]
          simp
      _ = x ++ (marker '\x00' "command".toList ++
            (y ++ "command".toList ++ '\x00' :: arg.toList ++ ['\x00'])) := by
          rw [← hxy]
          simp only [List.append_assoc]
      _ = _ := by
          simp
  · intro hfields
    have hlength := congrArg List.length hxy
    rw [executionFields, h, htasks] at hfields
    have hsame : name = String.ofList x := by
      simp at hfields
      exact hfields.1
    rw [hsame, String.toList_ofList] at hlength
    simp [marker] at hlength

/-- The fingerprint files of the manifest, empty, are read as part of its argument. -/
theorem not_bound_of_files (hroots : ∀ root ∈ roots, emptied root ∈ roots)
    (hvalid : m.validate = .ok ()) {arg : String} (h : m.profiles = [(name, profile)])
    (hcommand : profile.command = [arg]) (hhealth : profile.healthcheck = none)
    (htasks : m.tasks.entries = []) (hfiles : profile.fingerprintFiles ≠ []) {root : Root}
    (hroot : root ∈ roots) (hread : m.ReadBy root) : ¬m.Bound roots := by
  let files := profile.fingerprintFiles.mergeSort fun a b => decide (a ≤ b)
  let fields := arg :: files.flatMap (emptyFileFields name)
  let whole := String.ofList (frame '\x00' (fields.map String.toList)).dropLast
  have hfed : m.executionTrustStreamWithFiles (emptied root) = .ok (framedText
      (m.hashedFields ++ files.flatMap (emptyFileFields name))).toByteArray := by
    have hreads : ∀ relative ∈ files, ∃ path bytes, resolveFingerprintFile relative = .ok path ∧
        root path = .ok bytes := fun relative hmem =>
      hread (name, profile) (h ▸ List.mem_singleton_self _) relative
        (List.mem_mergeSort.mp hmem)
    rw [executionTrustStreamWithFiles_single h, foldlM_emptied hreads]
    exact congrArg Except.ok (fed_feed _)
  have hwhole : frame '\x00' [whole.toList] = frame '\x00' (fields.map String.toList) := by
    rw [frame_cons, frame_nil, String.toList_ofList]
    exact dropLast_frame_append (List.cons_ne_nil _ _)
  have hlong : arg.toList.length < whole.toList.length := by
    have hcount : files.length = profile.fingerprintFiles.length := List.length_mergeSort _
    have hne : files ≠ [] := by
      intro hnil
      rw [hnil] at hcount
      exact hfiles (List.length_eq_zero_iff.mp hcount.symm)
    obtain ⟨file, more, hmore⟩ := List.exists_cons_of_ne_nil hne
    have hlength := congrArg List.length hwhole
    simp only [fields, hmore, List.flatMap_cons, emptyFileFields, List.map_cons, frame_cons,
      List.cons_append, List.length_append, List.length_cons, frame_nil, List.length_nil]
      at hlength
    omega
  intro hbound
  have hne : m.executionFields ≠ (m.respell profile name [whole]).executionFields := by
    intro heq
    rw [executionFields, h] at heq
    have hcommands := congrArg (fun fields => fields.1.map fun entry => entry.2.1) heq
    have hsame : [profile.command] = [[whole]] := hcommands
    rw [hcommand, List.cons.injEq, List.cons.injEq] at hsame
    rw [hsame.1.1] at hlong
    exact absurd hlong (Nat.lt_irrefl _)
  have hvalid' : (m.respell profile name [whole]).validate = .ok () := by
    refine validate_respell hvalid h ⟨List.cons_ne_nil _ _, ?_⟩
    rw [List.mem_singleton]
    intro hempty
    rw [← hempty] at hlong
    exact absurd hlong (Nat.not_lt_zero _)
  refine (hbound _ hvalid' hne).2 (emptied root) (hroots root hroot) root hroot _ hfed ?_
  rw [executionTrustStreamWithFiles_of_no_files (by simp [respell, profiles]),
    executionTrustStream_utf8, frame_hashedFields_respell, List.map_singleton, hwhole,
    ← String.utf8Encode_toList, toList_framedText, List.map_append, frame_append,
    frame_hashedFields h, textAfterName, fieldsAfterName, hcommand, hhealth, htasks]
  simp [fields, healthcheckFields]

theorem unambiguous_of_bound (hroots : ∀ root ∈ roots, emptied root ∈ roots)
    (hvalid : m.validate = .ok ()) (h : m.Bound roots) :
    m.Unambiguous roots := by
  cases hprofiles : m.profiles with
  | nil => exact Or.inl hprofiles
  | cons entry rest =>
    obtain ⟨name, profile⟩ := entry
    by_cases hsingle : ∃ arg, profile.command = [arg] ∧ profile.healthcheck = none ∧
        rest = [] ∧ m.tasks.entries = []
    · obtain ⟨arg, hcommand, hhealth, rfl, htasks⟩ := hsingle
      refine Or.inr ⟨name, profile, arg, hprofiles, hcommand, hhealth, htasks, ?_, ?_, ?_⟩
      · intro harg
        exact not_bound_of_inner_zero hvalid hprofiles hcommand hhealth htasks harg h
      · intro hname
        exact not_bound_of_tag_in_name hvalid hprofiles hcommand hhealth htasks hname h
      · refine or_iff_not_imp_left.mpr fun hfiles => ?_
        rintro ⟨root, hroot, hread⟩
        exact not_bound_of_files hroots hvalid hprofiles hcommand hhealth htasks hfiles hroot
          hread h
    · exact absurd h (not_bound_of_not_single hvalid hprofiles hsingle)

/-- A valid manifest is bound exactly when it is unambiguous, for any roots whose files
may be empty as well. -/
theorem executionTrust_bound_iff (m : Manifest) (hvalid : m.validate = .ok ())
    (roots : Set Root) (hroots : ∀ root ∈ roots, emptied root ∈ roots) :
    (∀ m' : Manifest, m'.validate = .ok () → m.executionFields ≠ m'.executionFields →
      m.executionTrustStream ≠ m'.executionTrustStream ∧
      ∀ root ∈ roots, ∀ root' ∈ roots, ∀ stream,
        m.executionTrustStreamWithFiles root = .ok stream →
        m'.executionTrustStreamWithFiles root' ≠ .ok stream) ↔ m.Unambiguous roots :=
  ⟨unambiguous_of_bound hroots hvalid, bound_of_unambiguous hvalid⟩

/-- A manifest with one profile. -/
def singleProfile (command : List String) (healthcheck : Option (List String)) : Manifest where
  schema := 1
  projectId := "project-1"
  name := "demo"
  workspace :=
    { untracked := .safe
      largeFileThresholdMib := 32
      exclude := ⟨[]⟩
      «include» := ⟨[]⟩
      secretScanner := ⟨[], [], []⟩ }
  environment := some ⟨.singleton "dev"
    { kind := .script
      targets := ["local"]
      command := command
      fingerprintFiles := []
      healthcheck := healthcheck }⟩
  secrets := .empty
  tasks := .empty

theorem executionTrust_bound_iff_singleProfile :
    (singleProfile ["make"] none).validate = .ok () ∧
      ∀ m' : Manifest, m'.validate = .ok () →
        (singleProfile ["make"] none).executionFields ≠ m'.executionFields →
        (singleProfile ["make"] none).executionTrustStream ≠ m'.executionTrustStream ∧
        ∀ root ∈ (Set.univ : Set Root), ∀ root' ∈ (Set.univ : Set Root), ∀ stream,
          (singleProfile ["make"] none).executionTrustStreamWithFiles root = .ok stream →
          m'.executionTrustStreamWithFiles root' ≠ .ok stream := by
  have hvalid : (singleProfile ["make"] none).validate = .ok () := by decide
  refine ⟨hvalid, (executionTrust_bound_iff _ hvalid Set.univ fun _ _ => trivial).mpr
    (Or.inr ?_)⟩
  exact ⟨"dev", _, "make", rfl, rfl, rfl, rfl, by decide, by decide, Or.inl rfl⟩

/-- An argument that is the tag of the health check. -/
theorem healthcheck_argument_collides :
    (singleProfile ["run", "healthcheck", "check"] none).validate = .ok () ∧
      (singleProfile ["run"] (some ["check"])).validate = .ok () ∧
      (singleProfile ["run", "healthcheck", "check"] none).executionFields ≠
        (singleProfile ["run"] (some ["check"])).executionFields ∧
      (singleProfile ["run", "healthcheck", "check"] none).executionTrustStream =
        (singleProfile ["run"] (some ["check"])).executionTrustStream ∧
      ∀ root, (singleProfile ["run", "healthcheck", "check"] none).executionTrustStreamWithFiles
        root = (singleProfile ["run"] (some ["check"])).executionTrustStreamWithFiles root := by
  have hsame : (singleProfile ["run", "healthcheck", "check"] none).executionTrustStream =
      (singleProfile ["run"] (some ["check"])).executionTrustStream :=
    executionTrustStream_eq_iff.mpr rfl
  refine ⟨by decide, by decide, by decide, hsame, fun root => ?_⟩
  rw [executionTrustStreamWithFiles_of_no_files (by decide), hsame,
    executionTrustStreamWithFiles_of_no_files (by decide)]

end Manifest

end DevRelay.Core
