import DevRelay.Lib.UnixPath
import DevRelay.Retention.PlannedPruning

/-!
# Conflict files of an operation capsule

`restore_conflict_worktree_files` of `operation_capsule.rs` writes the files that
a capsule records.  Their paths come from another device, and the validation of
the metadata does not read the capsule: it is the paths alone that keep the
writes inside the repository.
-/

namespace DevRelay.Snapshot

open DevRelay.Lib DevRelay.Core DevRelay.Retention

structure ConflictWorktreeFile where
  path : String
  contents : List UInt8
  deriving DecidableEq, Repr

/-- The operation and the unmerged entries are left out: nothing here reads them. -/
structure OperationCapsule where
  worktreeFiles : List ConflictWorktreeFile
  deriving DecidableEq, Repr

/-- Metadata as it is read from a file, with its capsule. -/
structure RecordedMetadata extends SnapshotMetadata where
  operationCapsule : Option OperationCapsule
  deriving DecidableEq

/-- No check of `SnapshotMetadata::validate` looks at the capsule. -/
def RecordedMetadata.validate (self : RecordedMetadata) : Except DevRelayError Unit :=
  self.toSnapshotMetadata.validate

/-- What is asked of the file system, under the path it is asked for. -/
inductive FileCall where
  | createDirAll (path : List Component)
  | write (path : List Component) (contents : List UInt8)
  deriving DecidableEq, Repr

/-- The calls issued so far; every call can fail. -/
abbrev Restoring := Prog (List FileCall) DevRelayError

def issue (call : FileCall) : Restoring Unit := Prog.write fun calls => calls ++ [call]

def createParent (path : List Component) : Restoring Unit :=
  match parent? path with
  | some parent => issue (.createDirAll parent)
  | none => pure ()

/-- `root` is the path of the repository. -/
def restoreFiles (root : String) : List ConflictWorktreeFile → Restoring Unit
  | [] => pure ()
  | file :: rest => do
    createParent (components (join root file.path))
    issue (.write (components (join root file.path)) file.contents)
    restoreFiles root rest

def restoreConflictWorktreeFiles (root : String) (capsule : OperationCapsule) :
    Restoring Unit := restoreFiles root capsule.worktreeFiles

/-! ## Confinement -/

/-- The root, or plain names below it that do not begin with `.git`. -/
def Within (root : String) (path : List Component) (names : List String) : Prop :=
  path.filter (fun component => component ≠ .curDir) = steps root ++ names.map .normal ∧
    names.head? ≠ some ".git"

/-- A file is written below the root, and the directories for it are made there. -/
def FileCall.Confined (root : String) : FileCall → Prop
  | .createDirAll path => ∃ names, Within root path names
  | .write path _ => ∃ names, names ≠ [] ∧ Within root path names

/-- Wherever the restore is stopped, all its calls were confined. -/
def RestoreConfined (root : String) (capsule : OperationCapsule) : Prop :=
  ∀ fault, ∀ call ∈ ((restoreConflictWorktreeFiles root capsule).exec fault 0 []).2,
    call.Confined root

/-- The path names something below the root that is not in `.git`. -/
def StaysInside (root path : String) : Prop :=
  ∃ names, names ≠ [] ∧ names.head? ≠ some ".git" ∧
    (Plain (steps path) names ∨
      isAbsolute path = true ∧ steps path = steps root ++ names.map .normal)

theorem staysInside_iff {root path : String} :
    StaysInside root path ↔
      ∃ names, names ≠ [] ∧ Within root (components (join root path)) names := by
  have hwithin : ∀ names, Within root (components (join root path)) names ↔
      names.head? ≠ some ".git" ∧
        (Plain (steps path) names ∨
          isAbsolute path = true ∧ steps path = steps root ++ names.map .normal) := by
    intro names
    have hsteps : (components (join root path)).filter (fun component => component ≠ .curDir) =
        steps (join root path) := rfl
    unfold Within
    rw [hsteps, and_comm]
    apply and_congr_right
    intro _
    cases hpath : isAbsolute path with
    | true =>
      rw [join_of_absolute hpath]
      constructor
      · intro h
        exact Or.inr ⟨rfl, h⟩
      · rintro (h | ⟨-, h⟩)
        · rw [isAbsolute_of_plain h] at hpath
          cases hpath
        · exact h
    | false =>
      rw [steps_join hpath, List.append_cancel_left_eq]
      constructor
      · exact Or.inl
      · rintro (h | ⟨h, -⟩)
        · exact h
        · cases h
  constructor
  · rintro ⟨names, hne, h⟩
    exact ⟨names, hne, (hwithin names).mpr h⟩
  · rintro ⟨names, hne, h⟩
    exact ⟨names, hne, (hwithin names).mp h⟩

/-- The directory of a path that stays inside is the root or inside. -/
theorem parent_within {root path : String} {names : List String} (hne : names ≠ [])
    (h : Within root (components path) names) :
    parent? (components path) = some (components path).dropLast ∧
      Within root (components path).dropLast names.dropLast := by
  obtain ⟨hsteps, hgit⟩ := h
  change steps path = steps root ++ names.map .normal at hsteps
  have hlast : (steps path).getLast? = some (.normal (names.getLast hne)) := by
    rw [hsteps, List.getLast?_append, List.getLast?_map, List.getLast?_eq_some_getLast hne]
    rfl
  have hmap : names.map Component.normal ≠ [] := by
    simpa using hne
  refine ⟨?_, ?_, ?_⟩
  · unfold parent?
    rw [getLast?_components hlast]
  · rw [filter_dropLast_components, hsteps, List.dropLast_append_of_ne_nil hmap, List.map_dropLast]
  · intro hhead
    apply hgit
    rw [← hhead]
    cases names with
    | nil => exact absurd rfl hne
    | cons first rest =>
      cases rest with
      | nil => cases hhead
      | cons second rest => rfl

/-! ## The restore -/

def CallsConfined (root : String) (calls : List FileCall) : Prop :=
  ∀ call ∈ calls, call.Confined root

theorem CallsConfined.append {root : String} {calls : List FileCall} {call : FileCall}
    (h : CallsConfined root calls) (hcall : call.Confined root) :
    CallsConfined root (calls ++ [call]) := by
  intro issued hissued
  rcases List.mem_append.mp hissued with hold | hnew
  · exact h issued hold
  · rw [List.mem_singleton.mp hnew]
    exact hcall

theorem restoreFiles_ensures {root : String} (files : List ConflictWorktreeFile)
    (hfiles : ∀ file ∈ files, StaysInside root file.path) {calls : List FileCall}
    (h : CallsConfined root calls) :
    (restoreFiles root files).Ensures (CallsConfined root) (fun _ _ => True) calls := by
  induction files generalizing calls with
  | nil => exact Prog.ensures_pure trivial
  | cons file rest ih =>
    obtain ⟨names, hne, hwithin⟩ := staysInside_iff.mp (hfiles file List.mem_cons_self)
    obtain ⟨hparent, hinside⟩ := parent_within hne hwithin
    have hrest : ∀ other ∈ rest, StaysInside root other.path :=
      fun other hother => hfiles other (List.mem_cons_of_mem _ hother)
    unfold restoreFiles createParent
    rw [hparent]
    have hmade : CallsConfined root
        (calls ++ [.createDirAll (components (join root file.path)).dropLast]) :=
      h.append ⟨names.dropLast, hinside⟩
    apply Prog.ensures_write_bind hmade
    have hwritten : CallsConfined root
        ((calls ++ [.createDirAll (components (join root file.path)).dropLast]) ++
          [.write (components (join root file.path)) file.contents]) :=
      hmade.append ⟨names, hne, hwithin⟩
    apply Prog.ensures_write_bind hwritten
    exact ih hrest hwritten

/-- Without a failing call, every file is written under its path. -/
theorem write_mem_restoreFiles {root : String} {file : ConflictWorktreeFile}
    (files : List ConflictWorktreeFile) (calls : List FileCall)
    (h : file ∈ files ∨ .write (components (join root file.path)) file.contents ∈ calls) :
    .write (components (join root file.path)) file.contents ∈
      ((restoreFiles root files).run calls).2 := by
  induction files generalizing calls with
  | nil => exact h.resolve_left (by simp)
  | cons first rest ih =>
    have hrun : ∃ made, ((restoreFiles root (first :: rest)).run calls).2 =
        ((restoreFiles root rest).run (calls ++ made ++
          [.write (components (join root first.path)) first.contents])).2 := by
      rw [restoreFiles]
      unfold createParent issue
      split
      · rename_i parent _
        refine ⟨[.createDirAll parent], ?_⟩
        rw [Prog.run_write_bind, Prog.run_write_bind]
      · refine ⟨[], ?_⟩
        rw [List.append_nil]
        exact congrArg Prod.snd (Prog.run_write_bind _ _ _)
    obtain ⟨made, hrun⟩ := hrun
    rw [hrun]
    apply ih
    rcases h with hmem | hissued
    · rcases List.mem_cons.mp hmem with rfl | hrest
      · exact Or.inr (List.mem_append_right _ List.mem_cons_self)
      · exact Or.inl hrest
    · exact Or.inr (List.mem_append_left _ (List.mem_append_left _ hissued))

/-- A restore is confined exactly when all the paths of the capsule stay inside; that the
validation accepted the metadata says nothing about them. -/
theorem restoreConfined_iff (root : String) (capsule : OperationCapsule) :
    RestoreConfined root capsule ↔ ∀ file ∈ capsule.worktreeFiles, StaysInside root file.path := by
  constructor
  · intro h file hfile
    have hmem := @write_mem_restoreFiles root file capsule.worktreeFiles [] (Or.inl hfile)
    exact staysInside_iff.mpr (h noFault _ hmem)
  · intro h fault call hcall
    refine Prog.exec_ensures (I := CallsConfined root) (Q := fun _ _ => True) fault 0 _ []
      (by simp [CallsConfined]) ?_ call hcall
    exact restoreFiles_ensures capsule.worktreeFiles h (by simp [CallsConfined])

/-- A capsule whose file is one directory above the repository. -/
def climbingCapsule : OperationCapsule := ⟨[⟨"../outside", []⟩]⟩

def recordedWith (capsule : OperationCapsule) : RecordedMetadata where
  toSnapshotMetadata := (demoRow "s1_aaaaaaaaaaaaaaaaaaaaaaaa" none 1).metadata
  operationCapsule := some capsule

theorem recordedWith_accepted (capsule : OperationCapsule) :
    (recordedWith capsule).validate = .ok () := by
  change (recordedWith ⟨[]⟩).validate = .ok ()
  decide

theorem not_staysInside_climbing : ¬StaysInside "/work/repo" "../outside" := by
  have hsteps : steps "../outside" = [.parentDir, .normal "outside"] := by decide
  rintro ⟨names, -, -, hplain | ⟨habsolute, -⟩⟩
  · unfold Plain at hplain
    rw [hsteps] at hplain
    cases names with
    | nil => cases hplain
    | cons first rest => cases hplain
  · exact absurd habsolute (by decide)

theorem restore_escapes : ¬∀ (root : String) (metadata : RecordedMetadata)
    (capsule : OperationCapsule), metadata.validate = .ok () →
      metadata.operationCapsule = some capsule → RestoreConfined root capsule := by
  intro hall
  have hconfined := hall "/work/repo" (recordedWith climbingCapsule) climbingCapsule
    (recordedWith_accepted climbingCapsule) rfl
  have hwritten := @write_mem_restoreFiles "/work/repo" ⟨"../outside", []⟩
    climbingCapsule.worktreeFiles [] (Or.inl List.mem_cons_self)
  exact not_staysInside_climbing (staysInside_iff.mpr (hconfined noFault _ hwritten))

end DevRelay.Snapshot
