import DevRelay.Lib.TaggedCode
import DevRelay.Lib.TextBytes
import DevRelay.Snapshot.OperationCapsule
import DevRelay.Snapshot.StateHash

/-!
# The state hash of a snapshot with an operation capsule

`calculate_state_hash` and `update_operation_capsule_hash` of `snapshot_schema.rs`.
The capsule stands between the trees and the lists.  Its lists and its optional
fields are written without a count; the contents of the files follow their length.
-/

namespace DevRelay.Snapshot

open DevRelay.Core DevRelay.Lib

inductive GitOperationKind where
  | merge
  | cherryPick
  | revert
  | rebaseMerge
  | rebaseApply
  | sequencer
  deriving DecidableEq, Repr

structure GitOperationStep where
  current : Option UInt64
  total : Option UInt64
  deriving DecidableEq, Repr

structure GitOperationProgress where
  interactive : Bool
  originalHeadOid : Option String
  ontoOid : Option String
  headName : Option String
  todo : List String
  done : List String
  currentStep : Option GitOperationStep
  deriving DecidableEq, Repr

structure GitOperationMetadata where
  kind : GitOperationKind
  currentHeadOid : String
  operationOids : List String
  originalHeadOid : Option String
  progress : Option GitOperationProgress
  deriving DecidableEq, Repr

structure IndexStageEntry where
  stage : UInt8
  mode : String
  oid : String
  deriving DecidableEq, Repr

structure UnmergedIndexEntry where
  path : String
  stages : List IndexStageEntry
  deriving DecidableEq, Repr

/-- The length of a vector fits a `usize`. -/
def usizeBound : Nat := 2 ^ 64

/-- A capsule with the operation and the unmerged entries. -/
structure CapturedCapsule extends OperationCapsule where
  operation : GitOperationMetadata
  unmergedEntries : List UnmergedIndexEntry
  contentsFit : ∀ file ∈ worktreeFiles, file.contents.length < usizeBound
  deriving DecidableEq

structure CapturedMetadata extends SnapshotMetadata where
  operationCapsule : Option CapturedCapsule
  deriving DecidableEq

/-- No check of `SnapshotMetadata::validate` looks at the capsule. -/
def CapturedMetadata.validate (self : CapturedMetadata) : Except DevRelayError Unit :=
  self.toSnapshotMetadata.validate

def operationKindLabel : GitOperationKind → String
  | .merge => "merge"
  | .cherryPick => "cherry-pick"
  | .revert => "revert"
  | .rebaseMerge => "rebase-merge"
  | .rebaseApply => "rebase-apply"
  | .sequencer => "sequencer"

theorem operationKindLabel_injective : Function.Injective operationKindLabel := by
  intro a b h
  cases a <;> cases b <;> first | rfl | exact absurd h (by decide)

def updateHashBytes (hasher : Hasher) (value : List UInt8) : Hasher :=
  ((hasher.update (toLeBytes (UInt64.ofNat value.length))).update value.toByteArray).update
    ⟨#[0]⟩

/-- `if let Some(value) = …` around an update. -/
def updateSome {γ : Type} (hasher : Hasher) (update : Hasher → γ → Hasher) :
    Option γ → Hasher
  | none => hasher
  | some value => update hasher value

/-- A tag and the text behind it. -/
def updateTagged (tag : String) (hasher : Hasher) (value : String) : Hasher :=
  updateHashFields hasher [tag, value]

/-- A tag and the number behind it. -/
def updateTaggedNumber (tag : String) (hasher : Hasher) (value : UInt64) : Hasher :=
  updateHashFields hasher [tag, toString value]

def updateStepHash (hasher : Hasher) (step : GitOperationStep) : Hasher :=
  let hasher := updateHashFields hasher ["progress-current-step"]
  let hasher := updateSome hasher (updateTaggedNumber "current") step.current
  updateSome hasher (updateTaggedNumber "total") step.total

def updateProgressHash (hasher : Hasher) (progress : GitOperationProgress) : Hasher :=
  let hasher := updateHashFields hasher
    ["operation-progress", if progress.interactive then "true" else "false"]
  let hasher := updateSome hasher (updateTagged "progress-original-head") progress.originalHeadOid
  let hasher := updateSome hasher (updateTagged "progress-onto") progress.ontoOid
  let hasher := updateSome hasher (updateTagged "progress-head-name") progress.headName
  let hasher := progress.todo.foldl (updateTagged "progress-todo") hasher
  let hasher := progress.done.foldl (updateTagged "progress-done") hasher
  updateSome hasher updateStepHash progress.currentStep

def updateStageHash (hasher : Hasher) (stage : IndexStageEntry) : Hasher :=
  updateHashFields hasher ["stage", toString stage.stage, stage.mode, stage.oid]

def updateUnmergedEntryHash (hasher : Hasher) (entry : UnmergedIndexEntry) : Hasher :=
  let hasher := updateHashFields hasher ["unmerged-entry", entry.path]
  entry.stages.foldl updateStageHash hasher

def updateWorktreeFileHash (hasher : Hasher) (file : ConflictWorktreeFile) : Hasher :=
  let hasher := updateHashFields hasher ["conflict-worktree-file", file.path]
  updateHashBytes hasher file.contents

def updateOperationCapsuleHash (hasher : Hasher) (capsule : CapturedCapsule) : Hasher :=
  let hasher := updateHashFields hasher
    ["operation-capsule", operationKindLabel capsule.operation.kind,
      capsule.operation.currentHeadOid]
  let hasher := capsule.operation.operationOids.foldl (updateTagged "operation-oid") hasher
  let hasher := updateSome hasher (updateTagged "original-head")
    capsule.operation.originalHeadOid
  let hasher := updateSome hasher updateProgressHash capsule.operation.progress
  let hasher := capsule.unmergedEntries.foldl updateUnmergedEntryHash hasher
  capsule.worktreeFiles.foldl updateWorktreeFileHash hasher

/-- The bytes fed to the hasher. -/
def capturedStream (metadata : CapturedMetadata) : ByteArray :=
  let hasher := updateHashFields Hasher.new
    ["devrelay.state.v1", metadata.projectId, metadata.headOid, metadata.indexTreeOid,
      metadata.workTreeOid]
  let hasher := updateSome hasher updateOperationCapsuleHash metadata.operationCapsule
  let hasher := (metadata.includedUntracked.insertionSort (· ≤ ·)).foldl updateIncludedHash hasher
  let hasher := (metadata.excluded.insertionSort fun a b => excludedLe a b).foldl
    updateExcludedHash hasher
  let hasher := (metadata.sidecars.insertionSort fun a b => sidecarLe a b).foldl
    updateSidecarHash hasher
  let hasher := (metadata.childSnapshots.insertionSort fun a b => childSnapshotLe a b).foldl
    updateChildSnapshotHash hasher
  hasher.fed

def calculateCapturedHash (digest : Blake3) (metadata : CapturedMetadata) : String :=
  digest.hex (capturedStream metadata)

/-! ## The bytes of each part -/

def fedBytes (hasher : Hasher) : List UInt8 := hasher.fed.data.toList

/-- Texts, each with a zero byte behind it. -/
def textCode (texts : List String) : List UInt8 := frame 0 (texts.map utf8)

/-- A value behind its tag. -/
def tagCode {γ : Type} (tag : String) (code : γ → List UInt8) : γ → List UInt8 :=
  tagged 0 (utf8 tag) code

/-- The contents behind their length. -/
def contentsCode (contents : List UInt8) : List UInt8 :=
  (toLeBytes (UInt64.ofNat contents.length)).data.toList ++ contents ++ [0]

def oneText (text : String) : List UInt8 := textCode [text]

def oneNumber (number : UInt64) : List UInt8 := textCode [toString number]

def stepCode (step : GitOperationStep) : List UInt8 :=
  step.current.toList.flatMap (tagCode "current" oneNumber) ++
    (step.total.toList.flatMap (tagCode "total" oneNumber) ++ [])

def progressCode (progress : GitOperationProgress) : List UInt8 :=
  textCode [if progress.interactive then "true" else "false"] ++
    (progress.originalHeadOid.toList.flatMap (tagCode "progress-original-head" oneText) ++
      (progress.ontoOid.toList.flatMap (tagCode "progress-onto" oneText) ++
        (progress.headName.toList.flatMap (tagCode "progress-head-name" oneText) ++
          (progress.todo.flatMap (tagCode "progress-todo" oneText) ++
            (progress.done.flatMap (tagCode "progress-done" oneText) ++
              (progress.currentStep.toList.flatMap (tagCode "progress-current-step" stepCode) ++
                []))))))

def stageFields (stage : IndexStageEntry) : List String :=
  [toString stage.stage, stage.mode, stage.oid]

def unmergedEntryCode (entry : UnmergedIndexEntry) : List UInt8 :=
  textCode [entry.path] ++
    (entry.stages.flatMap (tagCode "stage" fun stage => textCode (stageFields stage)) ++ [])

def worktreeFileCode (file : ConflictWorktreeFile) : List UInt8 :=
  textCode [file.path] ++ contentsCode file.contents

def capsuleCode (capsule : CapturedCapsule) : List UInt8 :=
  textCode [operationKindLabel capsule.operation.kind, capsule.operation.currentHeadOid] ++
    (capsule.operation.operationOids.flatMap (tagCode "operation-oid" oneText) ++
      (capsule.operation.originalHeadOid.toList.flatMap (tagCode "original-head" oneText) ++
        (capsule.operation.progress.toList.flatMap (tagCode "operation-progress" progressCode) ++
          (capsule.unmergedEntries.flatMap (tagCode "unmerged-entry" unmergedEntryCode) ++
            (capsule.worktreeFiles.flatMap
              (tagCode "conflict-worktree-file" worktreeFileCode) ++ [])))))

def excludedFields (item : ClassifiedPath) : List String := [item.path, item.reason]

def sidecarFields (sidecar : SnapshotSidecar) : List String :=
  [sidecar.logicalPath, sidecar.fileMode, sidecar.classification, toString sidecar.sizeBytes,
    toString sidecar.chunkSizeBytes, sidecar.rootHash, sidecar.casManifestId]

def childFields (child : SnapshotChildSnapshot) : List String :=
  [child.relationship, child.path, child.projectId, child.sessionId, child.snapshotId,
    child.stateHash]

def headerFields (metadata : CapturedMetadata) : List String :=
  ["devrelay.state.v1", metadata.projectId, metadata.headOid, metadata.indexTreeOid,
    metadata.workTreeOid]

/-- The four lists, in the order in which they are hashed. -/
def sortedIncluded (metadata : CapturedMetadata) : List String :=
  metadata.includedUntracked.insertionSort (· ≤ ·)

def sortedExcluded (metadata : CapturedMetadata) : List ClassifiedPath :=
  metadata.excluded.insertionSort fun a b => excludedLe a b

def sortedSidecars (metadata : CapturedMetadata) : List SnapshotSidecar :=
  metadata.sidecars.insertionSort fun a b => sidecarLe a b

def sortedChildren (metadata : CapturedMetadata) : List SnapshotChildSnapshot :=
  metadata.childSnapshots.insertionSort fun a b => childSnapshotLe a b

def metadataCode (metadata : CapturedMetadata) : List UInt8 :=
  textCode (headerFields metadata) ++
    (metadata.operationCapsule.toList.flatMap (tagCode "operation-capsule" capsuleCode) ++
      ((sortedIncluded metadata).flatMap (tagCode "included" oneText) ++
        ((sortedExcluded metadata).flatMap
          (tagCode "excluded" fun item => textCode (excludedFields item)) ++
          ((sortedSidecars metadata).flatMap
            (tagCode "sidecar" fun sidecar => textCode (sidecarFields sidecar)) ++
            ((sortedChildren metadata).flatMap
              (tagCode "child-snapshot" fun child => textCode (childFields child)) ++ [])))))

/-! ## What the updates feed -/

/-- The update adds these bytes. -/
def Feeds {γ : Type} (update : Hasher → γ → Hasher) (code : γ → List UInt8) : Prop :=
  ∀ hasher value, fedBytes (update hasher value) = fedBytes hasher ++ code value

theorem fedBytes_update (hasher : Hasher) (bytes : ByteArray) :
    fedBytes (hasher.update bytes) = fedBytes hasher ++ bytes.data.toList :=
  ByteArray.toList_data_append

theorem fedBytes_updateHashFields (hasher : Hasher) (fields : List String) :
    fedBytes (updateHashFields hasher fields) = fedBytes hasher ++ textCode fields := by
  unfold updateHashFields
  induction fields generalizing hasher with
  | nil => exact (List.append_nil _).symm
  | cons field fields ih =>
    rw [List.foldl_cons, ih, updateHashField, fedBytes_update, fedBytes_update, textCode,
      textCode, List.map_cons, frame_cons]
    simp only [List.append_assoc]
    rfl

theorem textCode_cons (text : String) (texts : List String) :
    textCode (text :: texts) = utf8 text ++ 0 :: textCode texts := by
  rw [textCode, List.map_cons, frame_cons, textCode]

theorem tagCode_eq {γ : Type} (tag : String) (code : γ → List UInt8) (value : γ) :
    tagCode tag code value = utf8 tag ++ 0 :: code value := rfl

section Feeds

variable {γ : Type} {update : Hasher → γ → Hasher} {code : γ → List UInt8}

theorem Feeds.foldl (h : Feeds update code) (hasher : Hasher) (values : List γ) :
    fedBytes (values.foldl update hasher) = fedBytes hasher ++ values.flatMap code := by
  induction values generalizing hasher with
  | nil => exact (List.append_nil _).symm
  | cons value values ih =>
    rw [List.foldl_cons, ih, h, List.flatMap_cons, List.append_assoc]

theorem Feeds.updateSome (h : Feeds update code) (hasher : Hasher) (value : Option γ) :
    fedBytes (updateSome hasher update value) = fedBytes hasher ++ value.toList.flatMap code := by
  cases value with
  | none => exact (List.append_nil _).symm
  | some value =>
    rw [Option.toList_some, List.flatMap_singleton]
    exact h hasher value

end Feeds

theorem feeds_fields {γ : Type} (tag : String) (fields : γ → List String) :
    Feeds (fun hasher value => updateHashFields hasher (tag :: fields value))
      (tagCode tag fun value => textCode (fields value)) := by
  intro hasher value
  rw [fedBytes_updateHashFields, textCode_cons, tagCode_eq]

theorem feeds_tagged (tag : String) : Feeds (updateTagged tag) (tagCode tag oneText) :=
  feeds_fields tag fun value => [value]

theorem feeds_taggedNumber (tag : String) :
    Feeds (updateTaggedNumber tag) (tagCode tag oneNumber) :=
  feeds_fields tag fun value => [toString value]

theorem feeds_step : Feeds updateStepHash (tagCode "progress-current-step" stepCode) := by
  intro hasher step
  rw [updateStepHash, (feeds_taggedNumber "total").updateSome,
    (feeds_taggedNumber "current").updateSome, fedBytes_updateHashFields,
    textCode_cons "progress-current-step", tagCode_eq "progress-current-step", stepCode]
  simp only [textCode, List.map_nil, frame_nil, List.append_assoc, List.cons_append,
    List.nil_append, List.append_nil]

theorem feeds_progress : Feeds updateProgressHash (tagCode "operation-progress" progressCode) := by
  intro hasher progress
  rw [updateProgressHash, feeds_step.updateSome, (feeds_tagged "progress-done").foldl,
    (feeds_tagged "progress-todo").foldl, (feeds_tagged "progress-head-name").updateSome,
    (feeds_tagged "progress-onto").updateSome,
    (feeds_tagged "progress-original-head").updateSome, fedBytes_updateHashFields,
    textCode_cons "operation-progress", tagCode_eq "operation-progress", progressCode]
  simp only [List.append_assoc, List.cons_append, List.append_nil]

theorem feeds_unmergedEntry :
    Feeds updateUnmergedEntryHash (tagCode "unmerged-entry" unmergedEntryCode) := by
  intro hasher entry
  have hstage : Feeds updateStageHash (tagCode "stage" fun stage => textCode (stageFields stage)) :=
    feeds_fields "stage" stageFields
  rw [updateUnmergedEntryHash, hstage.foldl, fedBytes_updateHashFields,
    textCode_cons "unmerged-entry", tagCode_eq "unmerged-entry", unmergedEntryCode]
  simp only [List.append_assoc, List.cons_append, List.append_nil]

theorem feeds_worktreeFile :
    Feeds updateWorktreeFileHash (tagCode "conflict-worktree-file" worktreeFileCode) := by
  intro hasher file
  rw [updateWorktreeFileHash, updateHashBytes, fedBytes_update, fedBytes_update, fedBytes_update,
    fedBytes_updateHashFields, textCode_cons "conflict-worktree-file",
    tagCode_eq "conflict-worktree-file", worktreeFileCode, contentsCode, List.data_toByteArray]
  simp only [List.append_assoc, List.cons_append]

theorem feeds_capsule :
    Feeds updateOperationCapsuleHash (tagCode "operation-capsule" capsuleCode) := by
  intro hasher capsule
  rw [updateOperationCapsuleHash, feeds_worktreeFile.foldl, feeds_unmergedEntry.foldl,
    feeds_progress.updateSome, (feeds_tagged "original-head").updateSome,
    (feeds_tagged "operation-oid").foldl, fedBytes_updateHashFields,
    textCode_cons "operation-capsule", tagCode_eq "operation-capsule", capsuleCode]
  simp only [List.append_assoc, List.cons_append, List.append_nil]

theorem capturedStream_eq (metadata : CapturedMetadata) :
    (capturedStream metadata).data.toList = metadataCode metadata := by
  have hincluded : Feeds updateIncludedHash (tagCode "included" oneText) :=
    feeds_fields "included" fun path => [path]
  have hexcluded : Feeds updateExcludedHash
      (tagCode "excluded" fun item => textCode (excludedFields item)) :=
    feeds_fields "excluded" excludedFields
  have hsidecar : Feeds updateSidecarHash
      (tagCode "sidecar" fun sidecar => textCode (sidecarFields sidecar)) :=
    feeds_fields "sidecar" sidecarFields
  have hchild : Feeds updateChildSnapshotHash
      (tagCode "child-snapshot" fun child => textCode (childFields child)) :=
    feeds_fields "child-snapshot" childFields
  show fedBytes _ = _
  rw [hchild.foldl, hsidecar.foldl, hexcluded.foldl, hincluded.foldl,
    feeds_capsule.updateSome, fedBytes_updateHashFields, metadataCode]
  simp only [List.append_assoc, List.append_nil]
  rfl

end DevRelay.Snapshot
