import DevRelay.Lib.Machine
import DevRelay.Lib.Worklist
import Mathlib.Data.List.Sort
import Mathlib.Data.UInt

/-!
# Planning what to prune

`plan_snapshot_pruning` of `retention.rs`.  The reasons to keep a snapshot are
collected, the parents of what is kept are kept as well, and what has no reason
is planned for deletion.  When that does not reclaim enough, the oldest
snapshots without a hard reason follow.

Unsigned arithmetic wraps where the source uses the plain operators, as in a
release build.
-/

namespace DevRelay.Retention

open DevRelay.Lib

def mib : UInt64 := 1024 * 1024
def secondsPerHour : UInt64 := 60 * 60
def secondsPerDay : UInt64 := 24 * secondsPerHour

def mibToBytes (value : UInt64) : UInt64 := saturatingMul value mib

inductive PruningScope where
  | deviceCache
  | anchorProject
  deriving DecidableEq, Repr

structure RetentionPolicy where
  hotSnapshotCount : Nat
  hourlyThinningHours : UInt64
  dailyThinningDays : UInt64
  handoffProtectionSeconds : UInt64
  deviceCacheQuotaMib : Option UInt64
  anchorProjectQuotaMib : Option UInt64
  freeDiskWarningThresholdMib : UInt64
  freeDiskHardStopThresholdMib : UInt64
  deriving DecidableEq, Repr

namespace RetentionPolicy

/-- `RetentionPolicy::default`. -/
def default : RetentionPolicy where
  hotSnapshotCount := 5
  hourlyThinningHours := 24
  dailyThinningDays := 14
  handoffProtectionSeconds := secondsPerDay
  deviceCacheQuotaMib := none
  anchorProjectQuotaMib := none
  freeDiskWarningThresholdMib := 1024
  freeDiskHardStopThresholdMib := 256

def quotaBytes (self : RetentionPolicy) : PruningScope → Option UInt64
  | .deviceCache => self.deviceCacheQuotaMib.map mibToBytes
  | .anchorProject => self.anchorProjectQuotaMib.map mibToBytes

def freeDiskWarningThresholdBytes (self : RetentionPolicy) : UInt64 :=
  mibToBytes self.freeDiskWarningThresholdMib

def freeDiskHardStopThresholdBytes (self : RetentionPolicy) : UInt64 :=
  mibToBytes self.freeDiskHardStopThresholdMib

end RetentionPolicy

structure SnapshotRetentionEntry where
  snapshotId : String
  parentSnapshotId : Option String
  sequenceNumber : Int
  pinned : Bool
  createdAtUnixSeconds : UInt64
  estimatedSizeBytes : UInt64
  deriving DecidableEq, Repr

structure HandoffSnapshotProtection where
  snapshotId : String
  protectUntilUnixSeconds : UInt64
  deriving DecidableEq, Repr

def RetentionPolicy.handoffProtection (self : RetentionPolicy) (snapshotId : String)
    (protectedAtUnixSeconds : UInt64) : HandoffSnapshotProtection where
  snapshotId := snapshotId
  protectUntilUnixSeconds :=
    saturatingAdd protectedAtUnixSeconds self.handoffProtectionSeconds

inductive RetentionKeepReason where
  | canonicalLatest
  | pinned
  | handoffProtected
  | retainedParent
  | hotSnapshot
  | hourlyThinning
  | dailyThinning
  deriving DecidableEq, Repr

namespace RetentionKeepReason

def isHard : RetentionKeepReason → Bool
  | canonicalLatest | pinned | handoffProtected | retainedParent => true
  | hotSnapshot | hourlyThinning | dailyThinning => false

/-- In the order of the enumeration. -/
def all : List RetentionKeepReason :=
  [canonicalLatest, pinned, handoffProtected, retainedParent, hotSnapshot,
    hourlyThinning, dailyThinning]

theorem mem_all (reason : RetentionKeepReason) : reason ∈ all := by
  cases reason <;> decide

end RetentionKeepReason

inductive PruningReason where
  | outsideRetention
  | quotaPressure
  | freeDiskPressure
  deriving DecidableEq, Repr

inductive PruningDecisionAction where
  | keep (reasons : List RetentionKeepReason)
  | delete (reason : PruningReason)
  deriving DecidableEq, Repr

structure PruningDecision where
  snapshotId : String
  estimatedSizeBytes : UInt64
  action : PruningDecisionAction
  deriving DecidableEq, Repr

inductive PruningPlanWarningCode where
  | quotaExceeded
  | freeDiskLow
  | freeDiskHardStop
  | insufficientReclaimableSnapshots
  deriving DecidableEq, Repr

structure PruningPlanWarning where
  code : PruningPlanWarningCode
  message : String
  deriving DecidableEq, Repr

structure PruningPlan where
  scope : PruningScope
  currentUsageBytes : UInt64
  freeDiskBytes : UInt64
  targetReclaimBytes : UInt64
  plannedReclaimBytes : UInt64
  decisions : List PruningDecision
  warnings : List PruningPlanWarning
  deriving DecidableEq, Repr

def PruningPlan.deleteSnapshotIds (self : PruningPlan) : List String :=
  self.decisions.filterMap fun decision =>
    match decision.action with
    | .delete _ => some decision.snapshotId
    | .keep _ => none

structure PruningPlanInput where
  snapshots : List SnapshotRetentionEntry
  policy : RetentionPolicy
  scope : PruningScope
  canonicalLatestSnapshotId : Option String
  handoffProtections : List HandoffSnapshotProtection
  currentUsageBytes : UInt64
  freeDiskBytes : UInt64
  nowUnixSeconds : UInt64
  deriving DecidableEq, Repr

/-! ## Reasons to keep a snapshot -/

/-- The pairs of a map from snapshot ids to sets of reasons. -/
abbrev ReasonMap := List (String × RetentionKeepReason)

namespace ReasonMap

def addReason (reasons : ReasonMap) (snapshotId : String) (reason : RetentionKeepReason) :
    ReasonMap :=
  if (snapshotId, reason) ∈ reasons then reasons else reasons ++ [(snapshotId, reason)]

/-- The set of a snapshot, in the order of the reasons. -/
def get (reasons : ReasonMap) (snapshotId : String) : List RetentionKeepReason :=
  RetentionKeepReason.all.filter fun reason => (snapshotId, reason) ∈ reasons

/-- Empty the set of a snapshot. -/
def clear (reasons : ReasonMap) (snapshotId : String) : ReasonMap :=
  reasons.filter fun entry => entry.1 ≠ snapshotId

/-- The ids with a non-empty set, in order. -/
def keys (reasons : ReasonMap) : List String :=
  (reasons.map Prod.fst).dedup.insertionSort (· ≤ ·)

theorem mem_addReason {reasons : ReasonMap} {snapshotId : String}
    {reason : RetentionKeepReason} {entry : String × RetentionKeepReason} :
    entry ∈ reasons.addReason snapshotId reason ↔
      entry ∈ reasons ∨ entry = (snapshotId, reason) := by
  unfold addReason
  split
  · rename_i hmem
    constructor
    · exact Or.inl
    · rintro (h | rfl)
      · exact h
      · exact hmem
  · simp

theorem mem_get {reasons : ReasonMap} {snapshotId : String} {reason : RetentionKeepReason} :
    reason ∈ reasons.get snapshotId ↔ (snapshotId, reason) ∈ reasons := by
  simp [get, RetentionKeepReason.mem_all]

theorem mem_keys {reasons : ReasonMap} {snapshotId : String} :
    snapshotId ∈ reasons.keys ↔ ∃ reason, (snapshotId, reason) ∈ reasons := by
  simp [keys]

end ReasonMap

/-- `newest_first`, as the comparison "not after". -/
def newerFirst (left right : SnapshotRetentionEntry) : Bool :=
  left.sequenceNumber > right.sequenceNumber ||
    (left.sequenceNumber = right.sequenceNumber &&
      (left.createdAtUnixSeconds > right.createdAtUnixSeconds ||
        (left.createdAtUnixSeconds = right.createdAtUnixSeconds &&
          left.snapshotId ≤ right.snapshotId)))

/-- `oldest_first`, as the comparison "not after". -/
def olderFirst (left right : SnapshotRetentionEntry) : Bool :=
  left.sequenceNumber < right.sequenceNumber ||
    (left.sequenceNumber = right.sequenceNumber &&
      (left.createdAtUnixSeconds < right.createdAtUnixSeconds ||
        (left.createdAtUnixSeconds = right.createdAtUnixSeconds &&
          left.snapshotId ≤ right.snapshotId)))

def newestFirst (snapshots : List SnapshotRetentionEntry) : List SnapshotRetentionEntry :=
  snapshots.insertionSort fun left right => newerFirst left right

def oldestFirst (snapshots : List SnapshotRetentionEntry) : List SnapshotRetentionEntry :=
  snapshots.insertionSort fun left right => olderFirst left right

@[simp] theorem mem_oldestFirst {snapshots : List SnapshotRetentionEntry}
    {snapshot : SnapshotRetentionEntry} :
    snapshot ∈ oldestFirst snapshots ↔ snapshot ∈ snapshots :=
  (List.perm_insertionSort _ _).mem_iff

theorem nodup_oldestFirst {snapshots : List SnapshotRetentionEntry}
    (hnodup : (snapshots.map (·.snapshotId)).Nodup) :
    ((oldestFirst snapshots).map (·.snapshotId)).Nodup := by
  have hperm := List.perm_insertionSort (fun a b => olderFirst a b) snapshots
  exact (hperm.map _).nodup_iff.mpr hnodup

/-- Buckets with the latest snapshot of each. -/
abbrev Buckets := List (UInt64 × SnapshotRetentionEntry)

/-- The body of the loop of `latest_per_bucket`. -/
def insertIntoBucket (floorUnixSeconds bucketSeconds : UInt64) (buckets : Buckets)
    (snapshot : SnapshotRetentionEntry) : Buckets :=
  if snapshot.createdAtUnixSeconds < floorUnixSeconds then
    buckets
  else
    let bucket := snapshot.createdAtUnixSeconds / bucketSeconds
    match buckets.lookup bucket with
    | none => (bucket, snapshot) :: buckets
    | some current =>
      if snapshot.sequenceNumber > current.sequenceNumber ||
          (snapshot.sequenceNumber = current.sequenceNumber &&
            snapshot.createdAtUnixSeconds > current.createdAtUnixSeconds) then
        (bucket, snapshot) :: buckets.filter fun entry => entry.1 ≠ bucket
      else
        buckets

def latestPerBucket (snapshots : List SnapshotRetentionEntry)
    (floorUnixSeconds bucketSeconds : UInt64) : List SnapshotRetentionEntry :=
  (snapshots.foldl (insertIntoBucket floorUnixSeconds bucketSeconds) []).map Prod.snd

/-- One of the loops that add a reason. -/
def addReasons (reason : RetentionKeepReason) (snapshotIds : List String)
    (reasons : ReasonMap) : ReasonMap :=
  snapshotIds.foldl (fun reasons snapshotId => reasons.addReason snapshotId reason) reasons

/-- `retention_reasons` up to the protection of parents. -/
def directReasons (input : PruningPlanInput) : ReasonMap :=
  let reasons := addReasons .canonicalLatest input.canonicalLatestSnapshotId.toList []
  let reasons := addReasons .pinned
    ((input.snapshots.filter fun snapshot => snapshot.pinned).map (·.snapshotId)) reasons
  let reasons := addReasons .handoffProtected
    ((input.handoffProtections.filter fun protection =>
      input.nowUnixSeconds ≤ protection.protectUntilUnixSeconds).map (·.snapshotId)) reasons
  let reasons := addReasons .hotSnapshot
    (((newestFirst input.snapshots).take input.policy.hotSnapshotCount).map
      (·.snapshotId)) reasons
  let hourlyFloor := saturatingSub input.nowUnixSeconds
    (input.policy.hourlyThinningHours * secondsPerHour)
  let reasons := addReasons .hourlyThinning
    ((latestPerBucket input.snapshots hourlyFloor secondsPerHour).map (·.snapshotId)) reasons
  let dailyFloor := saturatingSub input.nowUnixSeconds
    (input.policy.dailyThinningDays * secondsPerDay)
  addReasons .dailyThinning
    ((latestPerBucket input.snapshots dailyFloor secondsPerDay).map (·.snapshotId)) reasons

/-- The map from ids to parents: of two entries with one id the last one counts. -/
def parentOf (snapshots : List SnapshotRetentionEntry) (snapshotId : String) : Option String :=
  (snapshots.reverse.find? fun snapshot => snapshot.snapshotId = snapshotId).bind
    (·.parentSnapshotId)

/-- The ids with a reason form the stack, its top is the last of them. -/
def protectRetainedParents (snapshots : List SnapshotRetentionEntry)
    (reasons : ReasonMap) : Option ReasonMap :=
  followLinks (parentOf snapshots)
    (fun reasons parent => reasons.addReason parent .retainedParent)
    (reasons.keys.length + snapshots.length) reasons.keys.reverse [] reasons

theorem mem_of_parentOf {snapshots : List SnapshotRetentionEntry} {child parent : String}
    (h : parentOf snapshots child = some parent) :
    child ∈ snapshots.map (·.snapshotId) := by
  obtain ⟨snapshot, hfind, -⟩ := Option.bind_eq_some_iff.mp h
  have hmem := List.mem_of_find?_eq_some hfind
  have hid := List.find?_some hfind
  rw [decide_eq_true_eq] at hid
  exact List.mem_map.mpr ⟨snapshot, List.mem_reverse.mp hmem, hid⟩

/-- Protecting the parents ends, whatever the links are. -/
theorem protectRetainedParents_isSome (snapshots : List SnapshotRetentionEntry)
    (reasons : ReasonMap) :
    (protectRetainedParents snapshots reasons).isSome := by
  have hsources : ∀ x y, parentOf snapshots x = some y →
      x ∈ snapshots.map (·.snapshotId) := fun _ _ => mem_of_parentOf
  have hfilter := List.length_filter_le
    (fun x => decide (x ∉ ([] : List String))) (snapshots.map (·.snapshotId))
  rw [List.length_map] at hfilter
  rw [Option.isSome_iff_exists]
  refine followLinks_isSome hsources _ ?_
  rw [List.length_reverse]
  omega

def retentionReasons (input : PruningPlanInput) : ReasonMap :=
  (protectRetainedParents input.snapshots (directReasons input)).get
    (protectRetainedParents_isSome _ _)

/-! ## The plan -/

/-- Ids planned for deletion, with the reason. -/
abbrev DeleteReasons := List (String × PruningReason)

def outsideRetention (input : PruningPlanInput) (reasons : ReasonMap) : DeleteReasons :=
  (input.snapshots.filter fun snapshot => (reasons.get snapshot.snapshotId).isEmpty).map
    fun snapshot => (snapshot.snapshotId, .outsideRetention)

def plannedReclaimBytes (snapshots : List SnapshotRetentionEntry)
    (deleteReasons : DeleteReasons) : UInt64 :=
  ((snapshots.filter fun snapshot =>
    snapshot.snapshotId ∈ deleteReasons.map Prod.fst).map (·.estimatedSizeBytes)).sum

/-- The state of the pressure loop. -/
structure PressureState where
  reasons : ReasonMap
  deleteReasons : DeleteReasons
  plannedReclaimBytes : UInt64

/-- The loop over the snapshots, oldest first, until enough is reclaimed. -/
def pressurePass (target : UInt64) (pressureReason : PruningReason) :
    List SnapshotRetentionEntry → PressureState → PressureState
  | [], state => state
  | snapshot :: rest, state =>
    if state.plannedReclaimBytes ≥ target then
      state
    else if snapshot.snapshotId ∈ state.deleteReasons.map Prod.fst then
      pressurePass target pressureReason rest state
    else if (state.reasons.get snapshot.snapshotId).any (·.isHard) then
      pressurePass target pressureReason rest state
    else
      pressurePass target pressureReason rest {
        reasons := state.reasons.clear snapshot.snapshotId
        deleteReasons := (snapshot.snapshotId, pressureReason) :: state.deleteReasons
        plannedReclaimBytes :=
          saturatingAdd state.plannedReclaimBytes snapshot.estimatedSizeBytes }

/-- The decision about one snapshot. -/
def decisionFor (state : PressureState) (snapshot : SnapshotRetentionEntry) : PruningDecision where
  snapshotId := snapshot.snapshotId
  estimatedSizeBytes := snapshot.estimatedSizeBytes
  action :=
    match state.deleteReasons.lookup snapshot.snapshotId with
    | some reason => .delete reason
    | none => .keep (state.reasons.get snapshot.snapshotId)

namespace PruningPlanInput

def quotaOverage (input : PruningPlanInput) : UInt64 :=
  match input.policy.quotaBytes input.scope with
  | some quota => if quota ≤ input.currentUsageBytes then input.currentUsageBytes - quota else 0
  | none => 0

def hardStopDeficit (input : PruningPlanInput) : UInt64 :=
  saturatingSub input.policy.freeDiskHardStopThresholdBytes input.freeDiskBytes

def targetReclaimBytes (input : PruningPlanInput) : UInt64 :=
  max input.quotaOverage input.hardStopDeficit

/-- The state in front of the pressure pass. -/
def beforePressure (input : PruningPlanInput) : PressureState :=
  let reasons := retentionReasons input
  let deleteReasons := outsideRetention input reasons
  { reasons
    deleteReasons
    plannedReclaimBytes := Retention.plannedReclaimBytes input.snapshots deleteReasons }

def afterPressure (input : PruningPlanInput) : PressureState :=
  let state := input.beforePressure
  if state.plannedReclaimBytes < input.targetReclaimBytes then
    let pressureReason :=
      if input.quotaOverage ≥ input.hardStopDeficit && input.quotaOverage > 0 then
        .quotaPressure
      else
        .freeDiskPressure
    pressurePass input.targetReclaimBytes pressureReason (oldestFirst input.snapshots) state
  else
    state

def warnings (input : PruningPlanInput) (planned : UInt64) : List PruningPlanWarning :=
  (if input.quotaOverage > 0 then
    [⟨.quotaExceeded, "snapshot cache exceeds configured quota by " ++
      toString input.quotaOverage ++ " bytes"⟩] else []) ++
  (if input.freeDiskBytes < input.policy.freeDiskWarningThresholdBytes then
    [⟨.freeDiskLow, "free disk is below warning threshold"⟩] else []) ++
  (if input.hardStopDeficit > 0 then
    [⟨.freeDiskHardStop, "free disk is below hard stop threshold"⟩] else []) ++
  (if planned < input.targetReclaimBytes then
    [⟨.insufficientReclaimableSnapshots, "planner can reclaim " ++ toString planned ++
      " bytes but target is " ++ toString input.targetReclaimBytes ++ " bytes"⟩] else [])

end PruningPlanInput

def planSnapshotPruning (input : PruningPlanInput) : PruningPlan :=
  let state := input.afterPressure
  { scope := input.scope
    currentUsageBytes := input.currentUsageBytes
    freeDiskBytes := input.freeDiskBytes
    targetReclaimBytes := input.targetReclaimBytes
    plannedReclaimBytes := state.plannedReclaimBytes
    decisions := input.snapshots.map (decisionFor state)
    warnings := input.warnings state.plannedReclaimBytes }

end DevRelay.Retention
