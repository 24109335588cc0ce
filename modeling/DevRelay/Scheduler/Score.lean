import DevRelay.Core.Policy
import DevRelay.Lib.Machine
import DevRelay.Tasks.TaskModel

/-!
# Which devices can run a task

`scheduler_constraints.rs`: a device is eligible when nothing rejects it.  Each
constraint compares one requirement of the task with what the device says of
itself.
-/

namespace DevRelay.Scheduler

open DevRelay.Core

inductive ResourcePowerSource where
  | ac
  | battery
  | unknown
  deriving DecidableEq, Repr

inductive ForegroundLoad where
  | idle
  | busy
  | unknown
  deriving DecidableEq, Repr

inductive SchedulerNetworkRouteQuality where
  | unknown
  | poor
  | fair
  | good
  | excellent
  deriving DecidableEq, Repr

structure SchedulerDevicePolicy where
  allowTaskExecution : Bool
  reason : Option String
  deriving DecidableEq, Repr

structure SchedulerDynamicResources where
  cpuLoad1mMilli : Option UInt64
  memoryFreeMib : Option UInt64
  diskFreeMib : Option UInt64
  powerSource : ResourcePowerSource
  lowPowerMode : Bool
  foregroundLoad : ForegroundLoad
  networkRouteQuality : SchedulerNetworkRouteQuality
  deriving DecidableEq, Repr

structure SchedulerDeviceSnapshot where
  deviceId : String
  platformKey : String
  cpuCores : UInt64
  memoryTotalMib : Option UInt64
  diskTotalMib : Option UInt64
  features : List String
  policy : SchedulerDevicePolicy
  dynamic : SchedulerDynamicResources
  deriving DecidableEq, Repr

inductive SchedulerConstraintRejection where
  | incompatiblePlatform (actual : String) (required : List String)
  | missingFeatures (missing : List String)
  | insufficientCpu (requiredCores availableCores : UInt64)
  | insufficientMemory (requiredMib : UInt64) (availableMib capacityMib : Option UInt64)
  | insufficientDisk (requiredMib : UInt64) (availableMib capacityMib : Option UInt64)
  | policyDisallowed (reason : Option String)
  deriving DecidableEq, Repr

structure SchedulerConstraintDecision where
  deviceId : String
  eligible : Bool
  rejections : List SchedulerConstraintRejection
  deriving DecidableEq, Repr

def resourceIsInsufficient (requiredMib : UInt64) (availableMib capacityMib : Option UInt64) :
    Bool :=
  match availableMib with
  | some availableMib => availableMib < requiredMib
  | none =>
    match capacityMib with
    | some capacityMib => capacityMib < requiredMib
    | none => true

def missingFeatures (required actual : List String) : List String :=
  sorted (required.filter fun feature => feature ∉ actual)

/-- `isMatch` is `Glob::new` and the matcher of it, with no match for what is not a glob. -/
def platformPatternMatches (isMatch : String → String → Bool) (pattern actual : String) : Bool :=
  pattern = actual || startsWith actual.toList (pattern ++ "-") || isMatch pattern actual

section

variable (isMatch : String → String → Bool) (definition : TaskDefinition)
  (device : SchedulerDeviceSnapshot)

def policyRejections : List SchedulerConstraintRejection :=
  if device.policy.allowTaskExecution then [] else [.policyDisallowed device.policy.reason]

def platformRejections : List SchedulerConstraintRejection :=
  if definition.platforms ≠ [] && !definition.platforms.any fun pattern =>
      platformPatternMatches isMatch pattern device.platformKey then
    [.incompatiblePlatform device.platformKey definition.platforms]
  else []

def featureRejections : List SchedulerConstraintRejection :=
  let missing := missingFeatures definition.features device.features
  if missing ≠ [] then [.missingFeatures missing] else []

def cpuRejections : List SchedulerConstraintRejection :=
  match definition.cpu with
  | some requiredCores =>
    if requiredCores > device.cpuCores then [.insufficientCpu requiredCores device.cpuCores]
    else []
  | none => []

def memoryRejections : List SchedulerConstraintRejection :=
  match definition.memoryMib with
  | some requiredMib =>
    if resourceIsInsufficient requiredMib device.dynamic.memoryFreeMib
        device.memoryTotalMib then
      [.insufficientMemory requiredMib device.dynamic.memoryFreeMib device.memoryTotalMib]
    else []
  | none => []

def diskRejections : List SchedulerConstraintRejection :=
  match definition.diskMib with
  | some requiredMib =>
    if requiredMib > 0 && resourceIsInsufficient requiredMib device.dynamic.diskFreeMib
        device.diskTotalMib then
      [.insufficientDisk requiredMib device.dynamic.diskFreeMib device.diskTotalMib]
    else []
  | none => []

def evaluateSchedulerConstraints : SchedulerConstraintDecision :=
  let rejections := policyRejections device ++ platformRejections isMatch definition device ++
    featureRejections definition device ++ cpuRejections definition device ++
    memoryRejections definition device ++ diskRejections definition device
  ⟨device.deviceId, rejections.isEmpty, rejections⟩

/-- The device satisfies all constraints of the task. -/
def Eligible : Prop := (evaluateSchedulerConstraints isMatch definition device).eligible = true

instance : Decidable (Eligible isMatch definition device) :=
  inferInstanceAs (Decidable (_ = true))

end

theorem resourceIsInsufficient_of_le {requiredMib available available' : UInt64}
    {capacity : Option UInt64} (hle : available ≤ available')
    (h : resourceIsInsufficient requiredMib (some available) capacity = false) :
    resourceIsInsufficient requiredMib (some available') capacity = false := by
  unfold resourceIsInsufficient at h ⊢
  simp only [decide_eq_false_iff_not, UInt64.lt_iff_toNat_lt, UInt64.le_iff_toNat_le] at h hle ⊢
  omega

end DevRelay.Scheduler

/-!
## Scores

`scheduler_score.rs`: eleven signals of an eligible device, each between 0 and
1000, are weighted by the class of the task.  The plain operators are the checked
ones: without a score there was a panic.
-/

namespace DevRelay.Scheduler

open DevRelay.Lib DevRelay.Core

def defaultUnknownScore : UInt16 := 600
def transferCostFullPenaltyMib : UInt64 := 8192

inductive SchedulerTaskClass where
  | interactive
  | test
  | build
  | batch
  | background
  deriving DecidableEq, Repr

inductive SchedulerThermalPressure where
  | unknown
  | nominal
  | fair
  | serious
  | critical
  deriving DecidableEq, Repr

structure SchedulerScoreMeasurements where
  cacheWarmthPerMille : Option UInt16 := none
  dataLocalityPerMille : Option UInt16 := none
  networkRouteQuality : Option SchedulerNetworkRouteQuality := none
  historicalSpeedPerMille : Option UInt16 := none
  userAffinityPerMille : Option UInt16 := none
  transferCostMib : Option UInt64 := none
  thermalPressure : SchedulerThermalPressure := .unknown
  deriving DecidableEq, Repr

structure SchedulerScoreWeights where
  cacheWarmth : UInt16
  idleCpu : UInt16
  freeMemory : UInt16
  powerPreference : UInt16
  dataLocality : UInt16
  networkQuality : UInt16
  historicalSpeed : UInt16
  userAffinity : UInt16
  transferCost : UInt16
  foreground : UInt16
  thermal : UInt16
  deriving DecidableEq, Repr

namespace SchedulerScoreWeights

def forTaskClass : SchedulerTaskClass → SchedulerScoreWeights
  | .interactive => ⟨80, 160, 110, 70, 80, 120, 80, 180, 80, 170, 70⟩
  | .test => ⟨170, 160, 130, 50, 120, 80, 130, 70, 100, 90, 60⟩
  | .build => ⟨150, 150, 150, 50, 140, 80, 140, 50, 120, 80, 80⟩
  | .batch => ⟨100, 130, 120, 90, 120, 90, 120, 60, 140, 80, 90⟩
  | .background => ⟨90, 100, 100, 170, 120, 80, 80, 50, 130, 140, 130⟩

def all (self : SchedulerScoreWeights) : List UInt16 :=
  [self.cacheWarmth, self.idleCpu, self.freeMemory, self.powerPreference, self.dataLocality,
    self.networkQuality, self.historicalSpeed, self.userAffinity, self.transferCost,
    self.foreground, self.thermal]

def total (self : SchedulerScoreWeights) : Option UInt64 :=
  checkedSum (self.all.map (·.toUInt64))

end SchedulerScoreWeights

inductive SchedulerScoreComponentKind where
  | cacheWarmth
  | idleCpu
  | freeMemory
  | powerPreference
  | dataLocality
  | networkQuality
  | historicalSpeed
  | userAffinity
  | transferCostPenalty
  | foregroundPenalty
  | thermalPenalty
  deriving DecidableEq, Repr

/-- The `\x7b:?\x7d` rendering. -/
def SchedulerScoreComponentKind.debug : SchedulerScoreComponentKind → String
  | .cacheWarmth => "CacheWarmth"
  | .idleCpu => "IdleCpu"
  | .freeMemory => "FreeMemory"
  | .powerPreference => "PowerPreference"
  | .dataLocality => "DataLocality"
  | .networkQuality => "NetworkQuality"
  | .historicalSpeed => "HistoricalSpeed"
  | .userAffinity => "UserAffinity"
  | .transferCostPenalty => "TransferCostPenalty"
  | .foregroundPenalty => "ForegroundPenalty"
  | .thermalPenalty => "ThermalPenalty"

structure SchedulerScoreComponent where
  kind : SchedulerScoreComponentKind
  scorePerMille : UInt16
  weight : UInt16
  weightedPoints : UInt64
  explanation : String
  deriving DecidableEq, Repr

structure SchedulerScore where
  deviceId : String
  eligible : Bool
  totalScorePerMille : UInt16
  taskClass : SchedulerTaskClass
  constraintDecision : SchedulerConstraintDecision
  components : List SchedulerScoreComponent
  deriving DecidableEq, Repr

structure SchedulerTargetSelection where
  selectedDeviceId : Option String
  selectedScorePerMille : Option UInt16
  scores : List SchedulerScore
  explanation : List String
  deriving DecidableEq, Repr

/-! ## Signals -/

def boundedSignal (value : Option UInt16) (fallback : UInt16) : UInt16 :=
  min (value.getD fallback) 1000

/-- What is in the cast of `idle_cpu_score`. -/
def idleCpuPerMille (cpuCores load : UInt64) : Option UInt64 := do
  let capacity ← checkedMul (max cpuCores 1) 1000
  let busy := min load capacity
  let idle ← checkedSub capacity busy
  checkedDiv (← checkedMul idle 1000) capacity

def idleCpuScore (device : SchedulerDeviceSnapshot) : Option UInt16 :=
  match device.dynamic.cpuLoad1mMilli with
  | none => some defaultUnknownScore
  | some load => (idleCpuPerMille device.cpuCores load).map (·.toUInt16)

/-- What is in the casts of `free_memory_score`. -/
def freePerMille (freeMib wholeMib : UInt64) : Option UInt64 := do
  checkedDiv (← checkedMul (min freeMib wholeMib) 1000) wholeMib

/-- What the free memory is a part of: the requirement of the task, or else the memory. -/
def wholeMemory (definition : TaskDefinition) (device : SchedulerDeviceSnapshot) : Option UInt64 :=
  match definition.memoryMib.filter (0 < ·) with
  | some requiredMib => some requiredMib
  | none => device.memoryTotalMib.filter (0 < ·)

def freeMemoryScore (definition : TaskDefinition) (device : SchedulerDeviceSnapshot) :
    Option UInt16 :=
  match device.dynamic.memoryFreeMib with
  | none => some defaultUnknownScore
  | some freeMib =>
    match wholeMemory definition device with
    | some wholeMib => (freePerMille freeMib wholeMib).map (·.toUInt16)
    | none => some defaultUnknownScore

def powerPreferenceScore (device : SchedulerDeviceSnapshot) : UInt16 :=
  if device.dynamic.lowPowerMode then 250
  else
    match device.dynamic.powerSource with
    | .ac => 1000
    | .battery => 350
    | .unknown => 700

def networkQualityScore : SchedulerNetworkRouteQuality → UInt16
  | .excellent => 1000
  | .good => 800
  | .fair => 550
  | .poor => 250
  | .unknown => defaultUnknownScore

/-- What is in the cast of `transfer_cost_score`. -/
def transferPerMille (transferCostMib : UInt64) : Option UInt64 := do
  let scaled ← checkedMul (min transferCostMib transferCostFullPenaltyMib) 1000
  let penalty ← checkedDiv scaled transferCostFullPenaltyMib
  checkedSub 1000 penalty

def transferCostScore : Option UInt64 → Option UInt16
  | none => some defaultUnknownScore
  | some transferCostMib => (transferPerMille transferCostMib).map (·.toUInt16)

def foregroundScore : ForegroundLoad → UInt16
  | .idle => 1000
  | .busy => 250
  | .unknown => defaultUnknownScore

def thermalScore : SchedulerThermalPressure → UInt16
  | .nominal => 1000
  | .fair => 750
  | .serious => 300
  | .critical => 0
  | .unknown => defaultUnknownScore

/-! ## One device -/

def component (kind : SchedulerScoreComponentKind) (scorePerMille weight : UInt16)
    (explanation : String) : Option SchedulerScoreComponent := do
  let weightedPoints ← checkedMul scorePerMille.toUInt64 weight.toUInt64
  return ⟨kind, scorePerMille, weight, weightedPoints, explanation⟩

/-- The signals of a device in the order of the components, with their weights. -/
def signals (definition : TaskDefinition) (device : SchedulerDeviceSnapshot)
    (measurements : SchedulerScoreMeasurements) (weights : SchedulerScoreWeights) :
    List (SchedulerScoreComponentKind × Option UInt16 × UInt16 × String) :=
  [(.cacheWarmth, some (boundedSignal measurements.cacheWarmthPerMille defaultUnknownScore),
      weights.cacheWarmth, "cache warmth signal"),
    (.idleCpu, idleCpuScore device, weights.idleCpu, "available CPU headroom"),
    (.freeMemory, freeMemoryScore definition device, weights.freeMemory,
      "free memory against task requirement"),
    (.powerPreference, some (powerPreferenceScore device), weights.powerPreference,
      "AC power and low-power mode preference"),
    (.dataLocality, some (boundedSignal measurements.dataLocalityPerMille defaultUnknownScore),
      weights.dataLocality, "snapshot and dependency locality signal"),
    (.networkQuality, some (networkQualityScore (measurements.networkRouteQuality.getD
      device.dynamic.networkRouteQuality)), weights.networkQuality,
      "network route quality signal"),
    (.historicalSpeed, some (boundedSignal measurements.historicalSpeedPerMille
      defaultUnknownScore), weights.historicalSpeed, "historical task speed signal"),
    (.userAffinity, some (boundedSignal measurements.userAffinityPerMille defaultUnknownScore),
      weights.userAffinity, "user affinity signal"),
    (.transferCostPenalty, transferCostScore measurements.transferCostMib, weights.transferCost,
      "lower estimated transfer cost scores higher"),
    (.foregroundPenalty, some (foregroundScore device.dynamic.foregroundLoad),
      weights.foreground, "busy foreground activity scores lower"),
    (.thermalPenalty, some (thermalScore measurements.thermalPressure), weights.thermal,
      "thermal pressure placeholder")]

def schedulerScoreComponents (definition : TaskDefinition) (device : SchedulerDeviceSnapshot)
    (measurements : SchedulerScoreMeasurements) (weights : SchedulerScoreWeights) :
    Option (List SchedulerScoreComponent) :=
  (signals definition device measurements weights).mapM fun (kind, score, weight, explanation) =>
    score.bind fun score => component kind score weight explanation

/-- What is in the cast of the total. -/
def totalPerMille (weights : SchedulerScoreWeights) (components : List SchedulerScoreComponent) :
    Option UInt64 := do
  let totalWeight := max (← weights.total) 1
  let totalPoints ← checkedSum (components.map (·.weightedPoints))
  return min (← checkedDiv totalPoints totalWeight) 1000

section

variable (isMatch : String → String → Bool)

def scoreSchedulerCandidateWithClass (definition : TaskDefinition)
    (device : SchedulerDeviceSnapshot) (measurements : SchedulerScoreMeasurements)
    (taskClass : SchedulerTaskClass) : Option SchedulerScore :=
  let constraintDecision := evaluateSchedulerConstraints isMatch definition device
  if !constraintDecision.eligible then
    some ⟨device.deviceId, false, 0, taskClass, constraintDecision, []⟩
  else do
    let weights := SchedulerScoreWeights.forTaskClass taskClass
    let components ← schedulerScoreComponents definition device measurements weights
    let total ← totalPerMille weights components
    return ⟨device.deviceId, true, total.toUInt16, taskClass, constraintDecision, components⟩

def inferSchedulerTaskClass (definition : TaskDefinition) : SchedulerTaskClass :=
  let command := (toAsciiLowercase (" ".intercalate definition.command)).toList
  let taskName := (toAsciiLowercase definition.taskName).toList
  if definition.interactive then .interactive
  else if containsWord taskName "test" || containsWord command " test" ||
      containsWord command "pytest" || containsWord command "cargo test" then
    .test
  else if definition.outputs ≠ [] || definition.cache = some .write ||
      definition.cache = some .readWrite || containsWord taskName "build" ||
      containsWord command " build" || containsWord command "cargo build" then
    .build
  else .batch

def scoreSchedulerCandidate (definition : TaskDefinition) (device : SchedulerDeviceSnapshot)
    (measurements : SchedulerScoreMeasurements) : Option SchedulerScore :=
  scoreSchedulerCandidateWithClass isMatch definition device measurements
    (inferSchedulerTaskClass definition)

/-! ## Selection -/

/-- A higher score first, and of equal scores the smaller id. -/
def rankedBefore (left right : SchedulerScore) : Prop :=
  right.totalScorePerMille < left.totalScorePerMille ∨
    (right.totalScorePerMille = left.totalScorePerMille ∧ left.deviceId ≤ right.deviceId)

instance : DecidableRel rankedBefore := fun left right => by
  unfold rankedBefore
  infer_instance

def selectionExplanation (score : SchedulerScore) : List String :=
  ("selected " ++ score.deviceId ++ " with score " ++ toString score.totalScorePerMille ++
    "/1000") ::
    (score.components.take 3).map fun component =>
      component.kind.debug ++ ": " ++ component.explanation ++ " (" ++
        toString component.scorePerMille ++ "/1000, weight " ++ toString component.weight ++ ")"

def noSelectionExplanation (scores : List SchedulerScore) : List String :=
  if scores = [] then ["no scheduler candidates were available"]
  else
    ["no eligible scheduler target; " ++
      toString (scores.filter fun score => !score.eligible).length ++
      " candidate(s) rejected by constraints"]

/-- The eligible score that is ranked first. -/
def selectedScore (scores : List SchedulerScore) : Option SchedulerScore :=
  ((scores.filter (·.eligible)).insertionSort rankedBefore).head?

def selectSchedulerTarget (definition : TaskDefinition) (devices : List SchedulerDeviceSnapshot)
    (measurementsByDevice : SortedMap String SchedulerScoreMeasurements) :
    Option SchedulerTargetSelection := do
  let scores ← devices.mapM fun device =>
    scoreSchedulerCandidate isMatch definition device
      ((measurementsByDevice.find? device.deviceId).getD {})
  let selected := selectedScore scores
  return {
    selectedDeviceId := selected.map (·.deviceId)
    selectedScorePerMille := selected.map (·.totalScorePerMille)
    scores := scores
    explanation := (selected.map selectionExplanation).getD (noSelectionExplanation scores) }

end

end DevRelay.Scheduler
