import DevRelay.Retention.PlanSpec
import Mathlib.Algebra.Order.BigOperators.Group.List
import Mathlib.Algebra.Order.Ring.Nat

/-!
# Planner safety

What a pruning plan owes: what has to be kept is kept, the parents of what is kept
are kept, every snapshot is decided once, and the pressure pass stops once enough
is planned.  The bytes planned before the pressure pass are summed without
saturation, so the last of these holds up to a wrap of that sum.
-/

namespace DevRelay.Retention

open DevRelay.Lib

/-! ## Decisions -/

namespace PruningDecision

def isKept (self : PruningDecision) : Bool :=
  match self.action with
  | .keep _ => true
  | .delete _ => false

/-- Deleted because nothing retains the snapshot. -/
def isOutside (self : PruningDecision) : Bool :=
  match self.action with
  | .delete .outsideRetention => true
  | _ => false

/-- Deleted by the pressure pass. -/
def isPressed (self : PruningDecision) : Bool :=
  match self.action with
  | .delete .quotaPressure | .delete .freeDiskPressure => true
  | _ => false

end PruningDecision

/-- The bytes of some decisions, without a bound. -/
def bytesOf (decisions : List PruningDecision) : Nat :=
  (decisions.map (·.estimatedSizeBytes.toNat)).sum

/-- The snapshots the pressure pass has passed when it reaches `id`. -/
def olderIds (input : PruningPlanInput) (id : String) : List String :=
  ((oldestFirst input.snapshots).takeWhile fun s => s.snapshotId ≠ id).map (·.snapshotId)

/-- The bytes planned for deletion when the pressure pass reaches `id`. -/
def plannedBefore (input : PruningPlanInput) (id : String) : Nat :=
  let decisions := (planSnapshotPruning input).decisions
  bytesOf (decisions.filter (·.isOutside)) +
    bytesOf (decisions.filter fun d => d.isPressed && d.snapshotId ∈ olderIds input id)

def Kept (input : PruningPlanInput) (id : String) : Prop :=
  ∃ d ∈ (planSnapshotPruning input).decisions, d.snapshotId = id ∧ d.isKept = true

/-- The plan is safe. -/
structure SafePlan (input : PruningPlanInput) : Prop where
  ends : (protectRetainedParents input.snapshots (directReasons input)).isSome
  hardKept : ∀ s ∈ input.snapshots, input.HardKept s.snapshotId → Kept input s.snapshotId
  parentKept : ∀ s ∈ input.snapshots, Kept input s.snapshotId →
    ∀ p ∈ input.snapshots, s.parentSnapshotId = some p.snapshotId →
      Kept input p.snapshotId
  decidedOnce : ∀ s ∈ input.snapshots,
    (planSnapshotPruning input).decisions.countP
      (fun d => d.snapshotId = s.snapshotId) = 1
  pressed : ∀ d ∈ (planSnapshotPruning input).decisions, d.isPressed = true →
    plannedBefore input d.snapshotId < (planSnapshotPruning input).targetReclaimBytes.toNat

/-! ## Reasons of the deletions -/

section Reasons

variable {target : UInt64} {pressureReason : PruningReason} {id : String}

/-- The pass adds deletions with its own reason, and leaves the others. -/
theorem lookup_pressurePass {snapshots : List SnapshotRetentionEntry} {state : PressureState} :
    (pressurePass target pressureReason snapshots state).deleteReasons.lookup id =
        state.deleteReasons.lookup id ∨
      (state.deleteReasons.lookup id = none ∧
        (pressurePass target pressureReason snapshots state).deleteReasons.lookup id =
          some pressureReason) := by
  induction snapshots generalizing state with
  | nil => exact Or.inl rfl
  | cons snapshot rest ih =>
    rw [pressurePass]
    split
    · exact Or.inl rfl
    · split
      · exact ih
      · rename_i hopen
        split
        · exact ih
        · -- the snapshot is planned
          let next : PressureState := {
            reasons := state.reasons.clear snapshot.snapshotId
            deleteReasons := (snapshot.snapshotId, pressureReason) :: state.deleteReasons
            plannedReclaimBytes :=
              saturatingAdd state.plannedReclaimBytes snapshot.estimatedSizeBytes }
          have hstep := @ih next
          by_cases hid : id = snapshot.snapshotId
          · have hnone : state.deleteReasons.lookup id = none := by
              rw [List.lookup_eq_none_iff]
              intro entry hentry
              rw [bne_iff_ne]
              intro heq
              apply hopen
              rw [← hid, heq]
              exact List.mem_map_of_mem hentry
            have hnext : next.deleteReasons.lookup id = some pressureReason := by
              change ((snapshot.snapshotId, pressureReason) :: _).lookup id = _
              rw [hid, List.lookup_cons_self]
            rw [hnext] at hstep
            rcases hstep with hsame | ⟨hcontra, -⟩
            · exact Or.inr ⟨hnone, hsame⟩
            · cases hcontra
          · have hnext : next.deleteReasons.lookup id = state.deleteReasons.lookup id := by
              change ((snapshot.snapshotId, pressureReason) :: _).lookup id = _
              rw [List.lookup_cons, beq_eq_false_iff_ne.mpr hid]
            rw [hnext] at hstep
            exact hstep

theorem mem_keys_of_lookup {deleteReasons : DeleteReasons} {reason : PruningReason}
    (h : deleteReasons.lookup id = some reason) : (id, reason) ∈ deleteReasons := by
  obtain ⟨before, after, heq, -⟩ := List.lookup_eq_some_iff.mp h
  rw [heq]
  exact List.mem_append_right before List.mem_cons_self

variable {input : PruningPlanInput}

theorem lookup_beforePressure :
    input.beforePressure.deleteReasons.lookup id = some .outsideRetention ↔
      id ∈ input.beforePressure.deleteReasons.map Prod.fst := by
  constructor
  · intro h
    exact List.mem_map.mpr ⟨_, mem_keys_of_lookup h, rfl⟩
  · intro hmem
    obtain ⟨entry, hentry, rfl⟩ := List.mem_map.mp hmem
    have hsome : (input.beforePressure.deleteReasons.lookup entry.1).isSome := by
      rw [List.lookup_isSome_iff]
      exact ⟨entry, hentry, beq_self_eq_true _⟩
    obtain ⟨reason, hreason⟩ := Option.isSome_iff_exists.mp hsome
    -- before the pass there is only one reason
    obtain ⟨s, -, hs⟩ := List.mem_map.mp (mem_keys_of_lookup hreason)
    have heq : PruningReason.outsideRetention = reason := congrArg Prod.snd hs
    rw [hreason, heq]

/-- A deletion is outside retention exactly when it was planned before the pass. -/
theorem lookup_afterPressure :
    input.afterPressure.deleteReasons.lookup id = some .outsideRetention ↔
      id ∈ input.beforePressure.deleteReasons.map Prod.fst := by
  obtain ⟨reason, hne, hpass⟩ := afterPressure_eq input
  rw [hpass, ← lookup_beforePressure]
  rcases @lookup_pressurePass input.targetReclaimBytes reason id
    (oldestFirst input.snapshots) input.beforePressure with hsame | ⟨hnone, hnew⟩
  · rw [hsame]
  · rw [hnew, hnone]
    constructor
    · intro h
      exact absurd (Option.some.inj h) hne
    · intro h
      cases h

/-- The three decisions, by what the snapshot is. -/
theorem decisionFor_isOutside {s : SnapshotRetentionEntry} (hs : s ∈ input.snapshots) :
    (decisionFor input.afterPressure s).isOutside = true ↔ ¬input.Retained s.snapshotId := by
  have hplanned : s.snapshotId ∈ input.beforePressure.deleteReasons.map Prod.fst ↔
      ¬input.Retained s.snapshotId := by
    rw [mem_beforePressure]
    constructor
    · rintro ⟨-, -, -, hnot⟩
      exact hnot
    · intro hnot
      exact ⟨s, hs, rfl, hnot⟩
  rw [← hplanned, ← lookup_afterPressure]
  unfold decisionFor PruningDecision.isOutside
  dsimp only
  cases input.afterPressure.deleteReasons.lookup s.snapshotId with
  | none => simp
  | some reason => cases reason <;> simp

theorem decisionFor_isKept (hnodup : (input.snapshots.map (·.snapshotId)).Nodup)
    {s : SnapshotRetentionEntry} (hs : s ∈ input.snapshots) :
    (decisionFor input.afterPressure s).isKept = true ↔ ¬input.Evicted s.snapshotId := by
  have hplanned : s.snapshotId ∈ input.afterPressure.deleteReasons.map Prod.fst ↔
      input.Evicted s.snapshotId := by
    rw [mem_afterPressure hnodup]
    exact and_iff_right ⟨s, hs, rfl⟩
  have hlookup : (input.afterPressure.deleteReasons.lookup s.snapshotId).isSome = true ↔
      s.snapshotId ∈ input.afterPressure.deleteReasons.map Prod.fst := by
    rw [List.lookup_isSome_iff]
    simp
  rw [← hplanned, ← hlookup]
  unfold decisionFor PruningDecision.isKept
  dsimp only
  cases input.afterPressure.deleteReasons.lookup s.snapshotId with
  | none => simp
  | some reason => simp

theorem decisionFor_isPressed (hnodup : (input.snapshots.map (·.snapshotId)).Nodup)
    {s : SnapshotRetentionEntry} (hs : s ∈ input.snapshots) :
    (decisionFor input.afterPressure s).isPressed = true ↔
      input.Retained s.snapshotId ∧ input.Evicted s.snapshotId := by
  have hthree : (decisionFor input.afterPressure s).isPressed =
      (!(decisionFor input.afterPressure s).isKept &&
        !(decisionFor input.afterPressure s).isOutside) := by
    unfold PruningDecision.isPressed PruningDecision.isKept PruningDecision.isOutside
    cases (decisionFor input.afterPressure s).action with
    | keep reasons => rfl
    | delete reason => cases reason <;> rfl
  rw [hthree, Bool.and_eq_true, Bool.not_eq_true', Bool.not_eq_true', ← Bool.not_eq_true,
    ← Bool.not_eq_true, decisionFor_isKept hnodup hs, decisionFor_isOutside hs,
    not_not, not_not, and_comm]

end Reasons

/-! ## Bytes -/

/-- A sum of machine words is the sum of their values up to a wrap. -/
theorem toNat_sum_map (sizes : List UInt64) :
    sizes.sum.toNat = (sizes.map UInt64.toNat).sum % 2 ^ 64 := by
  induction sizes with
  | nil => rfl
  | cons size sizes ih =>
    rw [List.sum_cons, UInt64.toNat_add, ih, List.map_cons, List.sum_cons, Nat.add_mod_mod]

/-- The bytes of some snapshots, without a bound. -/
def sizeOf (snapshots : List SnapshotRetentionEntry) : Nat :=
  (snapshots.map (·.estimatedSizeBytes.toNat)).sum

theorem sizeOf_perm {xs ys : List SnapshotRetentionEntry} (h : xs.Perm ys) :
    sizeOf xs = sizeOf ys := (h.map _).sum_nat

theorem bytesOf_map_decisionFor {state : PressureState} {snapshots : List SnapshotRetentionEntry} :
    bytesOf (snapshots.map (decisionFor state)) = sizeOf snapshots := by
  unfold bytesOf sizeOf
  rw [List.map_map]
  rfl

/-- The candidates in front of a snapshot are those among the ids that were passed. -/
theorem bytesBefore_eq {p : SnapshotRetentionEntry → Bool} {id : String}
    {snapshots : List SnapshotRetentionEntry} (hnodup : (snapshots.map (·.snapshotId)).Nodup) :
    bytesBefore p id snapshots = sizeOf (snapshots.filter fun s => p s &&
      s.snapshotId ∈ (snapshots.takeWhile fun t => t.snapshotId ≠ id).map (·.snapshotId)) := by
  induction snapshots with
  | nil => rfl
  | cons s rest ih =>
    rw [List.map_cons, List.nodup_cons] at hnodup
    rw [bytesBefore]
    by_cases hid : s.snapshotId = id
    · rw [if_pos hid, List.takeWhile_cons_of_neg (by simpa using hid)]
      simp [sizeOf]
    · rw [if_neg hid, ih hnodup.2, List.takeWhile_cons_of_pos (by simpa using hid)]
      have hrest : (rest.filter fun t => p t && t.snapshotId ∈
            (rest.takeWhile fun t => t.snapshotId ≠ id).map (·.snapshotId)) =
          rest.filter fun t => p t && t.snapshotId ∈
            (s :: rest.takeWhile fun t => t.snapshotId ≠ id).map (·.snapshotId) := by
        apply List.filter_congr
        intro t ht
        have hne : t.snapshotId ≠ s.snapshotId := by
          intro heq
          apply hnodup.1
          rw [← heq]
          exact List.mem_map_of_mem ht
        simp only [List.map_cons, List.mem_cons, hne, false_or]
      rw [List.filter_cons, ← hrest]
      by_cases hp : p s = true
      · simp [hp, sizeOf]
      · simp [hp]

theorem sizeOf_filter_le {p q : SnapshotRetentionEntry → Bool}
    {snapshots : List SnapshotRetentionEntry} (h : ∀ s ∈ snapshots, p s = true → q s = true) :
    sizeOf (snapshots.filter p) ≤ sizeOf (snapshots.filter q) := by
  have hsub : (snapshots.filter p).Sublist (snapshots.filter q) := by
    have hboth : snapshots.filter p = (snapshots.filter q).filter p := by
      rw [List.filter_filter]
      apply List.filter_congr
      intro s hs
      cases hp : p s with
      | false => rfl
      | true => rw [h s hs hp, Bool.and_self]
    rw [hboth]
    exact List.filter_sublist
  exact (hsub.map _).sum_le_sum fun _ _ => Nat.zero_le _

section Bytes

variable (input : PruningPlanInput)

open Classical in
/-- The bytes of what is not retained, without a bound. -/
noncomputable def outsideBytes : Nat :=
  sizeOf (input.snapshots.filter fun s => ¬input.Retained s.snapshotId)

variable {input}

/-- The planner sums them without saturation. -/
theorem toNat_unretainedBytes : input.unretainedBytes.toNat = outsideBytes input % 2 ^ 64 := by
  unfold PruningPlanInput.unretainedBytes outsideBytes sizeOf
  rw [toNat_sum_map, List.map_map]
  rfl

open Classical in
theorem plannedBefore_eq (hnodup : (input.snapshots.map (·.snapshotId)).Nodup) (id : String) :
    plannedBefore input id = outsideBytes input +
      sizeOf (input.snapshots.filter fun s =>
        decide (input.Retained s.snapshotId ∧ input.Evicted s.snapshotId) &&
          decide (s.snapshotId ∈ olderIds input id)) := by
  change bytesOf ((input.snapshots.map (decisionFor input.afterPressure)).filter _) +
    bytesOf ((input.snapshots.map (decisionFor input.afterPressure)).filter _) = _
  rw [List.filter_map, List.filter_map, bytesOf_map_decisionFor, bytesOf_map_decisionFor]
  unfold outsideBytes
  congr 2
  · apply List.filter_congr
    intro s hs
    rw [Bool.eq_iff_iff, decide_eq_true_eq]
    exact decisionFor_isOutside hs
  · apply List.filter_congr
    intro s hs
    rw [Function.comp_apply, Bool.eq_iff_iff, Bool.and_eq_true, Bool.and_eq_true, decide_eq_true_eq,
      decide_eq_true_eq, decide_eq_true_eq, decisionFor_isPressed hnodup hs]
    rfl

open Classical in
theorem softBytesBefore_eq (hnodup : (input.snapshots.map (·.snapshotId)).Nodup) (id : String) :
    input.softBytesBefore id = sizeOf (input.snapshots.filter fun s =>
      decide (input.Retained s.snapshotId ∧ ¬input.Protected s.snapshotId) &&
        decide (s.snapshotId ∈ olderIds input id)) := by
  have hperm := List.perm_insertionSort (fun a b => olderFirst a b) input.snapshots
  unfold PruningPlanInput.softBytesBefore
  rw [bytesBefore_eq (nodup_oldestFirst hnodup)]
  exact sizeOf_perm (hperm.filter _)

/-- What the pass has planned before a snapshot are soft snapshots older than it. -/
theorem plannedBefore_le (hnodup : (input.snapshots.map (·.snapshotId)).Nodup) (id : String) :
    plannedBefore input id ≤ outsideBytes input + input.softBytesBefore id := by
  classical
  rw [plannedBefore_eq hnodup, softBytesBefore_eq hnodup]
  apply Nat.add_le_add_left
  apply sizeOf_filter_le
  intro s _ hs
  rw [Bool.and_eq_true, decide_eq_true_eq] at hs ⊢
  obtain ⟨⟨hretained, hevicted⟩, holder⟩ := hs
  refine ⟨⟨hretained, ?_⟩, holder⟩
  rcases hevicted with hnot | ⟨hsoft, -⟩
  · exact absurd hretained hnot
  · exact hsoft

theorem outsideBytes_le_plannedBefore
    (hnodup : (input.snapshots.map (·.snapshotId)).Nodup) (id : String) :
    outsideBytes input ≤ plannedBefore input id := by
  rw [plannedBefore_eq hnodup]
  exact Nat.le_add_right _ _

/-- With a soft snapshot there is an oldest one. -/
theorem exists_bytesBefore_eq_zero {p : SnapshotRetentionEntry → Bool}
    {snapshots : List SnapshotRetentionEntry} (h : ∃ s ∈ snapshots, p s = true)
    (hnodup : (snapshots.map (·.snapshotId)).Nodup) :
    ∃ s ∈ snapshots, p s = true ∧ bytesBefore p s.snapshotId snapshots = 0 := by
  induction snapshots with
  | nil =>
    obtain ⟨s, hs, -⟩ := h
    cases hs
  | cons first rest ih =>
    by_cases hfirst : p first = true
    · exact ⟨first, List.mem_cons_self, hfirst, if_pos rfl⟩
    · rw [List.map_cons, List.nodup_cons] at hnodup
      have hrest : ∃ s ∈ rest, p s = true := by
        obtain ⟨s, hs, hp⟩ := h
        rcases List.mem_cons.mp hs with heq | hs
        · rw [heq] at hp
          exact absurd hp hfirst
        · exact ⟨s, hs, hp⟩
      obtain ⟨s, hs, hp, hzero⟩ := ih hrest hnodup.2
      refine ⟨s, List.mem_cons_of_mem _ hs, hp, ?_⟩
      have hne : first.snapshotId ≠ s.snapshotId := by
        intro heq
        apply hnodup.1
        rw [heq]
        exact List.mem_map_of_mem hs
      rw [bytesBefore, if_neg hne, hzero, if_neg hfirst]

end Bytes

/-! ## Planner safety -/

section Safety

variable {input : PruningPlanInput}

theorem kept_iff (hnodup : (input.snapshots.map (·.snapshotId)).Nodup)
    {s : SnapshotRetentionEntry} (hs : s ∈ input.snapshots) :
    Kept input s.snapshotId ↔ ¬input.Evicted s.snapshotId := by
  constructor
  · rintro ⟨d, hd, hid, hkept⟩
    obtain ⟨t, ht, rfl⟩ := List.mem_map.mp hd
    have hevicted := (decisionFor_isKept hnodup ht).mp hkept
    change t.snapshotId = s.snapshotId at hid
    rwa [hid] at hevicted
  · intro hnot
    exact ⟨decisionFor input.afterPressure s, List.mem_map_of_mem hs, rfl,
      (decisionFor_isKept hnodup hs).mpr hnot⟩

theorem not_evicted_of_protected {id : String} (h : input.Protected id) : ¬input.Evicted id := by
  rintro (hnot | ⟨hnot, -⟩)
  · exact hnot (retained_of_protected h)
  · exact hnot h

theorem retained_of_not_evicted {id : String} (h : ¬input.Evicted id) : input.Retained id := by
  by_contra hnot
  exact h (Or.inl hnot)

/-- With different ids, the parent of a listed snapshot is the one it names. -/
theorem parentOf_eq (hnodup : (input.snapshots.map (·.snapshotId)).Nodup)
    {s : SnapshotRetentionEntry} (hs : s ∈ input.snapshots) :
    parentOf input.snapshots s.snapshotId = s.parentSnapshotId := by
  have hsome : (input.snapshots.reverse.find? fun t => t.snapshotId = s.snapshotId).isSome := by
    rw [List.find?_isSome]
    exact ⟨s, List.mem_reverse.mpr hs, decide_eq_true rfl⟩
  obtain ⟨t, ht⟩ := Option.isSome_iff_exists.mp hsome
  have hid := List.find?_some ht
  rw [decide_eq_true_eq] at hid
  have hmem := List.mem_reverse.mp (List.mem_of_find?_eq_some ht)
  have heq : t = s := List.inj_on_of_nodup_map hnodup hmem hs hid
  unfold parentOf
  rw [ht, heq]
  rfl

theorem countP_snapshotId {snapshots : List SnapshotRetentionEntry}
    (hnodup : (snapshots.map (·.snapshotId)).Nodup) {s : SnapshotRetentionEntry}
    (hs : s ∈ snapshots) : snapshots.countP (fun t => t.snapshotId = s.snapshotId) = 1 := by
  have hcount := List.count_eq_one_of_mem hnodup (List.mem_map_of_mem hs)
  rw [List.count, List.countP_map] at hcount
  rw [← hcount]
  apply List.countP_congr
  intro t _
  simp

/-- When the sum wraps below the target, no snapshot is kept for a soft reason only. -/
def SumHolds (input : PruningPlanInput) : Prop :=
  outsideBytes input < 2 ^ 64 ∨
    input.targetReclaimBytes.toNat ≤ outsideBytes input % 2 ^ 64 ∨
    ∀ s ∈ input.snapshots, input.Retained s.snapshotId → input.Protected s.snapshotId

/-- Everything but the pressure clause holds of every plan; the pressure clause holds
exactly when the sum of the deletions outside retention does no harm. -/
theorem safePlan_iff (input : PruningPlanInput)
    (hnodup : (input.snapshots.map (·.snapshotId)).Nodup) :
    SafePlan input ↔ SumHolds input := by
  have htarget := input.targetReclaimBytes.toNat_lt
  constructor
  · intro hsafe
    by_contra hnot
    unfold SumHolds at hnot
    push Not at hnot
    obtain ⟨hwrap, hbelow, s, hs, hretained, hsoft⟩ := hnot
    classical
    -- the oldest soft snapshot is deleted although enough is planned
    have hexists : ∃ t ∈ oldestFirst input.snapshots,
        decide (input.Retained t.snapshotId ∧ ¬input.Protected t.snapshotId) = true :=
      ⟨s, mem_oldestFirst.mpr hs, decide_eq_true ⟨hretained, hsoft⟩⟩
    obtain ⟨t, ht, hsoft, hzero⟩ := exists_bytesBefore_eq_zero hexists
      (nodup_oldestFirst hnodup)
    obtain ⟨hretained, hsoft⟩ := of_decide_eq_true hsoft
    have ht := mem_oldestFirst.mp ht
    have hevicted : input.Evicted t.snapshotId := by
      refine Or.inr ⟨hsoft, ?_⟩
      have hbytes : input.softBytesBefore t.snapshotId = 0 := hzero
      rw [toNat_unretainedBytes, hbytes]
      exact hbelow
    have hpressed := hsafe.pressed _ (List.mem_map_of_mem ht)
      ((decisionFor_isPressed hnodup ht).mpr ⟨hretained, hevicted⟩)
    have hplanned := outsideBytes_le_plannedBefore hnodup t.snapshotId
    change plannedBefore input t.snapshotId < input.targetReclaimBytes.toNat at hpressed
    omega
  · intro hsum
    refine ⟨protectRetainedParents_isSome _ _, ?_, ?_, ?_, ?_⟩
    · intro s hs hhard
      rw [kept_iff hnodup hs]
      exact not_evicted_of_protected (Or.inl hhard)
    · intro s hs hkept p hp hparent
      rw [kept_iff hnodup hs] at hkept
      rw [kept_iff hnodup hp]
      refine not_evicted_of_protected (Or.inr ⟨s.snapshotId, retained_of_not_evicted hkept, ?_⟩)
      rw [parentOf_eq hnodup hs, hparent]
    · intro s hs
      change (input.snapshots.map (decisionFor input.afterPressure)).countP _ = 1
      rw [List.countP_map]
      exact countP_snapshotId hnodup hs
    · intro d hd hpressed
      obtain ⟨s, hs, rfl⟩ := List.mem_map.mp hd
      obtain ⟨hretained, hevicted⟩ := (decisionFor_isPressed hnodup hs).mp hpressed
      change plannedBefore input s.snapshotId < input.targetReclaimBytes.toNat
      have hplanned := plannedBefore_le hnodup s.snapshotId
      rcases hevicted with hnot | ⟨hsoft, hlt⟩
      · exact absurd hretained hnot
      · rw [toNat_unretainedBytes] at hlt
        rcases hsum with hfits | henough | hnone
        · rw [Nat.mod_eq_of_lt hfits] at hlt
          omega
        · omega
        · exact absurd (hnone s hs hretained) hsoft

/-- Two snapshots outside retention whose sizes sum to `2 ^ 64`, and a newer one that is
kept for a soft reason; the quota is exceeded by a megabyte. -/
def wrappingInput : PruningPlanInput where
  snapshots := [
    ⟨"s1_a", none, 1, false, 10, 0x8000000000000000⟩,
    ⟨"s1_b", none, 2, false, 20, 0x8000000000000000⟩,
    ⟨"s1_c", none, 3, false, 30, 1⟩]
  policy := { RetentionPolicy.default with
    hotSnapshotCount := 1
    hourlyThinningHours := 0
    dailyThinningDays := 0
    deviceCacheQuotaMib := some 1 }
  scope := .deviceCache
  canonicalLatestSnapshotId := none
  handoffProtections := []
  currentUsageBytes := 2097152
  freeDiskBytes := 1073741824
  nowUnixSeconds := 1000000

/-- The same snapshots within the quota. -/
def calmInput : PruningPlanInput := { wrappingInput with currentUsageBytes := 0 }

theorem safePlan_calmInput : SafePlan calmInput := by
  have hcalm : calmInput.targetReclaimBytes = 0 := by decide
  refine (safePlan_iff calmInput (by decide)).mpr (Or.inr (Or.inl ?_))
  rw [hcalm]
  exact Nat.zero_le _

/-- The two oldest free all there is, yet the sum of their sizes reads as zero and the
newest snapshot is deleted too. -/
theorem not_safePlan_wrappingInput :
    (planSnapshotPruning wrappingInput).deleteSnapshotIds = ["s1_a", "s1_b", "s1_c"] ∧
      ¬SafePlan wrappingInput := by
  refine ⟨by decide, fun hsafe => ?_⟩
  have hpressed := hsafe.pressed ⟨"s1_c", 1, .delete .quotaPressure⟩ (by decide) rfl
  have hplanned : plannedBefore wrappingInput "s1_c" = 2 ^ 64 := by decide
  have htarget := (planSnapshotPruning wrappingInput).targetReclaimBytes.toNat_lt
  change plannedBefore wrappingInput "s1_c" < _ at hpressed
  omega

end Safety

end DevRelay.Retention
