import DevRelay.Retention.Plan

/-!
# What the planner plans

A description of the planned deletions that does not mention the planner's loops:
what is retained, what is protected, and which snapshots the pressure reaches.
-/

namespace DevRelay.Retention

open DevRelay.Lib

namespace PruningPlanInput

variable (input : PruningPlanInput)

/-- Canonical latest, pinned, or under a protection that has not expired. -/
def HardKept (id : String) : Prop :=
  input.canonicalLatestSnapshotId = some id ∨
    (∃ s ∈ input.snapshots, s.pinned = true ∧ s.snapshotId = id) ∨
    ∃ p ∈ input.handoffProtections,
      input.nowUnixSeconds ≤ p.protectUntilUnixSeconds ∧ p.snapshotId = id

/-- Among the newest, or the latest of its hour or of its day. -/
def SoftKept (id : String) : Prop :=
  id ∈ ((newestFirst input.snapshots).take input.policy.hotSnapshotCount).map
      (·.snapshotId) ∨
    id ∈ (latestPerBucket input.snapshots (saturatingSub input.nowUnixSeconds
      (input.policy.hourlyThinningHours * secondsPerHour)) secondsPerHour).map
      (·.snapshotId) ∨
    id ∈ (latestPerBucket input.snapshots (saturatingSub input.nowUnixSeconds
      (input.policy.dailyThinningDays * secondsPerDay)) secondsPerDay).map
      (·.snapshotId)

/-- Kept for a reason of its own, or an ancestor of such a snapshot. -/
def Retained (id : String) : Prop :=
  ∃ d, (input.HardKept d ∨ input.SoftKept d) ∧
    Relation.ReflTransGen (fun c p => parentOf input.snapshots c = some p) d id

/-- No pressure may delete it. -/
def Protected (id : String) : Prop :=
  input.HardKept id ∨ ∃ c, input.Retained c ∧ parentOf input.snapshots c = some id

end PruningPlanInput

/-! ## Reasons -/

theorem mem_addReasons {reason : RetentionKeepReason} {ids : List String}
    {reasons : ReasonMap} {entry : String × RetentionKeepReason} :
    entry ∈ addReasons reason ids reasons ↔
      entry ∈ reasons ∨ (entry.2 = reason ∧ entry.1 ∈ ids) := by
  induction ids generalizing reasons with
  | nil => simp [addReasons]
  | cons id ids ih =>
    change entry ∈ addReasons reason ids (reasons.addReason id reason) ↔ _
    rw [ih, ReasonMap.mem_addReason, List.mem_cons, Prod.ext_iff]
    tauto

variable {input : PruningPlanInput} {id : String}

/-- The hard reasons of a snapshot before the parents are protected. -/
theorem hard_directReasons_iff :
    (∃ reason, reason.isHard = true ∧ (id, reason) ∈ directReasons input) ↔ input.HardKept id := by
  unfold directReasons PruningPlanInput.HardKept
  simp only [mem_addReasons]
  constructor
  · rintro ⟨reason, hhard, hmem⟩
    simp only [Option.mem_toList, List.mem_map, List.mem_filter] at hmem
    rcases hmem with (((((h | h) | h) | h) | h) | h) | h
    · cases h
    · exact Or.inl h.2
    · obtain ⟨-, s, ⟨hs, hpinned⟩, hid⟩ := h
      exact Or.inr (Or.inl ⟨s, hs, hpinned, hid⟩)
    · obtain ⟨-, p, ⟨hp, hlive⟩, hid⟩ := h
      exact Or.inr (Or.inr ⟨p, hp, of_decide_eq_true hlive, hid⟩)
    all_goals
      obtain ⟨rfl, -⟩ := h
      cases hhard
  · rintro (h | ⟨s, hs, hpinned, rfl⟩ | ⟨p, hp, hlive, rfl⟩)
    · refine ⟨.canonicalLatest, rfl, ?_⟩
      simp [h]
    · refine ⟨.pinned, rfl, ?_⟩
      have hmem : s.snapshotId ∈
          (input.snapshots.filter fun snapshot => snapshot.pinned).map (·.snapshotId) :=
        List.mem_map.mpr ⟨s, List.mem_filter.mpr ⟨hs, hpinned⟩, rfl⟩
      simp only [hmem]
      simp
    · refine ⟨.handoffProtected, rfl, ?_⟩
      have hmem : p.snapshotId ∈ (input.handoffProtections.filter fun protection =>
          input.nowUnixSeconds ≤ protection.protectUntilUnixSeconds).map
            (·.snapshotId) :=
        List.mem_map.mpr ⟨p, List.mem_filter.mpr ⟨hp, decide_eq_true hlive⟩, rfl⟩
      simp only [hmem]
      simp

theorem soft_directReasons_iff :
    (∃ reason, reason.isHard = false ∧ (id, reason) ∈ directReasons input) ↔ input.SoftKept id := by
  unfold directReasons PruningPlanInput.SoftKept
  simp only [mem_addReasons]
  constructor
  · rintro ⟨reason, hsoft, hmem⟩
    rcases hmem with (((((h | h) | h) | h) | h) | h) | h
    · cases h
    · rw [h.1] at hsoft
      cases hsoft
    · rw [h.1] at hsoft
      cases hsoft
    · rw [h.1] at hsoft
      cases hsoft
    · exact Or.inl h.2
    · exact Or.inr (Or.inl h.2)
    · exact Or.inr (Or.inr h.2)
  · rintro (h | h | h)
    · exact ⟨.hotSnapshot, rfl, by simp only [h]; simp⟩
    · exact ⟨.hourlyThinning, rfl, by simp only [h]; simp⟩
    · exact ⟨.dailyThinning, rfl, by simp only [h]; simp⟩

theorem mem_keys_directReasons :
    id ∈ (directReasons input).keys ↔ input.HardKept id ∨ input.SoftKept id := by
  rw [ReasonMap.mem_keys, ← hard_directReasons_iff, ← soft_directReasons_iff]
  constructor
  · rintro ⟨reason, hmem⟩
    cases hhard : reason.isHard with
    | true => exact Or.inl ⟨reason, hhard, hmem⟩
    | false => exact Or.inr ⟨reason, hhard, hmem⟩
  · rintro (⟨reason, -, hmem⟩ | ⟨reason, -, hmem⟩)
    · exact ⟨reason, hmem⟩
    · exact ⟨reason, hmem⟩

theorem retained_iff_reachable :
    input.Retained id ↔
      Reachable (parentOf input.snapshots) (directReasons input).keys.reverse id := by
  unfold PruningPlanInput.Retained Reachable
  simp only [List.mem_reverse, mem_keys_directReasons]

/-- The work list adds exactly the parents of what is retained. -/
theorem mem_retentionReasons {reason : RetentionKeepReason} :
    (id, reason) ∈ retentionReasons input ↔
      (id, reason) ∈ directReasons input ∨
        (reason = .retainedParent ∧
          ∃ c, input.Retained c ∧ parentOf input.snapshots c = some id) := by
  have hrun : protectRetainedParents input.snapshots (directReasons input) =
      some (retentionReasons input) := (Option.some_get _).symm
  unfold protectRetainedParents at hrun
  constructor
  · refine fun hmem => followLinks_invariant
      (I := fun reasons : ReasonMap => ∀ id reason, (id, reason) ∈ reasons →
        (id, reason) ∈ directReasons input ∨ (reason = .retainedParent ∧
          ∃ c, input.Retained c ∧ parentOf input.snapshots c = some id))
      (P := input.Retained) hrun (fun _ _ h => Or.inl h) ?_ ?_ ?_ id reason hmem
    · intro x hx
      exact retained_iff_reachable.mpr (reachable_of_mem hx)
    · intro x y hx hxy
      rw [retained_iff_reachable] at hx ⊢
      exact reachable_next hx hxy
    · intro reasons x y hI hx hxy id reason hmem
      rcases ReasonMap.mem_addReason.mp hmem with hold | hnew
      · exact hI id reason hold
      · obtain ⟨rfl, rfl⟩ := Prod.mk.inj hnew
        exact Or.inr ⟨rfl, x, hx, hxy⟩
  · rintro (hdirect | ⟨rfl, c, hc, hparent⟩)
    · refine followLinks_invariant
        (I := fun reasons : ReasonMap => (id, reason) ∈ reasons) (P := fun _ => True)
        hrun hdirect (fun _ _ => trivial) (fun _ _ _ _ => trivial) ?_
      intro reasons x y hmem _ _
      exact ReasonMap.mem_addReason.mpr (Or.inl hmem)
    · refine followLinks_complete
        (R := fun (reasons : ReasonMap) y => (y, .retainedParent) ∈ reasons) hrun ?_ ?_
        (retained_iff_reachable.mp hc) hparent
      · intro reasons y
        exact ReasonMap.mem_addReason.mpr (Or.inr rfl)
      · intro reasons x y hmem
        exact ReasonMap.mem_addReason.mpr (Or.inl hmem)

/-- What has a reason is retained. -/
theorem exists_reason_iff_retained :
    (∃ reason, (id, reason) ∈ retentionReasons input) ↔ input.Retained id := by
  constructor
  · rintro ⟨reason, hmem⟩
    rw [retained_iff_reachable]
    rcases mem_retentionReasons.mp hmem with hdirect | ⟨-, c, hc, hparent⟩
    · refine reachable_of_mem (List.mem_reverse.mpr ?_)
      exact ReasonMap.mem_keys.mpr ⟨reason, hdirect⟩
    · exact reachable_next (retained_iff_reachable.mp hc) hparent
  · rintro ⟨d, hd, hreach⟩
    rcases Relation.ReflTransGen.cases_tail hreach with heq | ⟨c, hdc, hparent⟩
    · subst heq
      obtain ⟨reason, hmem⟩ := ReasonMap.mem_keys.mp (mem_keys_directReasons.mpr hd)
      exact ⟨reason, mem_retentionReasons.mpr (Or.inl hmem)⟩
    · exact ⟨.retainedParent, mem_retentionReasons.mpr (Or.inr ⟨rfl, c, ⟨d, hd, hdc⟩, hparent⟩)⟩

/-- What has a hard reason is protected. -/
theorem exists_hard_reason_iff_protected :
    (∃ reason, reason.isHard = true ∧ (id, reason) ∈ retentionReasons input) ↔
      input.Protected id := by
  unfold PruningPlanInput.Protected
  rw [← hard_directReasons_iff]
  simp only [mem_retentionReasons]
  constructor
  · rintro ⟨reason, hhard, hdirect | ⟨-, hparent⟩⟩
    · exact Or.inl ⟨reason, hhard, hdirect⟩
    · exact Or.inr hparent
  · rintro (⟨reason, hhard, hdirect⟩ | hparent)
    · exact ⟨reason, hhard, Or.inl hdirect⟩
    · exact ⟨.retainedParent, rfl, Or.inr ⟨rfl, hparent⟩⟩

/-! ## Deletions -/

/-- The bytes of the candidates in front of a snapshot. -/
def bytesBefore (candidate : SnapshotRetentionEntry → Bool) (id : String) :
    List SnapshotRetentionEntry → Nat
  | [] => 0
  | snapshot :: rest =>
    if snapshot.snapshotId = id then 0
    else
      (if candidate snapshot then snapshot.estimatedSizeBytes.toNat else 0) +
        bytesBefore candidate id rest

theorem bytesBefore_congr {p q : SnapshotRetentionEntry → Bool}
    {snapshots : List SnapshotRetentionEntry} (h : ∀ s ∈ snapshots, p s = q s) :
    bytesBefore p id snapshots = bytesBefore q id snapshots := by
  induction snapshots with
  | nil => rfl
  | cons s rest ih =>
    rw [bytesBefore, bytesBefore, h s List.mem_cons_self,
      ih fun t ht => h t (List.mem_cons_of_mem _ ht)]

namespace PressureState

/-- Not planned yet and without a hard reason. -/
def candidate (state : PressureState) (snapshot : SnapshotRetentionEntry) : Bool :=
  snapshot.snapshotId ∉ state.deleteReasons.map Prod.fst &&
    !(state.reasons.get snapshot.snapshotId).any (·.isHard)

end PressureState

theorem ReasonMap.get_clear_of_ne {reasons : ReasonMap} {cleared : String}
    (h : id ≠ cleared) : (reasons.clear cleared).get id = reasons.get id := by
  unfold ReasonMap.get ReasonMap.clear
  apply List.filter_congr
  intro reason _
  simp [h]

/-- The state behind the planning of a snapshot. -/
def PressureState.planned (state : PressureState) (pressureReason : PruningReason)
    (snapshot : SnapshotRetentionEntry) : PressureState where
  reasons := state.reasons.clear snapshot.snapshotId
  deleteReasons := (snapshot.snapshotId, pressureReason) :: state.deleteReasons
  plannedReclaimBytes := saturatingAdd state.plannedReclaimBytes snapshot.estimatedSizeBytes

section

variable {target : UInt64} {pressureReason : PruningReason} {snapshot : SnapshotRetentionEntry}
  {rest : List SnapshotRetentionEntry} {state : PressureState}

theorem pressurePass_enough (h : target ≤ state.plannedReclaimBytes) :
    pressurePass target pressureReason (snapshot :: rest) state = state := by
  rw [pressurePass, if_pos h]

theorem pressurePass_candidate (hlow : ¬target ≤ state.plannedReclaimBytes)
    (h : state.candidate snapshot = true) :
    pressurePass target pressureReason (snapshot :: rest) state =
      pressurePass target pressureReason rest (state.planned pressureReason snapshot) := by
  rw [PressureState.candidate, Bool.and_eq_true, Bool.not_eq_true'] at h
  rw [pressurePass, if_neg hlow, if_neg (of_decide_eq_true h.1), if_neg (by rw [h.2]; simp)]
  rfl

theorem pressurePass_skip (hlow : ¬target ≤ state.plannedReclaimBytes)
    (h : ¬state.candidate snapshot = true) :
    pressurePass target pressureReason (snapshot :: rest) state =
      pressurePass target pressureReason rest state := by
  rw [pressurePass, if_neg hlow]
  split
  · rfl
  · split
    · rfl
    · rename_i hopen hsoft
      refine absurd ?_ h
      rw [PressureState.candidate, Bool.and_eq_true, Bool.not_eq_true']
      exact ⟨decide_eq_true hopen, Bool.not_eq_true _ ▸ hsoft⟩

/-- The planning of one snapshot leaves the others what they were. -/
theorem candidate_planned {s : SnapshotRetentionEntry} (h : s.snapshotId ≠ snapshot.snapshotId) :
    (state.planned pressureReason snapshot).candidate s = state.candidate s := by
  have hmem : s.snapshotId ∈ (state.planned pressureReason snapshot).deleteReasons.map Prod.fst ↔
      s.snapshotId ∈ state.deleteReasons.map Prod.fst := by
    change s.snapshotId ∈ snapshot.snapshotId :: _ ↔ _
    rw [List.mem_cons]
    exact or_iff_right h
  have hreasons : (state.planned pressureReason snapshot).reasons.get s.snapshotId =
      state.reasons.get s.snapshotId := ReasonMap.get_clear_of_ne h
  simp only [PressureState.candidate, hmem, hreasons]

/-- A candidate that fits behind `bytes` is the first snapshot, or one of the rest that fits
behind the first one, too. -/
theorem exists_fitting_cons {candidate : SnapshotRetentionEntry → Bool} {bytes : Nat}
    (hne : ∀ s ∈ rest, s.snapshotId ≠ snapshot.snapshotId) :
    (∃ s ∈ snapshot :: rest, s.snapshotId = id ∧ candidate s = true ∧
        bytes + bytesBefore candidate id (snapshot :: rest) < target.toNat) ↔
      (snapshot.snapshotId = id ∧ candidate snapshot = true ∧ bytes < target.toNat) ∨
        ∃ s ∈ rest, s.snapshotId = id ∧ candidate s = true ∧
          bytes + (if candidate snapshot then snapshot.estimatedSizeBytes.toNat else 0) +
            bytesBefore candidate id rest < target.toNat := by
  rw [List.exists_mem_cons_iff, bytesBefore]
  constructor
  · rintro (⟨hid, hcandidate, hlt⟩ | ⟨s, hs, hid, hcandidate, hlt⟩)
    · rw [if_pos hid] at hlt
      exact Or.inl ⟨hid, hcandidate, hlt⟩
    · rw [if_neg fun h => hne s hs (hid.trans h.symm)] at hlt
      exact Or.inr ⟨s, hs, hid, hcandidate, by omega⟩
  · rintro (⟨hid, hcandidate, hlt⟩ | ⟨s, hs, hid, hcandidate, hlt⟩)
    · rw [if_pos hid]
      exact Or.inl ⟨hid, hcandidate, hlt⟩
    · rw [if_neg fun h => hne s hs (hid.trans h.symm)]
      exact Or.inr ⟨s, hs, hid, hcandidate, by omega⟩

end

/-- The pressure pass deletes the candidates, oldest first, as long as the bytes planned
in front of them are below the target. -/
theorem mem_pressurePass {target : UInt64} {pressureReason : PruningReason}
    {snapshots : List SnapshotRetentionEntry} {state : PressureState}
    (hnodup : (snapshots.map (·.snapshotId)).Nodup) :
    id ∈ (pressurePass target pressureReason snapshots state).deleteReasons.map Prod.fst ↔
      id ∈ state.deleteReasons.map Prod.fst ∨
        ∃ s ∈ snapshots, s.snapshotId = id ∧ state.candidate s = true ∧
          state.plannedReclaimBytes.toNat + bytesBefore state.candidate id snapshots <
            target.toNat := by
  induction snapshots generalizing state with
  | nil => simp [pressurePass]
  | cons snapshot rest ih =>
    rw [List.map_cons, List.nodup_cons] at hnodup
    obtain ⟨hfresh, hnodup⟩ := hnodup
    have hne : ∀ s ∈ rest, s.snapshotId ≠ snapshot.snapshotId := by
      intro s hs heq
      exact hfresh (List.mem_map.mpr ⟨s, hs, heq⟩)
    by_cases hlow : target ≤ state.plannedReclaimBytes
    · -- enough is planned already
      rw [pressurePass_enough hlow]
      have hle := UInt64.le_iff_toNat_le.mp hlow
      refine ⟨Or.inl, fun h => h.resolve_right ?_⟩
      rintro ⟨s, -, -, -, hlt⟩
      omega
    · have hlow' : state.plannedReclaimBytes.toNat < target.toNat := by
        rw [← UInt64.lt_iff_toNat_lt]
        exact UInt64.not_le.mp hlow
      rw [exists_fitting_cons hne]
      by_cases hcandidate : state.candidate snapshot = true
      · -- the snapshot is planned, and the rest stays as it was
        have hsame : ∀ s ∈ rest, (state.planned pressureReason snapshot).candidate s =
            state.candidate s := fun s hs => candidate_planned (hne s hs)
        have hplanned : (state.planned pressureReason snapshot).plannedReclaimBytes.toNat =
            min (state.plannedReclaimBytes.toNat + snapshot.estimatedSizeBytes.toNat)
              (2 ^ 64 - 1) := toNat_saturatingAdd _ _
        have htarget := target.toNat_lt
        have hrest : (∃ s ∈ rest, s.snapshotId = id ∧
            (state.planned pressureReason snapshot).candidate s = true ∧
              (state.planned pressureReason snapshot).plannedReclaimBytes.toNat +
                bytesBefore (state.planned pressureReason snapshot).candidate id rest <
                  target.toNat) ↔ ∃ s ∈ rest, s.snapshotId = id ∧ state.candidate s = true ∧
            state.plannedReclaimBytes.toNat + snapshot.estimatedSizeBytes.toNat +
              bytesBefore state.candidate id rest < target.toNat := by
          rw [bytesBefore_congr hsame, hplanned]
          refine exists_congr fun s => and_congr_right fun hs => ?_
          rw [hsame s hs]
          refine and_congr_right fun _ => and_congr_right fun _ => ?_
          omega
        rw [pressurePass_candidate hlow hcandidate, ih hnodup, hrest, if_pos hcandidate]
        show id ∈ snapshot.snapshotId :: _ ∨ _ ↔ _
        rw [List.mem_cons, or_assoc, or_left_comm, eq_comm]
        refine or_congr_right (or_congr_left ⟨fun h => ⟨h, hcandidate, hlow'⟩, And.left⟩)
      · -- the snapshot is passed over
        rw [pressurePass_skip hlow hcandidate, ih hnodup, if_neg hcandidate, Nat.add_zero]
        refine or_congr_right ⟨Or.inr, fun h => h.resolve_left ?_⟩
        exact fun hfirst => hcandidate hfirst.2.1

namespace PruningPlanInput

variable (input)

open Classical in
/-- The bytes of what is not retained. -/
noncomputable def unretainedBytes : UInt64 :=
  ((input.snapshots.filter fun s => ¬input.Retained s.snapshotId).map
    (·.estimatedSizeBytes)).sum

open Classical in
/-- The bytes of the older snapshots that are retained but not protected. -/
noncomputable def softBytesBefore (id : String) : Nat :=
  bytesBefore (fun s => decide (input.Retained s.snapshotId ∧ ¬input.Protected s.snapshotId))
    id (oldestFirst input.snapshots)

/-- A snapshot is evicted when it is not retained; or when it is retained but not
protected, and what is planned without it and what is newer is below the target. -/
def Evicted (id : String) : Prop :=
  ¬input.Retained id ∨
    (¬input.Protected id ∧
      input.unretainedBytes.toNat + input.softBytesBefore id <
        input.targetReclaimBytes.toNat)

end PruningPlanInput

theorem get_eq_nil_iff : (retentionReasons input).get id = [] ↔ ¬input.Retained id := by
  rw [← exists_reason_iff_retained, List.eq_nil_iff_forall_not_mem, not_exists]
  exact forall_congr' fun reason => not_congr ReasonMap.mem_get

theorem any_isHard_iff :
    ((retentionReasons input).get id).any (·.isHard) = true ↔ input.Protected id := by
  rw [← exists_hard_reason_iff_protected, List.any_eq_true]
  simp only [ReasonMap.mem_get]
  exact exists_congr fun reason => and_comm

/-- What is protected is retained. -/
theorem retained_of_protected (h : input.Protected id) : input.Retained id := by
  obtain ⟨reason, -, hmem⟩ := exists_hard_reason_iff_protected.mpr h
  exact exists_reason_iff_retained.mp ⟨reason, hmem⟩

theorem mem_beforePressure :
    id ∈ input.beforePressure.deleteReasons.map Prod.fst ↔
      ∃ s ∈ input.snapshots, s.snapshotId = id ∧ ¬input.Retained id := by
  change id ∈ (outsideRetention input (retentionReasons input)).map Prod.fst ↔ _
  unfold outsideRetention
  simp only [List.map_map, List.mem_map, List.mem_filter, List.isEmpty_iff,
    Function.comp_apply, get_eq_nil_iff]
  constructor
  · rintro ⟨s, ⟨hs, hretained⟩, rfl⟩
    exact ⟨s, hs, rfl, hretained⟩
  · rintro ⟨s, hs, rfl, hretained⟩
    exact ⟨s, ⟨hs, hretained⟩, rfl⟩

theorem candidate_beforePressure {s : SnapshotRetentionEntry} (hs : s ∈ input.snapshots) :
    input.beforePressure.candidate s = true ↔
      input.Retained s.snapshotId ∧ ¬input.Protected s.snapshotId := by
  unfold PressureState.candidate
  rw [Bool.and_eq_true, decide_eq_true_eq, Bool.not_eq_true', ← Bool.not_eq_true,
    mem_beforePressure]
  change _ ∧ ¬((retentionReasons input).get s.snapshotId).any (·.isHard) = true ↔ _
  rw [any_isHard_iff]
  constructor
  · rintro ⟨hopen, hsoft⟩
    refine ⟨?_, hsoft⟩
    by_contra hretained
    exact hopen ⟨s, hs, rfl, hretained⟩
  · rintro ⟨hretained, hsoft⟩
    refine ⟨?_, hsoft⟩
    rintro ⟨-, -, -, hnot⟩
    exact hnot hretained

theorem plannedReclaimBytes_beforePressure :
    input.beforePressure.plannedReclaimBytes = input.unretainedBytes := by
  classical
  change plannedReclaimBytes input.snapshots input.beforePressure.deleteReasons = _
  unfold plannedReclaimBytes PruningPlanInput.unretainedBytes
  congr 2
  apply List.filter_congr
  intro s hs
  rw [decide_eq_decide, mem_beforePressure]
  constructor
  · rintro ⟨-, -, -, hnot⟩
    exact hnot
  · intro hnot
    exact ⟨s, hs, rfl, hnot⟩

/-- The pass does nothing when enough is planned, so it can be run unconditionally. -/
theorem afterPressure_eq (input : PruningPlanInput) :
    ∃ pressureReason, pressureReason ≠ .outsideRetention ∧ input.afterPressure =
      pressurePass input.targetReclaimBytes pressureReason (oldestFirst input.snapshots)
        input.beforePressure := by
  unfold PruningPlanInput.afterPressure
  dsimp only
  split
  · refine ⟨_, ?_, rfl⟩
    split
    · exact PruningReason.noConfusion
    · exact PruningReason.noConfusion
  · rename_i henough
    refine ⟨.freeDiskPressure, PruningReason.noConfusion, ?_⟩
    cases oldestFirst input.snapshots with
    | nil => rfl
    | cons s rest => rw [pressurePass, if_pos (UInt64.not_lt.mp henough)]

/-- The ids the pass leaves planned, for a list of snapshots with different ids. -/
theorem mem_afterPressure (hnodup : (input.snapshots.map (·.snapshotId)).Nodup) :
    id ∈ input.afterPressure.deleteReasons.map Prod.fst ↔
      (∃ s ∈ input.snapshots, s.snapshotId = id) ∧ input.Evicted id := by
  classical
  have hsorted := nodup_oldestFirst hnodup
  obtain ⟨pressureReason, -, hpass⟩ := afterPressure_eq input
  have hbytes : bytesBefore input.beforePressure.candidate id
      (oldestFirst input.snapshots) = input.softBytesBefore id := by
    refine bytesBefore_congr fun s hs => ?_
    rw [Bool.eq_iff_iff, decide_eq_true_eq]
    exact candidate_beforePressure (mem_oldestFirst.mp hs)
  rw [hpass, mem_pressurePass hsorted, mem_beforePressure, hbytes,
    plannedReclaimBytes_beforePressure]
  constructor
  · rintro (⟨s, hs, hid, hretained⟩ | ⟨s, hs, rfl, hcandidate, hlt⟩)
    · exact ⟨⟨s, hs, hid⟩, Or.inl hretained⟩
    · have hs := mem_oldestFirst.mp hs
      exact ⟨⟨s, hs, rfl⟩, Or.inr ⟨((candidate_beforePressure hs).mp hcandidate).2, hlt⟩⟩
  · rintro ⟨⟨s, hs, rfl⟩, hevicted⟩
    by_cases hretained : input.Retained s.snapshotId
    · rcases hevicted with hnot | ⟨hsoft, hlt⟩
      · exact absurd hretained hnot
      · exact Or.inr ⟨s, mem_oldestFirst.mpr hs, rfl,
          (candidate_beforePressure hs).mpr ⟨hretained, hsoft⟩, hlt⟩
    · exact Or.inl ⟨s, hs, rfl, hretained⟩

/-- The deletions of the plan, in the order of the snapshots. -/
theorem deleteSnapshotIds_eq (input : PruningPlanInput) :
    (planSnapshotPruning input).deleteSnapshotIds =
      (input.snapshots.map (·.snapshotId)).filter fun id =>
        id ∈ input.afterPressure.deleteReasons.map Prod.fst := by
  change (input.snapshots.map (decisionFor input.afterPressure)).filterMap _ = _
  generalize input.afterPressure = state
  induction input.snapshots with
  | nil => rfl
  | cons s rest ih =>
    have hlookup : (state.deleteReasons.lookup s.snapshotId).isSome = true ↔
        s.snapshotId ∈ state.deleteReasons.map Prod.fst := by
      rw [List.lookup_isSome_iff]
      simp
    rw [List.map_cons, List.map_cons, List.filterMap_cons, ih, List.filter_cons]
    cases hreason : state.deleteReasons.lookup s.snapshotId with
    | none =>
      have hopen : s.snapshotId ∉ state.deleteReasons.map Prod.fst := by
        rw [← hlookup, hreason]
        exact Bool.false_ne_true
      simp only [decisionFor, hreason, hopen, decide_false, Bool.false_eq_true, if_false]
    | some reason =>
      have hplanned : s.snapshotId ∈ state.deleteReasons.map Prod.fst := by
        rw [← hlookup, hreason]
        rfl
      simp only [decisionFor, hreason, hplanned, decide_true, if_true]

/-- The planner plans exactly the listed snapshots that are evicted. -/
theorem mem_deleteSnapshotIds (hnodup : (input.snapshots.map (·.snapshotId)).Nodup) :
    id ∈ (planSnapshotPruning input).deleteSnapshotIds ↔
      id ∈ input.snapshots.map (·.snapshotId) ∧ input.Evicted id := by
  rw [deleteSnapshotIds_eq, List.mem_filter, decide_eq_true_eq, mem_afterPressure hnodup,
    List.mem_map]
  tauto

end DevRelay.Retention
