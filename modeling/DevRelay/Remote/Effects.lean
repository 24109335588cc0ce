import DevRelay.Remote.Handoffs

/-!
# What a handoff call can do to the store

Whatever others do between its steps, every step of a call leaves the store alone
or runs one transaction, which opens a handoff (`Begins`) or moves the one that
the call is about (`Mutates`).
-/

namespace DevRelay.Remote

open DevRelay.Lib DevRelay.Core DevRelay.Storage

/-- The project and the handoff that a method names. -/
def RemoteHandoffMethod.named : RemoteHandoffMethod → Option (String × String)
  | .begin _ => none
  | .targetVerify params => some (params.project, params.handoffId)
  | .sourceReady params => some (params.project, params.handoffId)
  | .commit params _ => some (params.project, params.handoffId)
  | .abort params => some (params.project, params.handoffId)
  | .recover params _ => some (params.project, params.handoffId)

def RemoteHandoffMethod.mayCommit : RemoteHandoffMethod → Bool
  | .commit _ _ => true
  | .recover _ _ => true
  | _ => false

/-- A transaction on a handoff. -/
def Mutates (handoffId : String) (mayCommit : Bool) (s t : MetadataDb) : Prop :=
  t = s ∨ ∃ h next taken, h.handoffId = handoffId ∧ MovesHandoff s t h next ∧
    RowsAfter s t taken ∧
    (taken = none ∨ taken = some h.targetDeviceId ∧ next = .committed) ∧
    (next = .committed → mayCommit = true)

/-- A transaction that begins a handoff. -/
def Begins (params : HandoffBeginParams) (source : String) (s t : MetadataDb) : Prop :=
  t = s ∨ ∃ h l, h.leaseId = params.leaseId ∧ h.sourceDeviceId = source ∧
    h.targetDeviceId = params.targetDeviceId ∧
    (s.projects.lookup h.projectId).isSome ∧ OpensHandoff s t h l ∧ RowsAfter s t none

/-! ## What stays between the steps of a call -/

/-- Handoffs keep everything but their state, leases their project. -/
structure Frozen (s t : MetadataDb) : Prop where
  handoffs : ∀ id h, s.getHandoff id = some h →
    ∃ state, t.getHandoff id = some { h with state := state }
  leases : ∀ id, (t.leases.lookup id).map LeaseRow.projectId =
    (s.leases.lookup id).map LeaseRow.projectId

theorem frozen_refl (s : MetadataDb) : Frozen s s where
  handoffs _ h hstored := ⟨h.state, hstored⟩
  leases _ := rfl

theorem Frozen.trans {s t u : MetadataDb} (hst : Frozen s t) (htu : Frozen t u) : Frozen s u where
  handoffs id h hstored := by
    obtain ⟨state, ht⟩ := hst.handoffs id h hstored
    obtain ⟨state', hu⟩ := htu.handoffs id _ ht
    exact ⟨state', hu⟩
  leases id := (htu.leases id).trans (hst.leases id)

/-- The project of a stored lease does not depend on when it is read. -/
theorem Frozen.leaseProject {s t : MetadataDb} (hst : Frozen s t) (id : String) :
    (t.getLease id).map LeaseRecord.projectId = (s.getLease id).map LeaseRecord.projectId := by
  have hlease := hst.leases id
  unfold MetadataDb.getLease
  rw [Option.map_map, Option.map_map]
  exact hlease

section

variable {s t : MetadataDb} {h : HandoffRecord}

theorem getHandoff_of_touches (htouches : Touches s t h) {id : String}
    (hne : id ≠ h.handoffId) : t.getHandoff id = s.getHandoff id := by
  rw [MetadataDb.getHandoff, htouches.handoffs id hne]
  rfl

theorem frozen_of_moves {next : HandoffState} (hmoves : MovesHandoff s t h next) : Frozen s t where
  handoffs id g hg := by
    by_cases hid : id = h.handoffId
    · subst hid
      cases hmoves.stored.symm.trans hg
      exact ⟨next, hmoves.touches.after⟩
    · exact ⟨g.state, (getHandoff_of_touches hmoves.touches hid).trans hg⟩
  leases := hmoves.touches.leaseProjects

theorem frozen_of_opens {l : LeaseRecord} (hopens : OpensHandoff s t h l) : Frozen s t where
  handoffs id g hg := by
    have hne : id ≠ h.handoffId := by
      rintro rfl
      rw [hopens.fresh] at hg
      cases hg
    exact ⟨g.state, (getHandoff_of_touches hopens.touches hne).trans hg⟩
  leases := hopens.touches.leaseProjects

end

/-! ## Transactions -/

theorem beginHandoff_begins (env : Env) (params : HandoffBeginParams) (source : String)
    (ttl : UInt64) (s : MetadataDb) :
    Begins params source s (beginHandoff env params.leaseId source params.targetDeviceId
      params.sourceGeneration ttl s).2 := by
  rcases beginHandoff_opens env params.leaseId source params.targetDeviceId
      params.sourceGeneration ttl s with
    ⟨e, heq⟩ | ⟨h, l, reply, t, hlease, hsource, htarget, heq, -, -, -, hknown, hopens, hrows⟩
  · rw [heq]
    exact Or.inl rfl
  · rw [heq]
    exact Or.inr ⟨h, l, hlease, hsource, htarget, hknown, hopens, hrows⟩

theorem updateHandoffState_mutates {expected next : HandoffState}
    (hopen : expected.isTerminal = false) (hnext : next ≠ .committed) (env : Env)
    (handoffId : String) (phase : HandoffJournalPhase) (mayCommit : Bool) (s : MetadataDb) :
    Mutates handoffId mayCommit s
      (updateHandoffState env handoffId expected next phase s).2 := by
  rcases updateHandoffState_moves hopen next env handoffId phase s with
    ⟨e, heq⟩ | ⟨h, t, hid, -, heq, hmoves, hrows⟩
  · rw [heq]
    exact Or.inl rfl
  · rw [heq]
    exact Or.inr ⟨h, next, none, hid, hmoves, hrows, Or.inl rfl,
      fun hcommitted => absurd hcommitted hnext⟩

theorem abortHandoffAt_mutates (env : Env) (handoffId : String) (now : UInt64)
    (reason : String) (mayCommit : Bool) (s : MetadataDb) :
    Mutates handoffId mayCommit s (abortHandoffAt env handoffId now reason s).2 := by
  rcases abortHandoffAt_moves env handoffId now reason s with
    ⟨e, heq⟩ | ⟨h, -, -, heq⟩ | ⟨h, t, hid, heq, hmoves, hrows⟩
  · rw [heq]
    exact Or.inl rfl
  · rw [heq]
    exact Or.inl rfl
  · rw [heq]
    exact Or.inr ⟨h, .aborted, none, hid, hmoves, hrows, Or.inl rfl,
      fun hcommitted => nomatch hcommitted⟩

theorem commitHandoffBody_mutates (env : Env) (handoffId observed : String) (now : UInt64)
    (preflight : Option HandoffCommitSnapshotPreflight) (s : MetadataDb) :
    Mutates handoffId true s ((commitHandoffBody env handoffId observed now
      preflight).transaction env.fault s).2 := by
  rcases commitHandoffBody_moves env handoffId observed now preflight s with
    ⟨e, heq⟩ | ⟨h, t, e, hid, -, -, heq, hmoves, hrows⟩ |
    ⟨h, t, hid, -, -, heq, hmoves, hrows⟩
  · rw [heq]
    exact Or.inl rfl
  · rw [heq]
    exact Or.inr ⟨h, .aborted, none, hid, hmoves, hrows, Or.inl rfl,
      fun hcommitted => nomatch hcommitted⟩
  · rw [heq]
    exact Or.inr ⟨h, .committed, _, hid, hmoves, hrows, Or.inr ⟨rfl, rfl⟩, fun _ => rfl⟩

/-! ## Calls on one database -/

theorem readStep_acts {α : Type} {f : MetadataDb → α} {G : MetadataDb → MetadataDb → Prop}
    (hrefl : ∀ s, G s s) : (readStep f).Acts G := Thread.acts_observe hrefl

theorem mutates_refl (handoffId : String) (mayCommit : Bool) (s : MetadataDb) :
    Mutates handoffId mayCommit s s := Or.inl rfl

theorem begins_refl (params : HandoffBeginParams) (source : String) (s : MetadataDb) :
    Begins params source s s := Or.inl rfl

theorem commitHandoffSteps_acts (handoffId observed : String) (now : UInt64)
    (preflight : Option HandoffCommitSnapshotPreflight) :
    (commitHandoffSteps handoffId observed now preflight).Acts (Mutates handoffId true) := by
  apply Thread.Acts.bind
  · exact Thread.acts_atomically fun env s =>
      commitHandoffBody_mutates env handoffId observed now preflight s
  · exact fun _ => Thread.acts_observe (mutates_refl handoffId true)

theorem recoverHandoffSteps_acts (handoffId observed : String) (now : UInt64) :
    (recoverHandoffSteps handoffId observed now).Acts (Mutates handoffId true) := by
  apply Thread.Acts.bind (readStep_acts (mutates_refl handoffId true))
  intro handoff
  have hexpired : (Thread.atomically (fun env db => abortHandoffAt env handoffId now
      "expired during recovery" db) >>= fun _ =>
        (pure .abortedExpired : SqlThread HandoffRecoveryOutcome)).Acts
      (Mutates handoffId true) := by
    apply Thread.Acts.bind
    · exact Thread.acts_atomically fun env s => abortHandoffAt_mutates env _ _ _ _ s
    · exact fun _ => Thread.acts_pure _
  have hcommit : (commitHandoffSteps handoffId observed now none >>= fun _ =>
      (pure .committed : SqlThread HandoffRecoveryOutcome)).Acts (Mutates handoffId true) :=
    (commitHandoffSteps_acts handoffId observed now none).bind fun _ => Thread.acts_pure _
  cases handoff with
  | none => exact Thread.acts_fail _
  | some h =>
    simp only
    split
    · exact Thread.acts_pure _
    · exact Thread.acts_pure _
    · split
      · exact hexpired
      · split
        · exact hcommit
        · exact Thread.acts_pure _

section

variable {G : MetadataDb → MetadataDb → Prop} (hrefl : ∀ s, G s s)

include hrefl

theorem requireHandoffProject_acts (project handoffId : String) :
    (requireHandoffProject project handoffId).Acts G := by
  apply Thread.Acts.bind (readStep_acts hrefl)
  intro handoff
  cases handoff with
  | none => exact Thread.acts_fail _
  | some h => exact (Thread.acts_ofExcept _).bind fun _ => Thread.acts_pure _

theorem handoffMutationResult_acts (h : HandoffRecord) : (handoffMutationResult h).Acts G :=
  (readStep_acts hrefl).bind fun _ => Thread.acts_pure _

/-- A call on a handoff, whatever it does after its checks. -/
theorem checked_acts {α : Type} {project handoffId : String}
    {check : HandoffRecord → Except DevRelayError Unit} {k : SqlThread α} (hk : k.Acts G) :
    (do
      let handoff ← requireHandoffProject project handoffId
      Thread.ofExcept (check handoff)
      k : SqlThread α).Acts G :=
  (requireHandoffProject_acts hrefl project handoffId).bind fun _ =>
    (Thread.acts_ofExcept _).bind fun _ => hk

end

theorem remoteHandoffBegin_acts (actor : String) (params : HandoffBeginParams) :
    (remoteHandoffBegin actor params).Acts (Begins params actor) := by
  have hrefl := begins_refl params actor
  apply Thread.Acts.bind (readStep_acts hrefl)
  intro lease
  cases lease with
  | none => exact Thread.acts_fail _
  | some lease =>
    apply (Thread.acts_ofExcept _).bind
    intro _
    apply (Thread.acts_ofExcept _).bind
    intro _
    apply Thread.Acts.bind
    · exact Thread.acts_atomically fun env s => beginHandoff_begins env params actor _ s
    · exact fun h => handoffMutationResult_acts hrefl h

/-- A transaction on a handoff, and then its journal. -/
theorem mutation_acts {handoffId : String} {mayCommit : Bool}
    {f : Env → MetadataDb → Except DevRelayError HandoffRecord × MetadataDb}
    (hf : ∀ env s, Mutates handoffId mayCommit s (f env s).2) :
    (Thread.atomically f >>= handoffMutationResult).Acts (Mutates handoffId mayCommit) :=
  (Thread.acts_atomically hf).bind fun h =>
    handoffMutationResult_acts (mutates_refl handoffId mayCommit) h

theorem markHandoffTargetVerified_mutates (handoffId : String) (env : Env) (s : MetadataDb) :
    Mutates handoffId false s (markHandoffTargetVerified env handoffId s).2 :=
  updateHandoffState_mutates (by rfl) (by decide) env handoffId _ _ s

theorem markHandoffSourceReady_mutates (handoffId : String) (env : Env) (s : MetadataDb) :
    Mutates handoffId false s (markHandoffSourceReady env handoffId s).2 :=
  updateHandoffState_mutates (by rfl) (by decide) env handoffId _ _ s

theorem abortHandoff_mutates (handoffId : String) (env : Env) (s : MetadataDb) :
    Mutates handoffId false s (abortHandoff env handoffId s).2 :=
  abortHandoffAt_mutates env handoffId _ _ _ s

theorem remoteHandoffTargetVerify_acts (actor : String) (params : HandoffIdParams) :
    (remoteHandoffTargetVerify actor params).Acts (Mutates params.handoffId false) :=
  checked_acts (mutates_refl _ _)
    (mutation_acts fun env s => markHandoffTargetVerified_mutates _ env s)

theorem remoteHandoffSourceReady_acts (actor : String) (params : HandoffIdParams) :
    (remoteHandoffSourceReady actor params).Acts (Mutates params.handoffId false) :=
  checked_acts (mutates_refl _ _)
    (mutation_acts fun env s => markHandoffSourceReady_mutates _ env s)

theorem remoteHandoffAbort_acts (actor : String) (params : HandoffIdParams) :
    (remoteHandoffAbort actor params).Acts (Mutates params.handoffId false) :=
  checked_acts (mutates_refl _ _) (mutation_acts fun env s => abortHandoff_mutates _ env s)

theorem remoteHandoffCommit_acts (actor : String) (params : HandoffCommitParams) (now : UInt64) :
    (remoteHandoffCommit actor params now).Acts (Mutates params.handoffId true) :=
  checked_acts (mutates_refl _ _)
    ((commitHandoffSteps_acts _ _ _ _).bind fun h =>
      handoffMutationResult_acts (mutates_refl _ _) h)

theorem remoteHandoffRecover_acts (actor : String) (params : HandoffRecoverParams) (now : UInt64) :
    (remoteHandoffRecover actor params now).Acts (Mutates params.handoffId true) :=
  checked_acts (mutates_refl _ _)
    ((recoverHandoffSteps_acts _ _ _).bind fun _ =>
      (requireHandoffProject_acts (mutates_refl _ _) _ _).bind fun _ =>
        (readStep_acts (mutates_refl _ _)).bind fun _ => Thread.acts_pure _)

end DevRelay.Remote
