import DevRelay.Remote.Effects

/-!
# Roles of the remote handoff calls

The actor and the project of a call are checked on a record read before the
transaction, but neither the parties nor the project of a handoff ever change:
this is what a call relies on between its steps (`Frozen`), and with it every
transaction changes the store only as the role of its actor allows
(`RoleSeparated`).  The lease of an open handoff is out of reach of everybody
else; once the handoff is closed, its lease goes on to other handoffs.
-/

namespace DevRelay.Remote

open DevRelay.Lib DevRelay.Core DevRelay.Storage

/-! ## What a role allows -/

def RemoteHandoffMethod.isRecover : RemoteHandoffMethod → Bool
  | recover _ _ => true
  | _ => false

namespace RemoteHandoffCall

/-- The step of the handoff `h` from the state `before` to its present state is
one for the actor of the call. -/
def MayMove (call : RemoteHandoffCall) (h : HandoffRecord) (before : Option HandoffState) : Prop :=
  match h.state with
  | .targetPrepare => call.actorDeviceId = h.sourceDeviceId
  | .targetVerified => call.actorDeviceId = h.targetDeviceId
  | .sourceReady => call.actorDeviceId = h.sourceDeviceId
  | .committed => call.actorDeviceId = h.sourceDeviceId ∨
      (call.actorDeviceId = h.targetDeviceId ∧ call.method.isRecover = true ∧
        before = some .sourceReady)
  | .aborted =>
    call.actorDeviceId = h.sourceDeviceId ∨ call.actorDeviceId = h.targetDeviceId

/-- The actor is a party of the handoff. -/
def IsParty (call : RemoteHandoffCall) (h : HandoffRecord) : Prop :=
  call.actorDeviceId = h.sourceDeviceId ∨ call.actorDeviceId = h.targetDeviceId

def project (call : RemoteHandoffCall) : String :=
  match call.method with
  | .begin params => params.project
  | .targetVerify params => params.project
  | .sourceReady params => params.project
  | .commit params _ => params.project
  | .abort params => params.project
  | .recover params _ => params.project

/-- The project of what the call names: of the lease of a begin, of the handoff
of any other call. -/
def namedProject (call : RemoteHandoffCall) (db : MetadataDb) : Option String :=
  match call.method with
  | .begin params => (db.getLease params.leaseId).map LeaseRecord.projectId
  | .targetVerify params => (db.getHandoff params.handoffId).map HandoffRecord.projectId
  | .sourceReady params => (db.getHandoff params.handoffId).map HandoffRecord.projectId
  | .commit params _ => (db.getHandoff params.handoffId).map HandoffRecord.projectId
  | .abort params => (db.getHandoff params.handoffId).map HandoffRecord.projectId
  | .recover params _ => (db.getHandoff params.handoffId).map HandoffRecord.projectId

end RemoteHandoffCall

/-- How a step of `call` may change the store. -/
structure RoleSeparated (call : RemoteHandoffCall) (s t : MetadataDb) : Prop where
  moved : ∀ id h, t.getHandoff id = some h →
    (s.getHandoff id).map HandoffRecord.state ≠ some h.state →
    call.MayMove h ((s.getHandoff id).map HandoffRecord.state)
  handoffKept : ∀ id h, s.getHandoff id = some h → ¬call.IsParty h →
    t.handoffs.lookup id = s.handoffs.lookup id
  leaseKept : ∀ id h, s.getHandoff id = some h → ¬call.IsParty h →
    h.state.isTerminal = false → t.leases.lookup h.leaseId = s.leases.lookup h.leaseId
  leaseMoved : ∀ leaseId, t.leases.lookup leaseId ≠ s.leases.lookup leaseId →
    ∃ id h, t.getHandoff id = some h ∧ h.leaseId = leaseId ∧ call.IsParty h ∧
      s.getHandoff id ≠ some h
  project : t ≠ s → call.namedProject s = some call.project

theorem roleSeparated_refl (call : RemoteHandoffCall) (s : MetadataDb) :
    RoleSeparated call s s where
  moved id h hafter hstate := absurd (by rw [hafter]; rfl) hstate
  handoffKept _ _ _ _ := rfl
  leaseKept _ _ _ _ _ := rfl
  leaseMoved _ hne := absurd rfl hne
  project hne := absurd rfl hne

/-! ## Guarantees -/

/-- What a step of `call` guarantees. -/
def Guarantee (call : RemoteHandoffCall) (s t : MetadataDb) : Prop :=
  RoleSeparated call s t ∧ Frozen s t

theorem guarantee_refl (call : RemoteHandoffCall) (s : MetadataDb) : Guarantee call s s :=
  ⟨roleSeparated_refl call s, frozen_refl s⟩

/-! ## Transactions -/

section

variable {call : RemoteHandoffCall} {s t : MetadataDb} {h : HandoffRecord}

/-- A transaction that touches one handoff leaves the handoffs of other parties
alone. -/
theorem handoffKept_of_touches (hstored : ∀ g, s.getHandoff h.handoffId = some g →
      call.IsParty g) (htouches : Touches s t h) (id : String) (g : HandoffRecord)
    (hg : s.getHandoff id = some g) (hparty : ¬call.IsParty g) :
    t.handoffs.lookup id = s.handoffs.lookup id := by
  apply htouches.handoffs id
  rintro rfl
  exact hparty (hstored g hg)

theorem guarantee_of_moves {next : HandoffState} (hconsistent : s.ledger.Consistent)
    (hmoves : MovesHandoff s t h next) (hchanged : h.state ≠ next)
    (hmay : call.MayMove { h with state := next } (some h.state))
    (hparty : call.IsParty h) (hproject : call.namedProject s = some call.project) :
    Guarantee call s t := by
  have htouches := hmoves.touches
  have hafter : t.getHandoff h.handoffId = some { h with state := next } := htouches.after
  refine ⟨⟨?_, ?_, ?_, ?_, fun _ => hproject⟩, frozen_of_moves hmoves⟩
  · intro id g hg hstate
    by_cases hid : id = h.handoffId
    · subst hid
      cases hafter.symm.trans hg
      rw [hmoves.stored]
      exact hmay
    · rw [getHandoff_of_touches htouches hid] at hg
      exact absurd (by rw [hg]; rfl) hstate
  · refine handoffKept_of_touches (fun g hg => ?_) htouches
    cases hmoves.stored.symm.trans hg
    exact hparty
  · intro id g hg hnoparty hopen
    apply htouches.leases
    intro hlease
    have hid : id = h.handoffId :=
      hconsistent.open_unique hg hmoves.stored hopen hmoves.isOpen hlease
    subst hid
    cases hmoves.stored.symm.trans hg
    exact hnoparty hparty
  · intro leaseId hne
    refine ⟨h.handoffId, _, hafter, ?_, hparty, ?_⟩
    · by_contra hlease
      exact hne (htouches.leases leaseId fun heq => hlease heq.symm)
    · rw [hmoves.stored]
      intro heq
      have hstate : h.state = next := congrArg HandoffRecord.state (Option.some.inj heq)
      exact hchanged hstate

theorem guarantee_of_opens {l : LeaseRecord} (hconsistent : s.ledger.Consistent)
    (hopens : OpensHandoff s t h l) (hsource : call.actorDeviceId = h.sourceDeviceId)
    (hproject : call.namedProject s = some call.project) : Guarantee call s t := by
  have htouches := hopens.touches
  have hother : ∀ id g, s.getHandoff id = some g → id ≠ h.handoffId := by
    rintro id g hg rfl
    rw [hopens.fresh] at hg
    cases hg
  refine ⟨⟨?_, ?_, ?_, ?_, fun _ => hproject⟩, frozen_of_opens hopens⟩
  · intro id g hg hstate
    by_cases hid : id = h.handoffId
    · subst hid
      cases htouches.after.symm.trans hg
      unfold RemoteHandoffCall.MayMove
      rw [hopens.prepare]
      exact hsource
    · rw [getHandoff_of_touches htouches hid] at hg
      exact absurd (by rw [hg]; rfl) hstate
  · intro id g hg _
    exact htouches.handoffs id (hother id g hg)
  · intro id g hg _ hopen
    apply htouches.leases
    intro hlease
    -- the lease of an open handoff is pending, this one is active
    obtain ⟨l', hl', hpending, -⟩ := hconsistent.openPending id g hg hopen
    rw [hlease] at hl'
    cases hopens.lease.symm.trans hl'
    rw [hopens.active] at hpending
    cases hpending
  · intro leaseId hne
    refine ⟨h.handoffId, h, htouches.after, ?_, Or.inl hsource, ?_⟩
    · by_contra hlease
      exact hne (htouches.leases leaseId fun heq => hlease heq.symm)
    · rw [hopens.fresh]
      exact fun heq => nomatch heq

end

/-! ## The calls -/

section

variable {call : RemoteHandoffCall} {s : MetadataDb}

/-- Bound by the consistency of the store, by what stays, and by its role. -/
abbrev roleContract (call : RemoteHandoffCall) : Thread.Contract Env MetadataDb :=
  ⟨fun _ _ => True, fun db => db.ledger.Consistent, Frozen, Guarantee call⟩

/-- The thread keeps the contract of `call`, and what it returns satisfies `Q`. -/
abbrev KeepsRole {α : Type} (call : RemoteHandoffCall) (Q : α → MetadataDb → Prop)
    (p : SqlThread α) (s : MetadataDb) : Prop :=
  p.ObeysOk (roleContract call) Q s

/-- The record `h` was read under `handoffId`, and is one of `project`. -/
def Known (handoffId project : String) (h : HandoffRecord) (s : MetadataDb) : Prop :=
  h.projectId = project ∧ ∃ state, s.getHandoff handoffId = some { h with state := state }

theorem Known.frozen {handoffId project : String} {h : HandoffRecord} {s t : MetadataDb}
    (hknown : Known handoffId project h s) (hst : Frozen s t) :
    Known handoffId project h t := by
  obtain ⟨hproject, state, hs⟩ := hknown
  obtain ⟨state', ht⟩ := hst.handoffs handoffId _ hs
  exact ⟨hproject, state', ht⟩

/-- What is stored is the known record, but for its state. -/
theorem Known.stored {handoffId project : String} {h g : HandoffRecord} {s : MetadataDb}
    (hknown : Known handoffId project h s) (hg : s.getHandoff handoffId = some g) :
    g.projectId = project ∧ g.sourceDeviceId = h.sourceDeviceId ∧
      g.targetDeviceId = h.targetDeviceId := by
  obtain ⟨hproject, state, hs⟩ := hknown
  cases hs.symm.trans hg
  exact ⟨hproject, rfl, rfl⟩

theorem readStep_obeys {α : Type} (f : MetadataDb → α) {Q : α → MetadataDb → Prop}
    (hQ : ∀ t, Frozen s t → Q (f t) t) : KeepsRole call Q (readStep f) s := by
  apply Thread.obeysOk_observe (guarantee_refl call)
  intro t _ hst env _ a ha
  split at ha
  · cases ha
  · cases ha
    exact hQ t hst

theorem handoffMutationResult_obeys (h : HandoffRecord) :
    KeepsRole call (fun _ _ => True) (handoffMutationResult h) s := by
  apply Thread.ObeysOk.bind (readStep_obeys (Q := fun _ _ => True) _ fun _ _ => trivial)
  exact fun _ _ _ => Thread.obeysOk_pure trivial

theorem requireHandoffProject_obeys (project handoffId : String) :
    KeepsRole call (Known handoffId project) (requireHandoffProject project handoffId) s := by
  apply Thread.ObeysOk.bind (Q := fun handoff t => t.getHandoff handoffId = handoff)
  · exact readStep_obeys _ fun _ _ => rfl
  · intro handoff t hread
    cases handoff with
    | none => exact Thread.obeysOk_fail _
    | some h =>
      apply Thread.obeysOk_check
      intro _ hproject
      exact Thread.obeysOk_pure ⟨of_decide_eq_true (require_eq_ok.mp hproject), h.state, hread⟩

/-- A call on a handoff: the record is read, its project and the actor are
checked, and then `k` may change the store. -/
theorem checked_obeys {α : Type} {project handoffId : String}
    {check : HandoffRecord → Except DevRelayError Unit} {k : SqlThread α}
    (hk : ∀ h t, Known handoffId project h t → check h = .ok () →
      KeepsRole call (fun _ _ => True) k t) :
    KeepsRole call (fun _ _ => True) (do
      let handoff ← requireHandoffProject project handoffId
      Thread.ofExcept (check handoff)
      k) s := by
  apply Thread.ObeysOk.bind (requireHandoffProject_obeys project handoffId)
  intro h t hknown
  apply Thread.obeysOk_check
  intro _ hcheck
  exact hk h t hknown hcheck

/-- A transaction, and then the journal. -/
theorem mutation_obeys {f : Env → MetadataDb → Except DevRelayError HandoffRecord × MetadataDb}
    (hf : ∀ env t, t.ledger.Consistent → Frozen s t →
      (f env t).2.ledger.Consistent ∧ Guarantee call t (f env t).2) :
    KeepsRole call (fun _ _ => True)
      (Thread.atomically f >>= handoffMutationResult) s := by
  apply Thread.ObeysOk.bind (Q := fun _ _ => True)
  · apply Thread.obeysOk_atomically
    intro t ht hst env _
    obtain ⟨hconsistent, hguarantee⟩ := hf env t ht hst
    exact ⟨hconsistent, hguarantee, fun _ _ => trivial⟩
  · intro h t _
    exact handoffMutationResult_obeys h

/-- The project of a known handoff is the one the call names. -/
theorem Known.named {handoffId project : String} {h g : HandoffRecord} {t : MetadataDb}
    (hknown : Known handoffId project h t) (hg : t.getHandoff handoffId = some g)
    (hproject : call.project = project)
    (hnames : call.namedProject t = (t.getHandoff handoffId).map HandoffRecord.projectId) :
    call.namedProject t = some call.project := by
  rw [hnames, hg, hproject]
  exact congrArg some (hknown.stored hg).1

end

section

variable {actor : String} {s : MetadataDb}

theorem remoteHandoffTargetVerify_obeys (params : HandoffIdParams) :
    KeepsRole ⟨actor, .targetVerify params⟩ (fun _ _ => True)
      (remoteHandoffTargetVerify actor params) s := by
  apply checked_obeys
  intro h t hknown hactor
  have htarget : h.targetDeviceId = actor :=
    Option.some.inj (of_decide_eq_true (require_eq_ok.mp hactor))
  apply mutation_obeys
  intro env u hu htu
  refine ⟨step_consistent u ⟨env, .markHandoffTargetVerified params.handoffId, none⟩ hu, ?_⟩
  have hprepare : HandoffState.targetPrepare.isTerminal = false := rfl
  rcases updateHandoffState_moves hprepare .targetVerified env params.handoffId
      .targetVerified u with ⟨e, heq⟩ | ⟨g, v, hid, hstate, heq, hmoves, -⟩
  · rw [markHandoffTargetVerified, heq]
    exact guarantee_refl _ u
  · rw [markHandoffTargetVerified, heq]
    have hg := hmoves.stored
    rw [hid] at hg
    obtain ⟨-, -, hsame⟩ := (hknown.frozen htu).stored hg
    have hparty : actor = g.targetDeviceId := htarget.symm.trans hsame.symm
    exact guarantee_of_moves hu hmoves (by rw [hstate]; decide) hparty (Or.inr hparty)
      ((hknown.frozen htu).named hg rfl rfl)

theorem remoteHandoffSourceReady_obeys (params : HandoffIdParams) :
    KeepsRole ⟨actor, .sourceReady params⟩ (fun _ _ => True)
      (remoteHandoffSourceReady actor params) s := by
  apply checked_obeys
  intro h t hknown hactor
  have hsource : h.sourceDeviceId = actor :=
    Option.some.inj (of_decide_eq_true (require_eq_ok.mp hactor))
  apply mutation_obeys
  intro env u hu htu
  refine ⟨step_consistent u ⟨env, .markHandoffSourceReady params.handoffId, none⟩ hu, ?_⟩
  have hverified : HandoffState.targetVerified.isTerminal = false := rfl
  rcases updateHandoffState_moves hverified .sourceReady env params.handoffId
      .sourceReady u with ⟨e, heq⟩ | ⟨g, v, hid, hstate, heq, hmoves, -⟩
  · rw [markHandoffSourceReady, heq]
    exact guarantee_refl _ u
  · rw [markHandoffSourceReady, heq]
    have hg := hmoves.stored
    rw [hid] at hg
    obtain ⟨-, hsame, -⟩ := (hknown.frozen htu).stored hg
    have hparty : actor = g.sourceDeviceId := hsource.symm.trans hsame.symm
    exact guarantee_of_moves hu hmoves (by rw [hstate]; decide) hparty (Or.inl hparty)
      ((hknown.frozen htu).named hg rfl rfl)

/-- An abort by a party of the handoff. -/
private theorem guarantee_of_abort {call : RemoteHandoffCall} {handoffId project : String}
    {h : HandoffRecord} {u : MetadataDb} (hu : u.ledger.Consistent)
    (hknown : Known handoffId project h u) (hparty : call.IsParty h)
    (hproject : call.project = project)
    (hnames : call.namedProject u = (u.getHandoff handoffId).map HandoffRecord.projectId)
    (env : Env) (now : UInt64) (reason : String) :
    (abortHandoffAt env handoffId now reason u).2.ledger.Consistent ∧
      Guarantee call u (abortHandoffAt env handoffId now reason u).2 := by
  refine ⟨step_consistent u ⟨{ env with unixNowSeconds := now },
    .abortHandoffWithReason handoffId reason, none⟩ hu, ?_⟩
  rcases abortHandoffAt_moves env handoffId now reason u with
    ⟨e, heq⟩ | ⟨g, -, -, heq⟩ | ⟨g, v, hid, heq, hmoves, -⟩
  · rw [heq]
    exact guarantee_refl _ u
  · rw [heq]
    exact guarantee_refl _ u
  · rw [heq]
    have hg := hmoves.stored
    rw [hid] at hg
    obtain ⟨-, hsource, htarget⟩ := hknown.stored hg
    have hparty' : call.IsParty g := by
      unfold RemoteHandoffCall.IsParty
      rw [hsource, htarget]
      exact hparty
    have hchanged : g.state ≠ .aborted := by
      intro haborted
      have hopen := hmoves.isOpen
      rw [haborted] at hopen
      cases hopen
    exact guarantee_of_moves hu hmoves hchanged hparty' hparty'
      (hknown.named hg hproject hnames)

theorem remoteHandoffAbort_obeys (params : HandoffIdParams) :
    KeepsRole ⟨actor, .abort params⟩ (fun _ _ => True)
      (remoteHandoffAbort actor params) s := by
  apply checked_obeys
  intro h t hknown hactor
  have hactor' : actor = h.sourceDeviceId ∨ actor = h.targetDeviceId :=
    of_decide_eq_true (require_eq_ok.mp hactor)
  have hparty : RemoteHandoffCall.IsParty ⟨actor, .abort params⟩ h := hactor'
  apply mutation_obeys
  intro env u hu htu
  exact guarantee_of_abort hu (hknown.frozen htu) hparty rfl rfl env _ _

/-- The transaction of a commit asked for by the source, or by the target
through a recovery. -/
private theorem commit_obeys {call : RemoteHandoffCall} {handoffId project : String}
    {h : HandoffRecord} (hknown : Known handoffId project h s)
    (hparty : call.actorDeviceId = h.sourceDeviceId ∨
      (call.actorDeviceId = h.targetDeviceId ∧ call.method.isRecover = true))
    (hproject : call.project = project) (hnames : ∀ u : MetadataDb,
      call.namedProject u = (u.getHandoff handoffId).map HandoffRecord.projectId)
    (observed : String) (now : UInt64) :
    KeepsRole call (fun _ _ => True) (commitHandoffSteps handoffId observed now none) s := by
  apply Thread.ObeysOk.bind (Q := fun _ _ => True)
  · apply Thread.obeysOk_atomically
    intro u hu hsu env _
    have hconsistent := step_consistent u ⟨env, .commitHandoff handoffId observed now, none⟩ hu
    have hsnd := commitHandoffInner_snd env none handoffId observed now none u
    have hknown' := hknown.frozen hsu
    -- the parties and the project of what is stored
    have hstored : ∀ g, g.handoffId = handoffId → u.getHandoff g.handoffId = some g →
        (call.actorDeviceId = g.sourceDeviceId ∨
          (call.actorDeviceId = g.targetDeviceId ∧ call.method.isRecover = true)) ∧
        call.namedProject u = some call.project := by
      intro g hid hg
      rw [hid] at hg
      obtain ⟨-, hsource, htarget⟩ := hknown'.stored hg
      rw [hsource, htarget]
      exact ⟨hparty, hknown'.named hg hproject (hnames u)⟩
    refine ⟨?_, ?_, fun _ _ => trivial⟩
    · rw [← hsnd]
      exact hconsistent
    · rcases commitHandoffBody_moves env handoffId observed now none u with
        ⟨e, heq⟩ | ⟨g, v, e, hid, hready, -, heq, hmoves, -⟩ |
        ⟨g, v, hid, hready, -, heq, hmoves, -⟩
      · rw [heq]
        exact guarantee_refl _ u
      · rw [heq]
        obtain ⟨hrole, hnamed⟩ := hstored g hid hmoves.stored
        have hparty' : call.IsParty g := hrole.imp_right And.left
        exact guarantee_of_moves hu hmoves (by rw [hready]; decide) hparty' hparty' hnamed
      · rw [heq]
        obtain ⟨hrole, hnamed⟩ := hstored g hid hmoves.stored
        have hparty' : call.IsParty g := hrole.imp_right And.left
        refine guarantee_of_moves hu hmoves (by rw [hready]; decide) ?_ hparty' hnamed
        exact hrole.imp_right fun h => ⟨h.1, h.2, by rw [hready]⟩
  · intro _ t _
    apply Thread.obeysOk_observe (guarantee_refl call)
    exact fun _ _ _ _ _ _ _ => trivial

theorem remoteHandoffCommit_obeys (params : HandoffCommitParams) (now : UInt64) :
    KeepsRole ⟨actor, .commit params now⟩ (fun _ _ => True)
      (remoteHandoffCommit actor params now) s := by
  apply checked_obeys
  intro h t hknown hactor
  have hsource : h.sourceDeviceId = actor :=
    Option.some.inj (of_decide_eq_true (require_eq_ok.mp hactor))
  apply Thread.ObeysOk.bind (Q := fun _ _ => True)
  · exact commit_obeys hknown (Or.inl hsource.symm) rfl (fun _ => rfl) _ _
  · exact fun g _ _ => handoffMutationResult_obeys g

theorem recoverHandoffSteps_obeys {params : HandoffRecoverParams} {now : UInt64}
    {h : HandoffRecord} (hknown : Known params.handoffId params.project h s)
    (hparty : actor = h.sourceDeviceId ∨ actor = h.targetDeviceId) :
    KeepsRole ⟨actor, .recover params now⟩ (fun _ _ => True)
      (recoverHandoffSteps params.handoffId params.observedSourceGeneration now) s := by
  apply Thread.ObeysOk.bind (Q := fun _ t => Known params.handoffId params.project h t)
  · exact readStep_obeys _ fun t hst => hknown.frozen hst
  · intro handoff t hknown'
    have hexpired : KeepsRole ⟨actor, .recover params now⟩ (fun _ _ => True)
        (Thread.atomically (fun env db => abortHandoffAt env params.handoffId now
          "expired during recovery" db) >>= fun _ =>
            (pure .abortedExpired : SqlThread HandoffRecoveryOutcome)) t := by
      apply Thread.ObeysOk.bind (Q := fun _ _ => True)
      · apply Thread.obeysOk_atomically
        intro u hu htu env _
        have hparty' : RemoteHandoffCall.IsParty ⟨actor, .recover params now⟩ h := hparty
        obtain ⟨hconsistent, hguarantee⟩ := guarantee_of_abort hu (hknown'.frozen htu)
          hparty' rfl rfl env now "expired during recovery"
        exact ⟨hconsistent, hguarantee, fun _ _ => trivial⟩
      · exact fun _ _ _ => Thread.obeysOk_pure trivial
    have hcommit : KeepsRole ⟨actor, .recover params now⟩ (fun _ _ => True)
        (commitHandoffSteps params.handoffId params.observedSourceGeneration now none >>=
          fun _ => (pure .committed : SqlThread HandoffRecoveryOutcome)) t := by
      apply Thread.ObeysOk.bind (Q := fun _ _ => True)
      · exact commit_obeys hknown' (hparty.imp_right fun h => ⟨h, rfl⟩) rfl (fun _ => rfl)
          _ _
      · exact fun _ _ _ => Thread.obeysOk_pure trivial
    cases handoff with
    | none => exact Thread.obeysOk_fail _
    | some g =>
      simp only
      split
      · exact Thread.obeysOk_pure trivial
      · exact Thread.obeysOk_pure trivial
      · split
        · exact hexpired
        · split
          · exact hcommit
          · exact Thread.obeysOk_pure trivial

theorem remoteHandoffRecover_obeys (params : HandoffRecoverParams) (now : UInt64) :
    KeepsRole ⟨actor, .recover params now⟩ (fun _ _ => True)
      (remoteHandoffRecover actor params now) s := by
  apply checked_obeys
  intro h t hknown hactor
  have hparty : actor = h.sourceDeviceId ∨ actor = h.targetDeviceId :=
    of_decide_eq_true (require_eq_ok.mp hactor)
  apply Thread.ObeysOk.bind (recoverHandoffSteps_obeys hknown hparty)
  intro outcome u _
  apply Thread.ObeysOk.bind (requireHandoffProject_obeys params.project params.handoffId)
  intro g v _
  apply Thread.ObeysOk.bind (readStep_obeys (Q := fun _ _ => True) _ fun _ _ => trivial)
  exact fun _ _ _ => Thread.obeysOk_pure trivial

theorem remoteHandoffBegin_obeys (params : HandoffBeginParams) :
    KeepsRole ⟨actor, .begin params⟩ (fun _ _ => True)
      (remoteHandoffBegin actor params) s := by
  apply Thread.ObeysOk.bind (Q := fun lease t => t.getLease params.leaseId = lease)
  · exact readStep_obeys _ fun _ _ => rfl
  · intro lease t hread
    cases lease with
    | none => exact Thread.obeysOk_fail _
    | some lease =>
      apply Thread.obeysOk_check
      intro _ hproject
      have hproject' : lease.projectId = params.project :=
        of_decide_eq_true (require_eq_ok.mp hproject)
      apply Thread.obeysOk_check
      intro _ _
      apply mutation_obeys
      intro env u hu htu
      refine ⟨step_consistent u ⟨env, .beginHandoff params.leaseId actor
        params.targetDeviceId params.sourceGeneration
        (params.ttlSeconds.getD DEFAULT_REMOTE_HANDOFF_TTL_SECONDS), none⟩ hu, ?_⟩
      rcases beginHandoff_opens env params.leaseId actor params.targetDeviceId
          params.sourceGeneration
          (params.ttlSeconds.getD DEFAULT_REMOTE_HANDOFF_TTL_SECONDS) u with
        ⟨e, heq⟩ | ⟨h, l, reply, v, -, hsource, -, heq, -, -, -, -, hopens, -⟩
      · rw [heq]
        exact guarantee_refl _ u
      · rw [heq]
        refine guarantee_of_opens hu hopens hsource.symm ?_
        show (u.getLease params.leaseId).map LeaseRecord.projectId = some params.project
        rw [htu.leaseProject, hread]
        exact congrArg some hproject'

end

/-! ## Every run -/

theorem program_obeys (call : RemoteHandoffCall) (s : MetadataDb) :
    KeepsRole call (fun _ _ => True) call.program s := by
  obtain ⟨actor, method⟩ := call
  cases method with
  | begin params =>
    exact (remoteHandoffBegin_obeys params).bind fun _ _ _ => Thread.obeysOk_pure trivial
  | targetVerify params =>
    exact (remoteHandoffTargetVerify_obeys params).bind fun _ _ _ => Thread.obeysOk_pure trivial
  | sourceReady params =>
    exact (remoteHandoffSourceReady_obeys params).bind fun _ _ _ => Thread.obeysOk_pure trivial
  | commit params now =>
    exact (remoteHandoffCommit_obeys params now).bind fun _ _ _ => Thread.obeysOk_pure trivial
  | abort params =>
    exact (remoteHandoffAbort_obeys params).bind fun _ _ _ => Thread.obeysOk_pure trivial
  | recover params now =>
    exact (remoteHandoffRecover_obeys params now).bind fun _ _ _ => Thread.obeysOk_pure trivial

/-- Any two calls may run at the same time. -/
theorem roleRules : Pool.Rules (fun _ _ : RemoteHandoffCall => True) (fun _ => Frozen)
    Guarantee where
  refl _ := frozen_refl
  trans := Frozen.trans
  guarantee _ h := h.2
  symm _ := trivial

/-- In every run of the remote handoff calls, of any devices and in any order of
their steps: a step of a handoff is made by the role it belongs to, a device that
is no party changes nothing of a handoff, nor of its lease while the handoff is
open, and a call that names another project changes nothing. -/
theorem remote_roles_separated (db : MetadataDb) (hconsistent : db.ledger.Consistent)
    (moves : List (Move RemoteHandoffCall Env)) :
    Pool.EveryStep RemoteHandoffCall.program db moves RoleSeparated := by
  have hevery : Pool.EveryStep RemoteHandoffCall.program db moves Guarantee :=
    Pool.everyStep (I := fun db => db.ledger.Consistent) hconsistent roleRules
      guarantee_refl (fun call s _ => program_obeys call s) fun n hn => by
        cases moves[n] with
        | arrive call => exact fun _ _ => trivial
        | advance i env => trivial
  intro n hn
  obtain ⟨hcall, hnone⟩ := hevery n hn
  exact ⟨fun call hcaller => (hcall call hcaller).1, hnone⟩

/-! ## A lease outlives its handoffs -/

/-- The first device hands over to the second, thinks better of it, and hands
over to a third, which declines. -/
def passedOn : List (Move RemoteHandoffCall Env) :=
  let first := demoEnv 100
  let second := { demoEnv 200 with generatedHandoffId := "ho_2" }
  [.arrive ⟨"device-a", .begin ⟨"project-1", "lease-1", "device-b", "gen-1", none⟩⟩,
    .advance 0 first, .advance 0 first,
    .arrive ⟨"device-a", .abort ⟨"project-1", "ho_1"⟩⟩,
    .advance 1 first, .advance 1 first,
    .arrive ⟨"device-a", .begin ⟨"project-1", "lease-1", "device-c", "gen-2", none⟩⟩,
    .advance 2 second, .advance 2 second,
    .arrive ⟨"device-c", .abort ⟨"project-1", "ho_2"⟩⟩,
    .advance 3 second, .advance 3 second]

theorem demoStore_consistent : demoStore.ledger.Consistent :=
  Ledger.consistent_of_closed demoStore_settled.leases demoStore_settled.handoffs

theorem remote_roles_separated_demo :
    Pool.EveryStep RemoteHandoffCall.program demoStore passedOn RoleSeparated :=
  remote_roles_separated demoStore demoStore_consistent passedOn

/-- The lease of a handoff is never changed by a device that is no party of it. -/
def LeaseKeptForever (call : RemoteHandoffCall) (s t : MetadataDb) : Prop :=
  ∀ id h, s.getHandoff id = some h → ¬call.IsParty h →
    t.leases.lookup h.leaseId = s.leases.lookup h.leaseId

/-- The last call of `passedOn` changes the lease of the first handoff, which is
none of its device's business. -/
theorem not_leaseKeptForever :
    ¬∀ (db : MetadataDb) (moves : List (Move RemoteHandoffCall Env)),
      db.ledger.Consistent →
        Pool.EveryStep RemoteHandoffCall.program db moves LeaseKeptForever := by
  intro hclaim
  have hstep := (hclaim demoStore passedOn demoStore_consistent 11 (by decide)).1
    ⟨"device-c", .abort ⟨"project-1", "ho_2"⟩⟩ rfl
  have hstored : ((Pool.after RemoteHandoffCall.program demoStore passedOn
      11).state.getHandoff "ho_1").map (fun h =>
        (h.sourceDeviceId, h.targetDeviceId, h.leaseId)) =
      some ("device-a", "device-b", "lease-1") := by decide
  have hbefore : ((Pool.after RemoteHandoffCall.program demoStore passedOn
      11).state.leases.lookup "lease-1").map LeaseRow.state = some "handoff-pending" := by
    decide
  have hafter : ((Pool.after RemoteHandoffCall.program demoStore passedOn
      12).state.leases.lookup "lease-1").map LeaseRow.state = some "active" := by decide
  obtain ⟨h, hh, hparties⟩ := Option.map_eq_some_iff.mp hstored
  obtain ⟨hsource, htarget, hlease⟩ := Prod.mk.inj hparties |>.imp_right Prod.mk.inj
  have hkept := hstep "ho_1" h hh (by
    rintro (hactor | hactor)
    · rw [hsource] at hactor
      exact absurd hactor (by decide)
    · rw [htarget] at hactor
      exact absurd hactor (by decide))
  rw [hlease] at hkept
  rw [hkept, hbefore] at hafter
  exact absurd hafter (by decide)

end DevRelay.Remote
