import DevRelay.Storage.CommitSafety

/-!
# The epoch law

A lease is created by `upsert_lease` and then moves from holder to holder, one
epoch at a time.  The epoch is unsigned in the records and signed in its column,
which is read by clamping: the law holds up to the last epoch the column can
hold, and a commit at that epoch reads back as epoch zero.
-/

namespace DevRelay.Storage

open DevRelay.Lib DevRelay.Core

/-! ## One step -/

/-- The step from `db` to `db'` commits the handoff `h`. -/
structure CommittedBy (db db' : MetadataDb) (h : HandoffRecord) : Prop where
  stored : db.getHandoff h.handoffId = some h
  before : h.state ≠ .committed
  after : db'.InPhase h.handoffId .committed

/-- Holders and epochs stay, and nothing is newly committed. -/
structure HoldingKept (db db' : MetadataDb) : Prop where
  holding : ∀ leaseId v, db.holding leaseId = some v → db'.holding leaseId = some v
  phase : ∀ handoffId, db'.InPhase handoffId .committed → db.InPhase handoffId .committed

/-- The commit of `h` as a step of the store. -/
structure CommitStep (db db' : MetadataDb) (h : HandoffRecord) (observed : String)
    (now : UInt64) : Prop where
  admitted : CommitAdmitted db h observed now
  lease : ∃ l, db.getLease h.leaseId = some l ∧ l.epoch = h.expectedEpoch
  ledger : db'.ledger = db.ledger.commit h (MetadataDb.nextEpoch h.expectedEpoch)

section

variable {db db' : MetadataDb}

private theorem holdingKept_of_ledger {s : Ledger} (hledger : db'.ledger = s)
    (hlease : ∀ leaseId, (s.lease leaseId).map (fun l => (l.holderDeviceId, l.epoch)) =
      db.holding leaseId)
    (hphase : ∀ handoffId g, s.handoff handoffId = some g → g.state = .committed →
      db.getHandoff handoffId = some g) : HoldingKept db db' where
  holding leaseId v hv := by
    have hread : db'.getLease leaseId = s.lease leaseId :=
      congrFun (congrArg Ledger.lease hledger) leaseId
    rw [MetadataDb.holding, hread, hlease]
    exact hv
  phase handoffId := by
    rintro ⟨g, hg, hcommitted⟩
    have hread : s.handoff handoffId = some g := by
      rw [← hledger]
      exact hg
    exact ⟨g, hphase handoffId g hread hcommitted, hcommitted⟩

private theorem phase_of_assign {h : HandoffRecord} {key : String}
    (hne : h.state ≠ .committed) (handoffId : String) (g : HandoffRecord)
    (hg : assign db.getHandoff key h handoffId = some g) (hcommitted : g.state = .committed) :
    db.getHandoff handoffId = some g := by
  rcases assign_eq_some.mp hg with ⟨-, rfl⟩ | ⟨-, hsame⟩
  · exact absurd hcommitted hne
  · exact hsame

/-- A call commits one handoff, or keeps every holder and epoch. -/
theorem Effect.holding {call : Call} {reply : Except DevRelayError Unit}
    (heffect : Effect db call reply db') :
    HoldingKept db db' ∨ ∃ h observed now,
      call.op.commitArgs = some (h.handoffId, observed, now) ∧
      CommitStep db db' h observed now := by
  have hquiet : db'.leases = db.leases → db'.handoffs = db.handoffs → HoldingKept db db' := by
    intro hleases hhandoffs
    exact holdingKept_of_ledger (MetadataDb.ledger_eq hleases hhandoffs) (fun _ => rfl)
      fun _ _ hg _ => hg
  cases heffect with
  | quiet hleases hhandoffs _ => exact Or.inl (hquiet hleases hhandoffs)
  | stored request l _ _ _ hleases hhandoffs _ => exact Or.inl (hquiet hleases hhandoffs)
  | begun leaseId source target generation ttl l _ _ _ _ hledger _ =>
    left
    apply holdingKept_of_ledger hledger
    · intro id
      exact map_alterAt fun l => rfl
    · apply phase_of_assign
      exact HandoffState.noConfusion
  | marked h next _ hphase hledger _ =>
    left
    apply holdingKept_of_ledger hledger
    · intro id
      rfl
    · apply phase_of_assign
      rcases hphase with ⟨-, rfl⟩ | ⟨-, rfl⟩
      · exact HandoffState.noConfusion
      · exact HandoffState.noConfusion
  | aborted h _ _ _ hledger _ =>
    left
    apply holdingKept_of_ledger hledger
    · intro id
      refine map_alterAt fun l => ?_
      unfold Ledger.released
      split
      · rfl
      · rfl
    · apply phase_of_assign
      exact HandoffState.noConfusion
  | advanced request l _ _ _ hledger _ =>
    left
    apply holdingKept_of_ledger hledger
    · intro id
      exact map_alterAt fun l => rfl
    · intro handoffId g hg _
      exact hg
  | forked request l parent _ _ hledger _ =>
    left
    apply holdingKept_of_ledger hledger
    · intro id
      exact map_alterAt fun l => rfl
    · intro handoffId g hg _
      exact hg
  | committed h l observed now hop hadmitted hlease _ hepoch _ hledger _ =>
    right
    exact ⟨h, observed, now, hop, hadmitted, ⟨l, hlease, hepoch⟩, hledger⟩

/-- The lease of a committed handoff, before and after. -/
theorem CommitStep.holding {h : HandoffRecord} {observed : String} {now : UInt64}
    (hstep : CommitStep db db' h observed now) :
    (∃ holder, db.holding h.leaseId = some (holder, h.expectedEpoch)) ∧
      db'.holding h.leaseId =
        some (some h.targetDeviceId, MetadataDb.nextEpoch h.expectedEpoch) := by
  obtain ⟨l, hlease, hepoch⟩ := hstep.lease
  have hread : db'.getLease h.leaseId = alterAt db.getLease h.leaseId _ h.leaseId :=
    congrFun (congrArg Ledger.lease hstep.ledger) h.leaseId
  constructor
  · refine ⟨l.holderDeviceId, ?_⟩
    rw [MetadataDb.holding, hlease, Option.map_some, hepoch]
  · rw [MetadataDb.holding, hread, alterAt_self hlease, Option.map_some]

/-- A commit leaves the other leases and the other handoffs alone. -/
theorem CommitStep.others {h : HandoffRecord} {observed : String} {now : UInt64}
    (hstep : CommitStep db db' h observed now) :
    (∀ leaseId, leaseId ≠ h.leaseId → db'.holding leaseId = db.holding leaseId) ∧
      ∀ handoffId, handoffId ≠ h.handoffId →
        db'.getHandoff handoffId = db.getHandoff handoffId := by
  constructor
  · intro leaseId hne
    have hread : db'.getLease leaseId = alterAt db.getLease h.leaseId _ leaseId :=
      congrFun (congrArg Ledger.lease hstep.ledger) leaseId
    rw [MetadataDb.holding, MetadataDb.holding, hread, alterAt_of_ne hne]
  · intro handoffId hne
    have hread : db'.getHandoff handoffId = assign db.getHandoff h.handoffId _ handoffId :=
      congrFun (congrArg Ledger.handoff hstep.ledger) handoffId
    rw [hread, assign_of_ne hne]

theorem CommitStep.committedBy {h : HandoffRecord} {observed : String} {now : UInt64}
    (hstep : CommitStep db db' h observed now) : CommittedBy db db' h where
  stored := hstep.admitted.stored
  before := by
    rw [hstep.admitted.sourceReady]
    exact HandoffState.noConfusion
  after := by
    have hread : db'.getHandoff h.handoffId = assign db.getHandoff h.handoffId _ h.handoffId :=
      congrFun (congrArg Ledger.handoff hstep.ledger) h.handoffId
    exact ⟨_, hread.trans assign_self, rfl⟩

/-- No other handoff is committed by the same step. -/
theorem CommitStep.unique {g h : HandoffRecord} {observed : String} {now : UInt64}
    (hstep : CommitStep db db' h observed now) (hg : CommittedBy db db' g) : g = h := by
  by_cases hid : g.handoffId = h.handoffId
  · have hstored := hg.stored
    rw [hid, hstep.admitted.stored] at hstored
    exact (Option.some.inj hstored).symm
  · obtain ⟨k, hk, hcommitted⟩ := hg.after
    rw [hstep.others.2 _ hid, hg.stored] at hk
    cases hk
    exact absurd hcommitted hg.before

end

/-! ## The law -/

/-- What the epochs of the leases are for. -/
structure EpochLaw (db : MetadataDb) (calls : List LeaseCall) : Prop where
  /-- A commit moves the lease to the target, one epoch further. -/
  commit : ∀ n < calls.length, ∀ h,
    CommittedBy (leaseStoreAt db calls n) (leaseStoreAt db calls (n + 1)) h →
    ∃ holder epoch epoch',
      (leaseStoreAt db calls n).holding h.leaseId = some (holder, epoch) ∧
      (leaseStoreAt db calls (n + 1)).holding h.leaseId =
        some (some h.targetDeviceId, epoch') ∧
      epoch'.toNat = epoch.toNat + 1
  /-- Nothing else changes a holder or an epoch. -/
  others : ∀ n < calls.length, ∀ leaseId v,
    (∀ h, CommittedBy (leaseStoreAt db calls n) (leaseStoreAt db calls (n + 1)) h →
      h.leaseId ≠ leaseId) →
    (leaseStoreAt db calls n).holding leaseId = some v →
    (leaseStoreAt db calls (n + 1)).holding leaseId = some v
  nondecreasing : ∀ m n, m ≤ n → ∀ leaseId k l,
    (leaseStoreAt db calls m).getLease leaseId = some k →
    (leaseStoreAt db calls n).getLease leaseId = some l → k.epoch ≤ l.epoch
  distinct : ∀ m n, m < n → n < calls.length → ∀ g h,
    CommittedBy (leaseStoreAt db calls m) (leaseStoreAt db calls (m + 1)) g →
    CommittedBy (leaseStoreAt db calls n) (leaseStoreAt db calls (n + 1)) h →
    g.leaseId = h.leaseId → ∀ k l,
    (leaseStoreAt db calls (m + 1)).getLease g.leaseId = some k →
    (leaseStoreAt db calls (n + 1)).getLease h.leaseId = some l → k.epoch ≠ l.epoch

/-- The largest epoch that the column can hold. -/
def lastEpoch : UInt64 := 9223372036854775807

/-- The call passes the guards of a commit from the last epoch. -/
def CommitsLastEpoch (db : MetadataDb) : LeaseCall → Prop
  | .upsertLease _ _ => False
  | .call call => ∃ h observed now,
      call.op.commitArgs = some (h.handoffId, observed, now) ∧
      CommitAdmitted db h observed now ∧ h.expectedEpoch = lastEpoch

/-- The call creates no lease that exists. -/
def CreatesFresh (db : MetadataDb) : LeaseCall → Prop
  | .upsertLease _ lease => db.getLease lease.leaseId = none
  | .call _ => True

instance (db : MetadataDb) (call : LeaseCall) : Decidable (CreatesFresh db call) :=
  match call with
  | .upsertLease _ lease => inferInstanceAs (Decidable (db.getLease lease.leaseId = none))
  | .call _ => inferInstanceAs (Decidable True)

/-- A store whose handoffs were begun at smaller epochs commits none from the
last epoch. -/
theorem not_commitsLastEpoch {db : MetadataDb} {call : LeaseCall}
    (h : ∀ row ∈ db.handoffs.rows, (handoffRecordFromRow row).expectedEpoch ≠ lastEpoch) :
    ¬CommitsLastEpoch db call := by
  cases call with
  | upsertLease env lease => exact id
  | call call =>
    rintro ⟨g, observed, now, -, hadmitted, hlast⟩
    obtain ⟨row, hrow, rfl⟩ := Option.map_eq_some_iff.mp hadmitted.stored
    exact h row (Table.mem_of_lookup hrow) hlast

theorem toNat_nextEpoch {epoch : UInt64} (h : epoch.toNat + 1 < 2 ^ 63) :
    (MetadataDb.nextEpoch epoch).toNat = epoch.toNat + 1 := by
  have hsum : (saturatingAdd epoch 1).toNat = epoch.toNat + 1 := by
    rw [toNat_saturatingAdd, UInt64.toNat_one]
    omega
  rw [MetadataDb.nextEpoch, clampU64_asI64 (by omega), hsum]

/-- The expected epoch of a stored handoff has room for the next one, unless it
is the last. -/
theorem toNat_nextEpoch_of_stored {db : MetadataDb} {id : String} {h : HandoffRecord}
    (hstored : db.getHandoff id = some h) (hlast : h.expectedEpoch ≠ lastEpoch) :
    (MetadataDb.nextEpoch h.expectedEpoch).toNat = h.expectedEpoch.toNat + 1 := by
  apply toNat_nextEpoch
  have hfits : h.expectedEpoch.toNat < 2 ^ 63 := by
    rw [← MetadataDb.clampU64_expectedEpoch hstored]
    exact toNat_clampU64_lt _
  have hne : h.expectedEpoch.toNat ≠ 2 ^ 63 - 1 := by
    intro heq
    exact hlast (UInt64.toNat_inj.mp heq)
  omega

section

variable {db : MetadataDb} {call : LeaseCall}

private theorem upsert_kept {env : Env} {lease : LeaseRecord}
    (hfresh : db.getLease lease.leaseId = none) :
    HoldingKept db (upsertLease env lease db).2 := by
  rcases upsertLease_cases env lease db hfresh with heq | ⟨leases, hinsert, heq⟩
  · rw [heq]
    exact ⟨fun _ _ hv => hv, fun _ hphase => hphase⟩
  · rw [heq]
    refine ⟨fun leaseId v hv => ?_, fun _ hphase => hphase⟩
    have hother : (leaseRowOf lease).leaseId ≠ leaseId := by
      rintro rfl
      rw [MetadataDb.holding, show db.getLease (leaseRowOf lease).leaseId = none from hfresh]
        at hv
      cases hv
    unfold MetadataDb.holding MetadataDb.getLease at hv ⊢
    rw [Table.lookup_insert? hinsert, if_neg hother]
    exact hv

/-- A step of the run keeps every holder and epoch, or is a commit. -/
theorem leaseStep_cases (hfresh : CreatesFresh db call) :
    HoldingKept db (leaseStep db call) ∨ ∃ h observed now,
      CommitStep db (leaseStep db call) h observed now ∧
        (¬CommitsLastEpoch db call → h.expectedEpoch ≠ lastEpoch) := by
  cases call with
  | upsertLease env lease => exact Or.inl (upsert_kept hfresh)
  | call call =>
    rcases (perform_effect db call).holding with hkept | ⟨h, observed, now, hop, hstep⟩
    · exact Or.inl hkept
    · refine Or.inr ⟨h, observed, now, hstep, fun hroom hlast => hroom ?_⟩
      exact ⟨h, observed, now, hop, hstep.admitted, hlast⟩

/-- A step that commits from a smaller epoch adds one to it. -/
theorem committedBy_step (hfresh : CreatesFresh db call) (hroom : ¬CommitsLastEpoch db call)
    {h : HandoffRecord} (hcommitted : CommittedBy db (leaseStep db call) h) :
    ∃ holder epoch epoch', db.holding h.leaseId = some (holder, epoch) ∧
      (leaseStep db call).holding h.leaseId = some (some h.targetDeviceId, epoch') ∧
      epoch'.toNat = epoch.toNat + 1 := by
  rcases leaseStep_cases hfresh with hkept | ⟨g, observed, now, hstep, hlast⟩
  · obtain ⟨k, hk, hstate⟩ := hkept.phase _ hcommitted.after
    cases hcommitted.stored.symm.trans hk
    exact absurd hstate hcommitted.before
  · cases hstep.unique hcommitted
    obtain ⟨⟨holder, hbefore⟩, hafter⟩ := hstep.holding
    exact ⟨holder, _, _, hbefore, hafter,
      toNat_nextEpoch_of_stored hstep.admitted.stored (hlast hroom)⟩

theorem others_step (hfresh : CreatesFresh db call) {leaseId : String} {v : Option String × UInt64}
    (hothers : ∀ h, CommittedBy db (leaseStep db call) h → h.leaseId ≠ leaseId)
    (hv : db.holding leaseId = some v) : (leaseStep db call).holding leaseId = some v := by
  rcases leaseStep_cases hfresh with hkept | ⟨g, observed, now, hstep, -⟩
  · exact hkept.holding leaseId v hv
  · have hne : leaseId ≠ g.leaseId := (hothers g hstep.committedBy).symm
    rw [hstep.others.1 leaseId hne]
    exact hv

/-- The lease has at least this epoch. -/
def MetadataDb.EpochAtLeast (db : MetadataDb) (leaseId : String) (epoch : Nat) : Prop :=
  ∃ holder e, db.holding leaseId = some (holder, e) ∧ epoch ≤ e.toNat

theorem epochAtLeast_step (hfresh : CreatesFresh db call)
    (hroom : ¬CommitsLastEpoch db call) {leaseId : String} {epoch : Nat}
    (h : db.EpochAtLeast leaseId epoch) : (leaseStep db call).EpochAtLeast leaseId epoch := by
  obtain ⟨holder, e, hholding, hle⟩ := h
  by_cases hcommit : ∃ g, CommittedBy db (leaseStep db call) g ∧ g.leaseId = leaseId
  · obtain ⟨g, hcommitted, rfl⟩ := hcommit
    obtain ⟨_, e₀, e₁, hbefore, hafter, hsucc⟩ := committedBy_step hfresh hroom hcommitted
    cases hholding.symm.trans hbefore
    exact ⟨_, e₁, hafter, by omega⟩
  · refine ⟨holder, e, others_step hfresh ?_ hholding, hle⟩
    intro g hcommitted heq
    exact hcommit ⟨g, hcommitted, heq⟩

theorem epochAtLeast_getLease {leaseId : String} {l : LeaseRecord} {epoch : Nat}
    (hl : db.getLease leaseId = some l) :
    db.EpochAtLeast leaseId epoch ↔ epoch ≤ l.epoch.toNat := by
  unfold MetadataDb.EpochAtLeast MetadataDb.holding
  rw [hl]
  simp

end

/-- In a run that creates each lease once, the epoch law holds as long as no
handoff is committed from the last epoch. -/
theorem epoch_law (db : MetadataDb) (calls : List LeaseCall)
    (hfresh : ∀ n (hn : n < calls.length), CreatesFresh (leaseStoreAt db calls n) calls[n])
    (hroom : ∀ n (hn : n < calls.length), ¬CommitsLastEpoch (leaseStoreAt db calls n) calls[n]) :
    EpochLaw db calls := by
  have hgrow : ∀ m n leaseId epoch, m ≤ n →
      (leaseStoreAt db calls m).EpochAtLeast leaseId epoch →
      (leaseStoreAt db calls n).EpochAtLeast leaseId epoch := by
    intro m n leaseId epoch hmn hm
    exact stateAt_induction_from (P := fun db : MetadataDb => db.EpochAtLeast leaseId epoch)
      hm (fun i _ hi => epochAtLeast_step (hfresh i hi) (hroom i hi)) hmn
  have hcommit : ∀ n < calls.length, ∀ h,
      CommittedBy (leaseStoreAt db calls n) (leaseStoreAt db calls (n + 1)) h →
      ∃ holder epoch epoch',
        (leaseStoreAt db calls n).holding h.leaseId = some (holder, epoch) ∧
        (leaseStoreAt db calls (n + 1)).holding h.leaseId =
          some (some h.targetDeviceId, epoch') ∧ epoch'.toNat = epoch.toNat + 1 := by
    intro n hn h hcommitted
    rw [leaseStoreAt_succ hn] at hcommitted ⊢
    exact committedBy_step (hfresh n hn) (hroom n hn) hcommitted
  refine ⟨hcommit, ?_, ?_, ?_⟩
  · intro n hn leaseId v hothers hv
    rw [leaseStoreAt_succ hn] at hothers ⊢
    exact others_step (hfresh n hn) hothers hv
  · intro m n hmn leaseId k l hk hl
    have hm := (epochAtLeast_getLease hk).mpr (Nat.le_refl k.epoch.toNat)
    have hn := (epochAtLeast_getLease hl).mp (hgrow m n leaseId _ hmn hm)
    exact UInt64.le_iff_toNat_le.mpr hn
  · intro m n hmn hn g h hg hh hlease k l hk hl heq
    -- the epoch of the second commit is one more than it was before it
    obtain ⟨_, e₀, e₁, hbefore, hafter, hsucc⟩ := hcommit n hn h hh
    have hm := (epochAtLeast_getLease hk).mpr (Nat.le_refl k.epoch.toNat)
    obtain ⟨_, e, he, hle⟩ := hgrow (m + 1) n g.leaseId _ (by omega) hm
    rw [hlease, hbefore] at he
    cases he
    have hl₁ : l.epoch = e₁ := by
      rw [MetadataDb.holding, hl, Option.map_some] at hafter
      exact congrArg Prod.snd (Option.some.inj hafter)
    rw [heq, hl₁] at hle
    omega

/-- One project without leases. -/
def demoUnleased : MetadataDb := { demoStore with leases := .empty }

def epochLease (epoch : UInt64) : LeaseRecord where
  leaseId := "lease-1"
  projectId := "project-1"
  sessionId := "session-1"
  state := .active
  epoch := epoch
  holderDeviceId := some "device-a"
  latestSnapshotId := none
  handoffId := none

/-- The demo handoff of a lease created at the given epoch. -/
def demoEpochs (epoch : UInt64) : List LeaseCall :=
  .upsertLease (demoEnv 90) (epochLease epoch) :: demoHandoff.map .call

/-- The law at work, from epoch 7 on. -/
theorem epoch_law_demo :
    EpochLaw demoUnleased (demoEpochs 7) ∧
    (leaseStoreAt demoUnleased (demoEpochs 7) 6).holding "lease-1" =
      some (some "device-b", 8) := by
  constructor
  · apply epoch_law
    · decide
    · have hbelow : ∀ n < (demoEpochs 7).length,
          ∀ row ∈ (leaseStoreAt demoUnleased (demoEpochs 7) n).handoffs.rows,
            (handoffRecordFromRow row).expectedEpoch ≠ lastEpoch := by decide
      intro n hn
      exact not_commitsLastEpoch (hbelow n hn)
  · decide

/-- A handoff from the last epoch is committed, and the epoch reads as zero. -/
theorem epoch_falls_back : ¬EpochLaw demoUnleased (demoEpochs lastEpoch) := by
  intro hlaw
  have hle := hlaw.nondecreasing 1 6 (by decide) "lease-1" (epochLease lastEpoch)
    { epochLease 0 with holderDeviceId := some "device-b" } (by decide) (by decide)
  exact absurd hle (by decide)

end DevRelay.Storage
