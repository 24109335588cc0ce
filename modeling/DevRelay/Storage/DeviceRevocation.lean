import DevRelay.Storage.HandoffInvariant

/-!
# A revoked device stays out

`device_revocations` is read by the begin of a handoff, by its commit and by both
publishes, and no operation deletes from it.  After the revocation of a device
nothing reaches it any more: `Stranded` compares a later store with the one of
that moment.
-/

namespace DevRelay.Storage

open DevRelay.Lib DevRelay.Core

/-- The devices on whose behalf a call opens a handoff or publishes. -/
def Op.actingDevices : Op → List String
  | beginHandoff _ sourceDeviceId targetDeviceId _ _ => [sourceDeviceId, targetDeviceId]
  | publishSnapshotCanonical request => [request.holderDeviceId]
  | publishInactiveSnapshotAsFork request => [request.holderDeviceId]
  | _ => []

/-- A lease of the device was its lease before, at the same epoch and with the same
latest snapshot. -/
def LeasesKept (deviceId : String) (before after : String → Option LeaseRecord) : Prop :=
  ∀ leaseId l', after leaseId = some l' → l'.holderDeviceId = some deviceId →
    ∃ l, before leaseId = some l ∧ l.holderDeviceId = some deviceId ∧
      l.epoch = l'.epoch ∧ l.latestSnapshotId = l'.latestSnapshotId

/-- A handoff from or to the device was there before but for its progress, and the
device did not receive a lease by it since. -/
def HandoffsKept (deviceId : String) (before after : String → Option HandoffRecord) : Prop :=
  ∀ handoffId h', after handoffId = some h' →
    (h'.sourceDeviceId = deviceId ∨ h'.targetDeviceId = deviceId) →
    ∃ state, before handoffId = some { h' with state } ∧
      (h'.targetDeviceId = deviceId → h'.state = .committed → state = .committed)

variable {deviceId : String}

section

variable {m m' m'' : String → Option LeaseRecord}

theorem LeasesKept.refl : LeasesKept deviceId m m :=
  fun _ l' hl' hholder => ⟨l', hl', hholder, rfl, rfl⟩

theorem LeasesKept.trans (hfirst : LeasesKept deviceId m m')
    (hnext : LeasesKept deviceId m' m'') : LeasesKept deviceId m m'' := by
  intro leaseId l'' hl'' hholder
  obtain ⟨l', hl', hholder', hepoch', hlatest'⟩ := hnext leaseId l'' hl'' hholder
  obtain ⟨l, hl, hheld, hepoch, hlatest⟩ := hfirst leaseId l' hl' hholder'
  exact ⟨l, hl, hheld, hepoch.trans hepoch', hlatest.trans hlatest'⟩

/-- A rewritten lease is no gain when the rewriting gives the device nothing. -/
theorem LeasesKept.alterAt {id : String} {g : LeaseRecord → LeaseRecord}
    (hg : ∀ l, m id = some l → (g l).holderDeviceId = some deviceId →
      l.holderDeviceId = some deviceId ∧ l.epoch = (g l).epoch ∧
        l.latestSnapshotId = (g l).latestSnapshotId) :
    LeasesKept deviceId m (alterAt m id g) := by
  intro leaseId l' hl' hholder
  rcases alterAt_eq_some.mp hl' with ⟨rfl, l, hl, rfl⟩ | ⟨-, hl⟩
  · exact ⟨l, hl, hg l hl hholder⟩
  · exact ⟨l', hl, hholder, rfl, rfl⟩

end

section

variable {m m' m'' : String → Option HandoffRecord}

theorem HandoffsKept.refl : HandoffsKept deviceId m m :=
  fun _ h' hh' _ => ⟨h'.state, hh', fun _ hstate => hstate⟩

theorem HandoffsKept.trans (hfirst : HandoffsKept deviceId m m')
    (hnext : HandoffsKept deviceId m' m'') : HandoffsKept deviceId m m'' := by
  intro handoffId h'' hh'' hnames
  obtain ⟨state', hh', hcommitted'⟩ := hnext handoffId h'' hh'' hnames
  obtain ⟨state, hh, hcommitted⟩ := hfirst handoffId _ hh' hnames
  exact ⟨state, hh, fun htarget hstate => hcommitted htarget (hcommitted' htarget hstate)⟩

/-- A handoff that moves on was there before. -/
theorem HandoffsKept.assign {h : HandoffRecord} {next : HandoffState}
    (hstored : m h.handoffId = some h) (hnext : h.targetDeviceId = deviceId → next ≠ .committed) :
    HandoffsKept deviceId m (assign m h.handoffId { h with state := next }) := by
  intro handoffId h' hh' hnames
  rcases assign_eq_some.mp hh' with ⟨rfl, rfl⟩ | ⟨hne, hh⟩
  · exact ⟨h.state, hstored, fun htarget hstate => absurd hstate (hnext htarget)⟩
  · exact HandoffsKept.refl handoffId h' hh hnames

/-- A new handoff of other devices. -/
theorem HandoffsKept.assign_other {h : HandoffRecord} {handoffId : String}
    (hsource : h.sourceDeviceId ≠ deviceId) (htarget : h.targetDeviceId ≠ deviceId) :
    HandoffsKept deviceId m (Lib.assign m handoffId h) := by
  intro id h' hh' hnames
  rcases assign_eq_some.mp hh' with ⟨-, rfl⟩ | ⟨-, hh⟩
  · rcases hnames with hname | hname
    · exact absurd hname hsource
    · exact absurd hname htarget
  · exact HandoffsKept.refl id h' hh hnames

end

/-- What a revoked device has in the later store it had in the earlier one. -/
structure Stranded (deviceId : String) (db db' : MetadataDb) : Prop where
  revoked : (db'.getDeviceRevocation deviceId).isSome
  leases : LeasesKept deviceId db.getLease db'.getLease
  handoffs : HandoffsKept deviceId db.getHandoff db'.getHandoff

namespace Stranded

variable {db db' db'' : MetadataDb}

theorem refl (hrevoked : (db.getDeviceRevocation deviceId).isSome) : Stranded deviceId db db where
  revoked := hrevoked
  leases := .refl
  handoffs := .refl

theorem trans (hfirst : Stranded deviceId db db') (hnext : Stranded deviceId db' db'') :
    Stranded deviceId db db'' where
  revoked := hnext.revoked
  leases := hfirst.leases.trans hnext.leases
  handoffs := hfirst.handoffs.trans hnext.handoffs

theorem of_ledger {s : Ledger} (hrevoked : (db'.getDeviceRevocation deviceId).isSome)
    (hledger : db'.ledger = s) (hleases : LeasesKept deviceId db.getLease s.lease)
    (hhandoffs : HandoffsKept deviceId db.getHandoff s.handoff) :
    Stranded deviceId db db' := by
  subst hledger
  exact ⟨hrevoked, hleases, hhandoffs⟩

end Stranded

/-! ## One call -/

section

variable {db : MetadataDb} {call : Call}

private theorem upsertRevocation_isSome {row : DeviceRevocationRow}
    (hrevoked : (db.getDeviceRevocation deviceId).isSome) :
    ((upsertRevocation row db).getDeviceRevocation deviceId).isSome := by
  rw [MetadataDb.getDeviceRevocation, Option.isSome_map] at hrevoked ⊢
  unfold upsertRevocation
  split
  · rename_i deviceRevocations hinsert
    show (deviceRevocations.lookup deviceId).isSome
    rw [Table.lookup_insert? hinsert]
    split
    · rfl
    · exact hrevoked
  · simp only [Table.lookup_updateWhere, Option.isSome_map]
    exact hrevoked

private theorem abortHandoffAt_revocations (env : Env) (handoffId : String) (now : UInt64)
    (reason : String) (db : MetadataDb) :
    (abortHandoffAt env handoffId now reason db).2.deviceRevocations = db.deviceRevocations := by
  rcases abortHandoffAt_cases env handoffId now reason db with
    ⟨e, heq⟩ | ⟨h, -, -, heq⟩ | ⟨h, detail, -, -, heq⟩
  · rw [heq]
  · rw [heq]
  · rw [heq]
    rfl

private theorem updateHandoffState_revocations (env : Env) (handoffId : String)
    (expected next : HandoffState) (phase : HandoffJournalPhase) (db : MetadataDb) :
    (updateHandoffState env handoffId expected next phase db).2.deviceRevocations =
      db.deviceRevocations := by
  rcases updateHandoffState_cases env handoffId expected next phase db with
    ⟨e, heq⟩ | ⟨h, -, -, -, heq⟩
  · rw [heq]
  · rw [heq]
    rfl

private theorem commitHandoffInner_revocations (env : Env)
    (reread : Option DevRelayError) (handoffId observed : String) (now : UInt64)
    (preflight : Option HandoffCommitSnapshotPreflight) (db : MetadataDb) :
    (commitHandoffInner env reread handoffId observed now preflight db).2.deviceRevocations =
      db.deviceRevocations := by
  rcases commitHandoffInner_cases env reread handoffId observed now preflight db with
    ⟨e, heq⟩ | ⟨h, reason, -, -, -, heq⟩ | ⟨h, audit, db', -, -, hdb, heq⟩
  · rw [heq]
  · rw [heq]
    rfl
  · rw [heq, hdb]
    rfl

/-- The one call that writes a revocation is the revocation. -/
theorem step_deviceRevocations (db : MetadataDb) (call : Call) :
    (step db call).deviceRevocations = db.deviceRevocations ∨
      ∃ row, (step db call).deviceRevocations = (upsertRevocation row db).deviceRevocations := by
  obtain ⟨env, op, reread⟩ := call
  cases op with
  | beginHandoff leaseId source target generation ttl =>
    left
    show (beginHandoff env leaseId source target generation ttl db).2.deviceRevocations = _
    rcases beginHandoff_cases env leaseId source target generation ttl db with
      ⟨e, heq⟩ | ⟨l, handoffs, -, -, -, -, -, -, -, heq⟩
    · rw [heq]
    · rw [heq]
      rfl
  | recordHandoffTargetApply handoffId detailJson =>
    left
    show (recordHandoffTargetApply env handoffId detailJson db).2.deviceRevocations = _
    rcases recordHandoffTargetApply_cases env handoffId detailJson db with
      ⟨e, heq⟩ | ⟨h, detail, record, -, -, -, heq⟩
    · rw [heq]
    · rw [heq]
      rfl
  | markHandoffTargetVerified handoffId =>
    exact Or.inl (updateHandoffState_revocations ..)
  | markHandoffSourceReady handoffId =>
    exact Or.inl (updateHandoffState_revocations ..)
  | commitHandoff handoffId observed now =>
    exact Or.inl (commitHandoffInner_revocations ..)
  | commitHandoffWithSnapshotPreflight handoffId observed now preflight =>
    exact Or.inl (commitHandoffInner_revocations ..)
  | recoverHandoff handoffId observed now =>
    left
    show (recoverHandoff env reread handoffId observed now db).2.deviceRevocations = _
    rcases recoverHandoff_cases env reread handoffId observed now db with
      ⟨reply, heq⟩ | ⟨h, detail, -, -, -, heq⟩ | ⟨reply, db', -, hcommit, heq⟩
    · rw [heq]
    · rw [heq]
      rfl
    · rw [heq]
      have hinner := commitHandoffInner_revocations env reread handoffId observed now none db
      exact (congrArg (fun r => r.2.deviceRevocations) hcommit).symm.trans hinner
  | abortHandoff handoffId => exact Or.inl (abortHandoffAt_revocations ..)
  | abortHandoffWithReason handoffId reason => exact Or.inl (abortHandoffAt_revocations ..)
  | publishSnapshotCanonical request =>
    left
    show (publishSnapshotCanonical env request db).2.deviceRevocations = _
    rcases publishSnapshotCanonical_cases env request db with
      ⟨e, heq⟩ | ⟨l, snapshots, audit, -, -, ⟨e, -, heq⟩ | ⟨result, -, heq⟩⟩
    · rw [heq]
    · rw [heq]
    · rw [heq]
      rfl
  | publishInactiveSnapshotAsFork request =>
    left
    show (publishInactiveSnapshotAsFork env request db).2.deviceRevocations = _
    rcases publishInactiveSnapshotAsFork_cases env request db with
      ⟨e, heq⟩ | ⟨l, parent, sessions, snapshots, audit, result, -, -, -, heq⟩
    · rw [heq]
    · rw [heq]
      rfl
  | revokeDevice deviceId revokedBy reason keyRotationRequired =>
    show (revokeDevice env deviceId revokedBy reason keyRotationRequired
      db).2.deviceRevocations = _ ∨ _
    rcases revokeDevice_upserts env deviceId revokedBy reason keyRotationRequired db with
      ⟨e, heq⟩ | ⟨record, row, auditEvents, -, heq⟩
    · left
      rw [heq]
    · right
      exact ⟨row, congrArg (fun r => r.2.deviceRevocations) heq⟩

/-- No call deletes a revocation. -/
theorem step_revoked (hrevoked : (db.getDeviceRevocation deviceId).isSome) :
    ((step db call).getDeviceRevocation deviceId).isSome := by
  rcases step_deviceRevocations db call with heq | ⟨row, heq⟩
  · rw [MetadataDb.getDeviceRevocation, heq]
    exact hrevoked
  · rw [MetadataDb.getDeviceRevocation, heq]
    exact upsertRevocation_isSome hrevoked

/-- A call for a revoked device is refused and writes nothing. -/
theorem perform_revoked (hrevoked : (db.getDeviceRevocation deviceId).isSome)
    (hacting : deviceId ∈ call.op.actingDevices) :
    ∃ e, perform db call = (.error e, db) := by
  have hpresent : db.getDeviceRevocation deviceId ≠ none :=
    Option.isSome_iff_ne_none.mp hrevoked
  obtain ⟨env, op, reread⟩ := call
  cases op with
  | beginHandoff leaseId source target generation ttl =>
    rcases beginHandoff_cases env leaseId source target generation ttl db with
      ⟨e, heq⟩ | ⟨l, handoffs, -, -, -, hsource, htarget, -, -, -⟩
    · exact ⟨e, congrArg outcome heq⟩
    · have hdevice : deviceId = source ∨ deviceId = target := by
        simpa [Op.actingDevices] using hacting
      rcases hdevice with rfl | rfl
      · exact absurd hsource hpresent
      · exact absurd htarget hpresent
  | publishSnapshotCanonical request =>
    have hdevice : deviceId = request.holderDeviceId := by
      simpa [Op.actingDevices] using hacting
    subst hdevice
    rcases publishSnapshotCanonical_cases env request db with
      ⟨e, heq⟩ | ⟨l, snapshots, audit, hadmitted, -⟩
    · exact ⟨e, congrArg outcome heq⟩
    · exact absurd hadmitted.notRevoked hpresent
  | publishInactiveSnapshotAsFork request =>
    have hdevice : deviceId = request.holderDeviceId := by
      simpa [Op.actingDevices] using hacting
    subst hdevice
    rcases publishInactiveSnapshotAsFork_cases env request db with
      ⟨e, heq⟩ | ⟨l, parent, sessions, snapshots, audit, result, hadmitted, -⟩
    · exact ⟨e, congrArg outcome heq⟩
    · exact absurd hadmitted.notRevoked hpresent
  | _ => simp [Op.actingDevices] at hacting

/-- The device gains nothing by a call that is not made for it. -/
private theorem stranded_of_effect (hrevoked : (db.getDeviceRevocation deviceId).isSome)
    (hacting : deviceId ∉ call.op.actingDevices) {reply : Except DevRelayError Unit}
    {db' : MetadataDb} (hafter : (db'.getDeviceRevocation deviceId).isSome)
    (heffect : Effect db call reply db') : Stranded deviceId db db' := by
  have hpresent : db.getDeviceRevocation deviceId ≠ none :=
    Option.isSome_iff_ne_none.mp hrevoked
  cases heffect with
  | quiet hleases hhandoffs _ =>
    exact .of_ledger hafter (MetadataDb.ledger_eq hleases hhandoffs) .refl .refl
  | stored request l _ _ _ hleases hhandoffs _ =>
    exact .of_ledger hafter (MetadataDb.ledger_eq hleases hhandoffs) .refl .refl
  | begun leaseId source target generation ttl l hop _ _ _ hledger _ =>
    have hdevices : deviceId ≠ source ∧ deviceId ≠ target := by
      simpa [hop, Op.actingDevices] using hacting
    exact .of_ledger hafter hledger (.alterAt fun _ _ hheld => ⟨hheld, rfl, rfl⟩)
      (.assign_other (Ne.symm hdevices.1) (Ne.symm hdevices.2))
  | marked h next hstored hphase hledger _ =>
    have hopen : next ≠ .committed := by
      rcases hphase with ⟨-, rfl⟩ | ⟨-, rfl⟩
      · exact HandoffState.noConfusion
      · exact HandoffState.noConfusion
    exact .of_ledger hafter hledger .refl (.assign hstored fun _ => hopen)
  | aborted h hstored _ _ hledger _ =>
    refine .of_ledger hafter hledger (.alterAt fun l _ hheld => ?_)
      (.assign hstored fun _ => HandoffState.noConfusion)
    unfold Ledger.released at hheld ⊢
    split
    · rename_i hname
      rw [if_pos hname] at hheld
      exact ⟨hheld, rfl, rfl⟩
    · rename_i hname
      rw [if_neg hname] at hheld
      exact ⟨hheld, rfl, rfl⟩
  | committed h l observed now _ hadmitted _ _ _ _ hledger _ =>
    have htarget : h.targetDeviceId ≠ deviceId := by
      intro heq
      exact hpresent (heq ▸ hadmitted.notRevoked)
    refine .of_ledger hafter hledger (.alterAt fun _ _ hheld => ?_)
      (.assign hadmitted.stored fun heq => absurd heq htarget)
    exact absurd (Option.some.inj hheld) htarget
  | advanced request l _ hadmitted _ hledger _ =>
    -- only the holder advances a lease, and this holder is not revoked
    refine .of_ledger hafter hledger (.alterAt fun k hk hheld => ?_) .refl
    have hlease : l = k := Option.some.inj (hadmitted.stored.symm.trans hk)
    subst hlease
    have hdevice : request.holderDeviceId = deviceId :=
      Option.some.inj (hadmitted.holder.symm.trans hheld)
    exact absurd (hdevice ▸ hadmitted.notRevoked) hpresent
  | forked request l parent _ _ hledger _ =>
    exact .of_ledger hafter hledger (.alterAt fun _ _ hheld => ⟨hheld, rfl, rfl⟩) .refl

theorem step_stranded (hrevoked : (db.getDeviceRevocation deviceId).isSome) :
    Stranded deviceId db (step db call) := by
  by_cases hacting : deviceId ∈ call.op.actingDevices
  · obtain ⟨e, heq⟩ := perform_revoked hrevoked hacting
    have hsame : step db call = db := congrArg Prod.snd heq
    rw [hsame]
    exact .refl hrevoked
  · exact stranded_of_effect hrevoked hacting (step_revoked hrevoked)
      (perform_effect db call)

end

/-! ## Every run -/

theorem stranded_of_revoked {db : MetadataDb} {calls : List Call} {m n : Nat} (hmn : m ≤ n)
    (hrevoked : ((storeAt db calls m).getDeviceRevocation deviceId).isSome) :
    Stranded deviceId (storeAt db calls m) (storeAt db calls n) :=
  stateAt_induction_from (P := fun later => Stranded deviceId (storeAt db calls m) later)
    (Stranded.refl hrevoked)
    (fun _ _ _ h => h.trans (step_stranded h.revoked)) hmn

/-- In every run, from the moment a device is revoked: it stays revoked; a begin
that names it and a publish for it fail and write nothing; it holds no lease that
it did not hold then, and those it holds keep epoch and latest snapshot; no handoff
comes to name it, and none to it is committed that was not. -/
theorem revocation_is_final (db : MetadataDb) (calls : List Call) (deviceId : String)
    (m n : Nat) (hmn : m ≤ n)
    (hrevoked : ((storeAt db calls m).getDeviceRevocation deviceId).isSome) :
    ((storeAt db calls n).getDeviceRevocation deviceId).isSome ∧
    (∀ hn : n < calls.length, deviceId ∈ calls[n].op.actingDevices →
      (∃ e, (perform (storeAt db calls n) calls[n]).1 = .error e) ∧
        storeAt db calls (n + 1) = storeAt db calls n) ∧
    (∀ leaseId l', (storeAt db calls n).getLease leaseId = some l' →
      l'.holderDeviceId = some deviceId →
      ∃ l, (storeAt db calls m).getLease leaseId = some l ∧
        l.holderDeviceId = some deviceId ∧ l.epoch = l'.epoch ∧
        l.latestSnapshotId = l'.latestSnapshotId) ∧
    (∀ handoffId h', (storeAt db calls n).getHandoff handoffId = some h' →
      (h'.sourceDeviceId = deviceId ∨ h'.targetDeviceId = deviceId) →
      ∃ state, (storeAt db calls m).getHandoff handoffId = some { h' with state } ∧
        (h'.targetDeviceId = deviceId → h'.state = .committed → state = .committed)) := by
  have hstranded := stranded_of_revoked hmn hrevoked
  refine ⟨hstranded.revoked, fun hn hacting => ?_, hstranded.leases, hstranded.handoffs⟩
  obtain ⟨e, heq⟩ := perform_revoked hstranded.revoked hacting
  refine ⟨⟨e, congrArg Prod.fst heq⟩, ?_⟩
  rw [storeAt_succ hn]
  exact congrArg Prod.snd heq

/-- The second device is revoked while a handoff to it waits for its commit. -/
def demoRevocation : List Call :=
  demoHandoff.take 4 ++ [
    ⟨demoEnv 135, .revokeDevice "device-b" "device-a" "lost laptop" true, none⟩,
    ⟨demoEnv 140, .commitHandoff "ho_1" "gen-1" 140, none⟩,
    ⟨demoEnv 150, .beginHandoff "lease-1" "device-a" "device-b" "gen-2" 60, none⟩]

theorem revocation_is_final_demo :
    ((storeAt demoStore demoRevocation 5).getDeviceRevocation "device-b").isSome ∧
    storeAt demoStore demoRevocation 7 = storeAt demoStore demoRevocation 6 :=
  have hrevoked :
      ((storeAt demoStore demoRevocation 5).getDeviceRevocation "device-b").isSome := by
    decide
  ⟨hrevoked, ((revocation_is_final demoStore demoRevocation "device-b" 5 6 (by decide)
    hrevoked).2.1 (by decide) (by decide)).2⟩

end DevRelay.Storage
