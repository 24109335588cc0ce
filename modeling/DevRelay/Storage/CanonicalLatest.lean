import DevRelay.Storage.HandoffInvariant

/-!
# The canonical latest snapshot

The latest snapshot of a lease moves by compare and swap: only a canonical
publish moves it, from the snapshot its publisher expected to the one it
stored.  `advances` collects these moves along a run; they form a chain.
-/

namespace DevRelay.Storage

open DevRelay.Lib DevRelay.Core

/-! ## What a call does to the latest snapshot -/

/-- The canonical latest snapshot of a lease. -/
def MetadataDb.latestOf (db : MetadataDb) (leaseId : String) : Option String :=
  (db.getLease leaseId).bind LeaseRecord.latestSnapshotId

/-- Project, session and canonical latest snapshot of a lease. -/
def LeaseRecord.position (l : LeaseRecord) : String × String × Option String :=
  (l.projectId, l.sessionId, l.latestSnapshotId)

/-- The canonical latest of every lease is a stored snapshot of its project and
session. -/
def MetadataDb.LatestStored (db : MetadataDb) : Prop :=
  ∀ leaseId l s, db.getLease leaseId = some l → l.latestSnapshotId = some s →
    ∃ row, db.snapshots.lookup s = some row ∧ row.projectId = l.projectId ∧
      row.sessionId = some l.sessionId

theorem latestOf_eq {db : MetadataDb} {leaseId : String} :
    db.latestOf leaseId = ((db.getLease leaseId).map LeaseRecord.position).bind fun p => p.2.2 := by
  unfold MetadataDb.latestOf
  cases db.getLease leaseId with
  | none => rfl
  | some l => rfl

/-- A publish that moved the latest snapshot, with what it had expected. -/
structure Advanced (db db' : MetadataDb) (request : CanonicalPublishRequest)
    (l : LeaseRecord) : Prop where
  admitted : PublishAdmitted db request l
  epoch : l.epoch = request.expectedEpoch
  latest : l.latestSnapshotId = request.expectedLatestSnapshotId
  lease : db'.getLease = alterAt db.getLease request.leaseId fun l =>
    { l with latestSnapshotId := some request.metadata.snapshotId }
  inserted : db.snapshots.insert? (publishedRow db request) = some db'.snapshots

/-- No snapshot row is lost or changed. -/
def SnapshotsKept (db db' : MetadataDb) : Prop :=
  ∀ s row, db.snapshots.lookup s = some row → db'.snapshots.lookup s = some row

theorem snapshotsKept_of_insert {db db' : MetadataDb} {row : SnapshotRow}
    (h : db.snapshots.insert? row = some db'.snapshots) : SnapshotsKept db db' := by
  intro s r hr
  rw [Table.lookup_insert? h]
  split
  · rename_i hkey
    have hnone := (Table.insert?_eq_some.mp h).1
    rw [hkey, hr] at hnone
    cases hnone
  · exact hr

/-- Every effect keeps the snapshots; all but one keep the position of every
lease, and the one is a publish that met its expectation. -/
theorem Effect.position {db db' : MetadataDb} {call : Call}
    {reply : Except DevRelayError Unit} (heffect : Effect db call reply db') :
    SnapshotsKept db db' ∧
      ((∀ leaseId, (db'.getLease leaseId).map LeaseRecord.position =
          (db.getLease leaseId).map LeaseRecord.position) ∨
        ∃ request l, call.op = .publishSnapshotCanonical request ∧ reply = .ok () ∧
          Advanced db db' request l) := by
  have hsame : db'.snapshots = db.snapshots → SnapshotsKept db db' := by
    intro h s row hrow
    rw [h]
    exact hrow
  have hlease : ∀ {s : Ledger}, db'.ledger = s → db'.getLease = s.lease :=
    fun h => congrArg Ledger.lease h
  cases heffect with
  | quiet hleases _ hsnapshots =>
    refine ⟨hsame hsnapshots, Or.inl fun leaseId => ?_⟩
    rw [MetadataDb.getLease, hleases, MetadataDb.getLease]
  | begun leaseId source target generation ttl l _ _ _ _ hledger hsnapshots =>
    refine ⟨hsame hsnapshots, Or.inl fun leaseId => ?_⟩
    rw [hlease hledger]
    exact map_alterAt fun l => rfl
  | marked h next _ _ hledger hsnapshots =>
    refine ⟨hsame hsnapshots, Or.inl fun leaseId => ?_⟩
    rw [hlease hledger]
    rfl
  | aborted h _ _ _ hledger hsnapshots =>
    refine ⟨hsame hsnapshots, Or.inl fun leaseId => ?_⟩
    rw [hlease hledger]
    refine map_alterAt fun l => ?_
    unfold Ledger.released
    split
    · rfl
    · rfl
  | committed h l observed now _ _ _ _ _ _ hledger hsnapshots =>
    refine ⟨hsame hsnapshots, Or.inl fun leaseId => ?_⟩
    rw [hlease hledger]
    exact map_alterAt fun l => rfl
  | stored request l _ _ _ hleases _ hinsert =>
    refine ⟨snapshotsKept_of_insert hinsert, Or.inl fun leaseId => ?_⟩
    rw [MetadataDb.getLease, hleases, MetadataDb.getLease]
  | advanced request l hop hadmitted hfresh hledger hinsert =>
    obtain ⟨hepoch, hlatest⟩ := publishStaleError_eq_none.mp hfresh
    exact ⟨snapshotsKept_of_insert hinsert, Or.inr ⟨request, l, hop, rfl,
      ⟨hadmitted, hepoch, hlatest, hlease hledger, hinsert⟩⟩⟩
  | forked request l parent _ _ hledger hinsert =>
    refine ⟨snapshotsKept_of_insert hinsert, Or.inl fun leaseId => ?_⟩
    rw [hlease hledger]
    exact map_alterAt fun l => rfl

theorem step_position (db : MetadataDb) (call : Call) :
    SnapshotsKept db (step db call) ∧
      ((∀ leaseId, ((step db call).getLease leaseId).map LeaseRecord.position =
          (db.getLease leaseId).map LeaseRecord.position) ∨
        ∃ request l, call.op = .publishSnapshotCanonical request ∧
          (perform db call).1 = .ok () ∧ Advanced db (step db call) request l) :=
  (perform_effect db call).position

namespace Advanced

variable {db db' : MetadataDb} {request : CanonicalPublishRequest} {l : LeaseRecord}

theorem latestOf_before (h : Advanced db db' request l) :
    db.latestOf request.leaseId = request.expectedLatestSnapshotId := by
  rw [MetadataDb.latestOf, h.admitted.stored, Option.bind_some, h.latest]

theorem latestOf_after (h : Advanced db db' request l) :
    db'.latestOf request.leaseId = some request.metadata.snapshotId := by
  rw [MetadataDb.latestOf, h.lease, alterAt_self h.admitted.stored, Option.bind_some]

theorem latestOf_other (h : Advanced db db' request l) {leaseId : String}
    (hne : leaseId ≠ request.leaseId) : db'.latestOf leaseId = db.latestOf leaseId := by
  rw [MetadataDb.latestOf, h.lease, alterAt_of_ne hne, MetadataDb.latestOf]

/-- The published snapshot was not stored before. -/
theorem notStored (h : Advanced db db' request l) :
    db.snapshots.lookup request.metadata.snapshotId = none :=
  (Table.insert?_eq_some.mp h.inserted).1

theorem stored (h : Advanced db db' request l) :
    db'.snapshots.lookup request.metadata.snapshotId = some (publishedRow db request) := by
  rw [Table.lookup_insert? h.inserted]
  exact if_pos rfl

theorem latestStored (h : Advanced db db' request l) (hdb : db.LatestStored)
    (hkept : SnapshotsKept db db') : db'.LatestStored := by
  intro leaseId k s hk hs
  rw [h.lease] at hk
  rcases alterAt_eq_some.mp hk with ⟨rfl, w, hw, rfl⟩ | ⟨-, hk⟩
  · cases hs
    cases h.admitted.stored.symm.trans hw
    exact ⟨_, h.stored, h.admitted.project.symm, congrArg some h.admitted.session.symm⟩
  · obtain ⟨row, hrow, hfields⟩ := hdb leaseId k s hk hs
    exact ⟨row, hkept s row hrow, hfields⟩

end Advanced

theorem latestStored_of_position {db db' : MetadataDb}
    (hposition : ∀ leaseId, (db'.getLease leaseId).map LeaseRecord.position =
      (db.getLease leaseId).map LeaseRecord.position)
    (hkept : SnapshotsKept db db') (hdb : db.LatestStored) : db'.LatestStored := by
  intro leaseId l s hl hs
  have hl' := hposition leaseId
  rw [hl, Option.map_some, eq_comm, Option.map_eq_some_iff] at hl'
  obtain ⟨k, hk, hpos⟩ := hl'
  obtain ⟨hproject, hsession, hlatest⟩ : k.projectId = l.projectId ∧
      k.sessionId = l.sessionId ∧ k.latestSnapshotId = l.latestSnapshotId := by
    simpa [LeaseRecord.position] using hpos
  obtain ⟨row, hrow, hrowProject, hrowSession⟩ := hdb leaseId k s hk (hlatest.trans hs)
  exact ⟨row, hkept s row hrow, hrowProject.trans hproject,
    hrowSession.trans (congrArg some hsession)⟩

theorem step_latestStored (db : MetadataDb) (call : Call) (h : db.LatestStored) :
    (step db call).LatestStored := by
  obtain ⟨hkept, hposition | ⟨request, l, -, -, hadvanced⟩⟩ := step_position db call
  · exact latestStored_of_position hposition hkept h
  · exact hadvanced.latestStored h hkept

/-- A call after which the latest snapshot of a lease is another one is a publish
that expected the epoch and the latest snapshot of the moment. -/
theorem step_latestOf {db : MetadataDb} {call : Call} {leaseId : String}
    (h : (step db call).latestOf leaseId ≠ db.latestOf leaseId) :
    ∃ request l, call.op = .publishSnapshotCanonical request ∧
      request.leaseId = leaseId ∧ (perform db call).1 = .ok () ∧
      Advanced db (step db call) request l := by
  obtain ⟨-, hposition | ⟨request, l, hop, hok, hadvanced⟩⟩ := step_position db call
  · refine absurd ?_ h
    rw [latestOf_eq, hposition leaseId, ← latestOf_eq]
  · by_cases hne : leaseId = request.leaseId
    · exact ⟨request, l, hop, hne.symm, hok, hadvanced⟩
    · exact absurd (hadvanced.latestOf_other hne) h

/-! ## The chain of a run -/

/-- Expected and new latest snapshot of a call that became canonical for the
lease. -/
def advanceOf (leaseId : String) (db : MetadataDb) (call : Call) :
    Option (Option String × String) :=
  match call.op with
  | .publishSnapshotCanonical request =>
    if request.leaseId = leaseId ∧ (perform db call).1.isOk then
      some (request.expectedLatestSnapshotId, request.metadata.snapshotId)
    else
      none
  | _ => none

/-- The moves of the latest snapshot of a lease along a run. -/
def advances (leaseId : String) : MetadataDb → List Call → List (Option String × String)
  | _, [] => []
  | db, call :: calls =>
    (advanceOf leaseId db call).toList ++ advances leaseId (step db call) calls

/-- Each move starts where the previous one ended. -/
def ChainFrom : Option String → List (Option String × String) → Prop
  | _, [] => True
  | latest, (expected, new) :: rest => expected = latest ∧ ChainFrom (some new) rest

theorem perform_publish_ok {db : MetadataDb} {call : Call}
    {request : CanonicalPublishRequest} (hop : call.op = .publishSnapshotCanonical request)
    (hok : (perform db call).1.isOk) : ∃ l, Advanced db (step db call) request l := by
  obtain ⟨env, op, reread⟩ := call
  cases hop
  have hperform : perform db ⟨env, .publishSnapshotCanonical request, reread⟩ =
      outcome (publishSnapshotCanonical env request db) := rfl
  unfold step
  rw [hperform] at hok ⊢
  rcases publishSnapshotCanonical_cases env request db with
    ⟨e, heq⟩ | ⟨l, snapshots, audit, hadmitted, hinsert, ⟨e, -, heq⟩ |
      ⟨result, hfresh, heq⟩⟩
  · rw [heq] at hok
    cases hok
  · rw [heq] at hok
    cases hok
  · rw [heq]
    obtain ⟨hepoch, hlatest⟩ := publishStaleError_eq_none.mp hfresh
    exact ⟨l, hadmitted, hepoch, hlatest,
      congrArg Ledger.lease (MetadataDb.ledger_advanceLatest _ _ _), hinsert⟩

theorem advanceOf_eq_some {db : MetadataDb} {call : Call} {leaseId new : String}
    {expected : Option String} (h : advanceOf leaseId db call = some (expected, new)) :
    ∃ request l, Advanced db (step db call) request l ∧ request.leaseId = leaseId ∧
      request.expectedLatestSnapshotId = expected ∧ request.metadata.snapshotId = new := by
  unfold advanceOf at h
  split at h
  · rename_i request hop
    split at h
    · rename_i hcond
      obtain ⟨l, hadvanced⟩ := perform_publish_ok hop hcond.2
      cases h
      exact ⟨request, l, hadvanced, hcond.1, rfl, rfl⟩
    · cases h
  · cases h

theorem latestOf_of_advanceOf_none {db : MetadataDb} {call : Call} {leaseId : String}
    (h : advanceOf leaseId db call = none) :
    (step db call).latestOf leaseId = db.latestOf leaseId := by
  by_contra hne
  obtain ⟨request, l, hop, hlease, hok, -⟩ := step_latestOf hne
  rw [advanceOf, hop] at h
  simp only [hlease, hok, Except.isOk, Except.toBool, and_self, if_true] at h
  cases h

/-- The moves of a run form a chain from the latest snapshot at its start. -/
theorem advances_chain (leaseId : String) (db : MetadataDb) (calls : List Call) :
    ChainFrom (db.latestOf leaseId) (advances leaseId db calls) := by
  induction calls generalizing db with
  | nil => trivial
  | cons call calls ih =>
    unfold advances
    cases hadvance : advanceOf leaseId db call with
    | none =>
      rw [← latestOf_of_advanceOf_none hadvance]
      exact ih _
    | some move =>
      obtain ⟨request, l, hadvanced, rfl, hexpected, hnew⟩ := advanceOf_eq_some hadvance
      refine ⟨hexpected.symm.trans hadvanced.latestOf_before.symm, ?_⟩
      rw [← hnew, ← hadvanced.latestOf_after]
      exact ih _

/-- What a later publisher expected is the latest snapshot now, or a snapshot that
is not stored yet. -/
theorem expected_of_mem_advances {leaseId : String} {db : MetadataDb}
    {calls : List Call} {expected : Option String}
    (h : expected ∈ (advances leaseId db calls).map Prod.fst) :
    expected = db.latestOf leaseId ∨ ∃ s, expected = some s ∧ db.snapshots.lookup s = none := by
  induction calls generalizing db with
  | nil => cases h
  | cons call calls ih =>
    unfold advances at h
    have hfresh : ∀ s, (step db call).snapshots.lookup s = none → db.snapshots.lookup s = none := by
      intro s hs
      cases hrow : db.snapshots.lookup s with
      | none => rfl
      | some row =>
        rw [(step_position db call).1 s row hrow] at hs
        cases hs
    cases hadvance : advanceOf leaseId db call with
    | none =>
      rw [hadvance] at h
      rcases ih h with hlatest | ⟨s, hs, hnone⟩
      · exact Or.inl (hlatest.trans (latestOf_of_advanceOf_none hadvance))
      · exact Or.inr ⟨s, hs, hfresh s hnone⟩
    | some move =>
      rw [hadvance] at h
      obtain ⟨request, l, hadvanced, rfl, hexpected, hnew⟩ := advanceOf_eq_some hadvance
      rcases List.mem_cons.mp h with rfl | h
      · exact Or.inl (hexpected.symm.trans hadvanced.latestOf_before.symm)
      · rcases ih h with hlatest | ⟨s, hs, hnone⟩
        · exact Or.inr ⟨_, hlatest.trans hadvanced.latestOf_after, hadvanced.notStored⟩
        · exact Or.inr ⟨s, hs, hfresh s hnone⟩

/-- No two publishers start from the same latest snapshot. -/
theorem advances_nodup (leaseId : String) {db : MetadataDb} (calls : List Call)
    (h : db.LatestStored) : ((advances leaseId db calls).map Prod.fst).Nodup := by
  induction calls generalizing db with
  | nil => exact List.nodup_nil
  | cons call calls ih =>
    unfold advances
    cases hadvance : advanceOf leaseId db call with
    | none => exact ih (step_latestStored db call h)
    | some move =>
      obtain ⟨request, l, hadvanced, rfl, hexpected, hnew⟩ := advanceOf_eq_some hadvance
      refine List.nodup_cons.mpr ⟨fun hmem => ?_, ih (step_latestStored db call h)⟩
      rw [← hexpected, ← hadvanced.latest] at hmem
      rcases expected_of_mem_advances hmem with hlatest | ⟨s, hs, hnone⟩
      · rw [hadvanced.latestOf_after] at hlatest
        obtain ⟨row, hrow, -⟩ :=
          h request.leaseId l _ hadvanced.admitted.stored hlatest
        rw [hadvanced.notStored] at hrow
        cases hrow
      · obtain ⟨row, hrow, -⟩ := h request.leaseId l s hadvanced.admitted.stored hs
        rw [(step_position db call).1 s row hrow] at hnone
        cases hnone

/-- In every run from a store whose latest snapshots are stored: the latest
snapshot of a lease changes only in a publish that expected the epoch and the
latest snapshot of that moment; the changes form a chain; no two of them start
from the same snapshot; and the latest snapshot is always a stored one of the
project and the session of the lease. -/
theorem canonical_latest_chain (db : MetadataDb) (calls : List Call) (h : db.LatestStored) :
    (∀ n (hn : n < calls.length) leaseId,
      (storeAt db calls (n + 1)).latestOf leaseId ≠ (storeAt db calls n).latestOf leaseId →
      ∃ request l, calls[n].op = .publishSnapshotCanonical request ∧
        request.leaseId = leaseId ∧
        (storeAt db calls n).getLease leaseId = some l ∧
        l.epoch = request.expectedEpoch ∧
        l.latestSnapshotId = request.expectedLatestSnapshotId ∧
        (storeAt db calls (n + 1)).latestOf leaseId =
          some request.metadata.snapshotId) ∧
    (∀ leaseId, ChainFrom (db.latestOf leaseId) (advances leaseId db calls)) ∧
    (∀ leaseId, ((advances leaseId db calls).map Prod.fst).Nodup) ∧
    (∀ n, (storeAt db calls n).LatestStored) := by
  refine ⟨?_, fun leaseId => advances_chain leaseId db calls,
    fun leaseId => advances_nodup leaseId calls h,
    fun n => stateAt_invariant h step_latestStored n⟩
  intro n hn leaseId hne
  rw [storeAt_succ hn] at hne ⊢
  obtain ⟨request, l, hop, rfl, -, hadvanced⟩ := step_latestOf hne
  exact ⟨request, l, hop, rfl, hadvanced.admitted.stored, hadvanced.epoch,
    hadvanced.latest, hadvanced.latestOf_after⟩

/-! ## A run with two publishers -/

def demoMetadata (snapshotId : String) (parent : Option String) : SnapshotMetadata where
  schemaVersion := 1
  snapshotId := snapshotId
  projectId := "project-1"
  projectName := "demo"
  sessionId := some "session-1"
  parentSnapshotId := parent
  childSnapshots := []
  branch := some "main"
  headOid := "h"
  indexTreeOid := "i"
  indexCommitOid := "ic"
  workTreeOid := "w"
  workCommitOid := "wc"
  includedUntracked := []
  excluded := []
  sidecars := []
  stateHash := "s"
  createdAtUnixSeconds := 100

def demoPublish (snapshotId : String) (expectedEpoch : UInt64)
    (expectedLatest : Option String) : CanonicalPublishRequest where
  leaseId := "lease-1"
  sessionId := "session-1"
  expectedEpoch := expectedEpoch
  holderDeviceId := "device-a"
  expectedLatestSnapshotId := expectedLatest
  metadata := demoMetadata snapshotId expectedLatest
  pinned := false
  label := none

/-- Two publishers start from the empty lease; the second one is stale, and
publishes again on top of the first. -/
def demoPublishes : List Call := [
  ⟨demoEnv 100, .publishSnapshotCanonical
    (demoPublish "s1_000000000000000000000001" 7 none), none⟩,
  ⟨demoEnv 110, .publishSnapshotCanonical
    (demoPublish "s1_000000000000000000000002" 7 none), none⟩,
  ⟨demoEnv 120, .publishSnapshotCanonical
    (demoPublish "s1_000000000000000000000003" 7
      (some "s1_000000000000000000000001")), none⟩]

theorem demoStore_latestStored : demoStore.LatestStored := by
  intro leaseId l s hl hs
  have hrows : ∀ row ∈ demoStore.leases.rows,
      (leaseRecordFromRow row).latestSnapshotId = none := by decide
  obtain ⟨row, hrow, rfl⟩ := Option.map_eq_some_iff.mp hl
  rw [hrows row (Table.mem_of_lookup hrow)] at hs
  cases hs

theorem canonical_latest_chain_demo :
    advances "lease-1" demoStore demoPublishes =
      [(none, "s1_000000000000000000000001"),
        (some "s1_000000000000000000000001", "s1_000000000000000000000003")] ∧
    ChainFrom none (advances "lease-1" demoStore demoPublishes) ∧
    ((advances "lease-1" demoStore demoPublishes).map Prod.fst).Nodup ∧
    (storeAt demoStore demoPublishes 3).LatestStored := by
  obtain ⟨-, hchain, hnodup, hstored⟩ :=
    canonical_latest_chain demoStore demoPublishes demoStore_latestStored
  exact ⟨by decide, hchain "lease-1", hnodup "lease-1", hstored 3⟩

end DevRelay.Storage
