import DevRelay.Remote.Handoffs
import DevRelay.Trust.Pairing

/-!
# Lifetimes

`begin_handoff` and `start_pairing_session` add a lifetime to the clock, return the sum, and
store it in a signed column.  A sum from `2^63` on comes back as zero.
-/

namespace DevRelay.Remote

open DevRelay.Lib DevRelay.Core DevRelay.Storage DevRelay.Trust

/-! ## The sum and its column -/

/-- The sum is below the limit of the signed column. -/
def Fits (now ttl : UInt64) : Prop := now.toNat + max ttl.toNat 1 < 2 ^ 63

instance (now ttl : UInt64) : Decidable (Fits now ttl) := inferInstanceAs (Decidable (_ < _))

/-- What is read back of the sum. -/
def storedExpiry (now ttl : UInt64) : UInt64 := clampU64 (asI64 (saturatingAdd now (max ttl 1)))

section

variable {now ttl shorter : UInt64}

theorem toNat_max_one (ttl : UInt64) : (max ttl 1).toNat = max ttl.toNat 1 := toNat_max ttl 1

theorem toNat_expiry (h : Fits now ttl) :
    (saturatingAdd now (max ttl 1)).toNat = now.toNat + max ttl.toNat 1 := by
  unfold Fits at h
  rw [toNat_saturatingAdd, toNat_max_one]
  omega

theorem storedExpiry_of_fits (h : Fits now ttl) :
    storedExpiry now ttl = saturatingAdd now (max ttl 1) := by
  apply clampU64_asI64
  rw [toNat_expiry h]
  exact h

/-- The value that is read back is the one that was written exactly if it fits. -/
theorem storedExpiry_eq_iff : storedExpiry now ttl = saturatingAdd now (max ttl 1) ↔
    Fits now ttl := by
  refine ⟨fun heq => ?_, storedExpiry_of_fits⟩
  have hlt : (storedExpiry now ttl).toNat < 2 ^ 63 := toNat_clampU64_lt _
  rw [heq, toNat_saturatingAdd, toNat_max_one] at hlt
  unfold Fits
  omega

theorem Fits.of_le (h : Fits now ttl) (hle : shorter ≤ ttl) : Fits now shorter := by
  have hnat := UInt64.le_iff_toNat_le.mp hle
  unfold Fits at h ⊢
  omega

/-- What is read back for all lifetimes: a shorter one does not expire later, and none before
its time. -/
structure Outlasts (now ttl : UInt64) (expiry : UInt64 → Option UInt64) : Prop where
  shorter : ∀ other ≤ ttl, ∀ a b, expiry other = some a → expiry ttl = some b → a ≤ b
  inTime : ∀ a, expiry ttl = some a → ∀ clock : UInt64,
    clock.toNat < now.toNat + max ttl.toNat 1 → ¬clock > a

theorem outlasts_of_fits (h : Fits now ttl) {expiry : UInt64 → Option UInt64}
    (hexpiry : ∀ ttl a, expiry ttl = some a → a = storedExpiry now ttl) :
    Outlasts now ttl expiry := by
  constructor
  · intro other hle a b ha hb
    have hnat := UInt64.le_iff_toNat_le.mp hle
    rw [hexpiry other a ha, hexpiry ttl b hb, storedExpiry_of_fits h,
      storedExpiry_of_fits (h.of_le hle), UInt64.le_iff_toNat_le, toNat_expiry h,
      toNat_expiry (h.of_le hle)]
    omega
  · intro a ha clock hclock hlater
    rw [hexpiry ttl a ha, storedExpiry_of_fits h, gt_iff_lt, UInt64.lt_iff_toNat_lt,
      toNat_expiry h] at hlater
    omega

end

/-! ## Handoffs -/

section Handoffs

variable {env : Env} {leaseId source target generation : String} {ttl : UInt64}
  {db after : MetadataDb} {handoff : HandoffRecord}

/-- The expiry of the handoff that a call has begun, as it is read back. -/
def handoffExpiry (outcome : Except DevRelayError HandoffRecord × MetadataDb) : Option UInt64 :=
  match outcome with
  | (.ok handoff, after) =>
    (after.getHandoff handoff.handoffId).map HandoffRecord.expiresAtUnixSeconds
  | (.error _, _) => none

/-- The row reads back as the record but for the expiry. -/
theorem beginHandoff_reads_back
    (h : beginHandoff env leaseId source target generation ttl db = (.ok handoff, after)) :
    handoff.expiresAtUnixSeconds = saturatingAdd env.unixNowSeconds (max ttl 1) ∧
      after.getHandoff handoff.handoffId = some { handoff with
        expiresAtUnixSeconds := storedExpiry env.unixNowSeconds ttl } := by
  rcases beginHandoff_cases env leaseId source target generation ttl db with
    ⟨e, herror⟩ | ⟨lease, handoffs, hlease, -, -, -, -, -, hinsert, hok⟩
  · rw [herror] at h
    cases h
  · rw [hok] at h
    cases h
    refine ⟨rfl, ?_⟩
    obtain ⟨row, -, rfl⟩ := Option.map_eq_some_iff.mp hlease
    have hlookup : handoffs.lookup env.generatedHandoffId = some _ :=
      (Table.lookup_insert? hinsert _).trans (if_pos rfl)
    change (handoffs.lookup env.generatedHandoffId).map handoffRecordFromRow = _
    rw [hlookup, Option.map_some, handoffRecordFromRow, handoffRowOf, beginHandoffRecord]
    simp only [Option.getD_some, leaseRecordFromRow, clampU64_asI64_clampU64]
    rfl

theorem handoffExpiry_beginHandoff {expiry : UInt64}
    (h : handoffExpiry (beginHandoff env leaseId source target generation ttl db) = some expiry) :
    expiry = storedExpiry env.unixNowSeconds ttl := by
  cases hbegin : beginHandoff env leaseId source target generation ttl db with
  | mk result after =>
    rw [hbegin] at h
    cases result with
    | error e => cases h
    | ok handoff =>
      rw [handoffExpiry, (beginHandoff_reads_back hbegin).2] at h
      exact (Option.some_inj.mp h).symm

/-- The record that was returned reads back exactly if its sum fits. -/
theorem reads_back_iff
    (hexpiry : handoff.expiresAtUnixSeconds = saturatingAdd env.unixNowSeconds (max ttl 1))
    (hstored : after.getHandoff handoff.handoffId = some { handoff with
      expiresAtUnixSeconds := storedExpiry env.unixNowSeconds ttl }) :
    after.getHandoff handoff.handoffId = some handoff ↔ Fits env.unixNowSeconds ttl := by
  rw [hstored, ← storedExpiry_eq_iff, ← hexpiry, Option.some_inj]
  constructor
  · intro heq
    exact congrArg HandoffRecord.expiresAtUnixSeconds heq
  · intro heq
    rw [heq]

end Handoffs

/-! ## Handoffs begun from remote -/

section RemoteHandoffs

variable {actor : String} {params : HandoffBeginParams} {input : Nat → Env} {db after : MetadataDb}
  {result : HandoffMutationResult}

/-- The lifetime of a request. -/
def HandoffBeginParams.ttl (params : HandoffBeginParams) : UInt64 :=
  params.ttlSeconds.getD DEFAULT_REMOTE_HANDOFF_TTL_SECONDS

def remoteHandoffExpiry (outcome : Except DevRelayError HandoffMutationResult × MetadataDb) :
    Option UInt64 :=
  match outcome with
  | (.ok result, after) =>
    (after.getHandoff result.handoff.handoffId).map HandoffRecord.expiresAtUnixSeconds
  | (.error _, _) => none

theorem alone_readStep {α β : Type} (f : MetadataDb → α) (k : α → SqlThread β) (n : Nat) :
    (∃ e, (readStep f >>= k).alone input n db = (.error e, db)) ∨
      (readStep f >>= k).alone input n db = (k (f db)).alone input (n + 1) db := by
  cases hfault : (input n).readFault with
  | some e =>
    left
    refine ⟨e, Thread.alone_observe_bind_error ?_ k⟩
    simp only [hfault]
  | none =>
    right
    apply Thread.alone_observe_bind_ok
    simp only [hfault]

/-- A call that returns has begun the handoff of its result, and has changed nothing since. -/
theorem remoteHandoffBegin_begins
    (h : (remoteHandoffBegin actor params).alone input 0 db = (.ok result, after)) :
    beginHandoff (input 1) params.leaseId actor params.targetDeviceId params.sourceGeneration
      params.ttl db = (.ok result.handoff, after) := by
  unfold remoteHandoffBegin at h
  rcases alone_readStep (fun db => db.getLease params.leaseId) _ 0 with ⟨e, herror⟩ | hread
  · rw [herror] at h
    cases h
  · rw [hread] at h
    cases hlease : db.getLease params.leaseId with
    | none =>
      rw [hlease] at h
      cases h
    | some lease =>
      rw [hlease] at h
      dsimp only at h
      cases hproject : requireProject lease.projectId params.project "handoff.begin" with
      | error e =>
        rw [Thread.alone_ofExcept_bind_error hproject] at h
        cases h
      | ok _ =>
        rw [Thread.alone_ofExcept_bind_ok hproject] at h
        cases hactor : requireActor lease.holderDeviceId actor "handoff.begin source" with
        | error e =>
          rw [Thread.alone_ofExcept_bind_error hactor] at h
          cases h
        | ok _ =>
          rw [Thread.alone_ofExcept_bind_ok hactor] at h
          cases hbegin : beginHandoff (input 1) params.leaseId actor params.targetDeviceId
              params.sourceGeneration params.ttl db with
          | mk outcome begun =>
            cases outcome with
            | error e =>
              rw [Thread.alone_atomically_bind_error hbegin] at h
              cases h
            | ok handoff =>
              rw [Thread.alone_atomically_bind_ok hbegin] at h
              unfold handoffMutationResult at h
              rcases alone_readStep (fun db => db.listHandoffJournal handoff.handoffId)
                _ 2 with ⟨e, herror⟩ | hjournal
              · rw [herror] at h
                cases h
              · rw [hjournal] at h
                cases h
                rfl

theorem remoteHandoffExpiry_begin {expiry : UInt64}
    (h : remoteHandoffExpiry ((remoteHandoffBegin actor params).alone input 0 db) = some expiry) :
    expiry = storedExpiry (input 1).unixNowSeconds params.ttl := by
  cases hrun : (remoteHandoffBegin actor params).alone input 0 db with
  | mk outcome after =>
    rw [hrun] at h
    cases outcome with
    | error e => cases h
    | ok result =>
      have hbegin := remoteHandoffBegin_begins hrun
      exact handoffExpiry_beginHandoff ((congrArg handoffExpiry hbegin).trans h)

end RemoteHandoffs

/-! ## Pairing sessions -/

section Pairing

variable {env : PairingEnv} {request : PairingStartRequest} {db after : TrustDb}
  {session : PairingSession}

def pairingExpiry (outcome : Except DevRelayError PairingSession × TrustDb) : Option UInt64 :=
  match outcome with
  | (.ok session, after) =>
    (after.getPairingSession session.pairingId).map PairingSession.expiresAtUnixSeconds
  | (.error _, _) => none

/-- A session that was started is in its row, and its times are in their columns. -/
theorem startPairingSession_row
    (h : startPairingSession env request db = (.ok session, after)) :
    session.state = .pending ∧ session.certificateJson = none ∧
      session.confirmedAtUnixSeconds = none ∧ session.abortedAtUnixSeconds = none ∧
      session.expiresAtUnixSeconds =
        saturatingAdd env.unixNowSeconds (max request.ttlSeconds 1) ∧
      session.createdAtUnixSeconds = env.unixNowSeconds ∧
      after.pairingSessions.lookup session.pairingId = some (pairingRowOf session) := by
  obtain ⟨localKey, hash, sas, -, -, -, rfl, hinsert⟩ := startPairingSession_eq_ok h
  unfold insertPairingRow? at hinsert
  split at hinsert
  · obtain ⟨pairingSessions, htable, rfl⟩ := Option.map_eq_some_iff.mp hinsert
    exact ⟨rfl, rfl, rfl, rfl, rfl, rfl, (Table.lookup_insert? htable _).trans (if_pos rfl)⟩
  · cases hinsert

/-- The session that reads back. -/
theorem getPairingSession_of_start
    (h : startPairingSession env request db = (.ok session, after)) :
    after.getPairingSession session.pairingId = some { session with
      expiresAtUnixSeconds := storedExpiry env.unixNowSeconds request.ttlSeconds
      createdAtUnixSeconds := clampU64 (asI64 env.unixNowSeconds) } := by
  obtain ⟨hstate, hcertificate, hconfirmed, haborted, hexpires, hcreated, hrow⟩ :=
    startPairingSession_row h
  rw [TrustDb.getPairingSession, hrow, Option.map_some, pairingSessionFromRow, pairingRowOf]
  simp only [hstate, hcertificate, hconfirmed, haborted, hexpires, hcreated, Option.map_none,
    PairingState.parse_asStr]
  rfl

theorem pairingExpiry_start {expiry : UInt64}
    (h : pairingExpiry (startPairingSession env request db) = some expiry) :
    expiry = storedExpiry env.unixNowSeconds request.ttlSeconds := by
  cases hstart : startPairingSession env request db with
  | mk result after =>
    rw [hstart] at h
    cases result with
    | error e => cases h
    | ok session =>
      rw [pairingExpiry, getPairingSession_of_start hstart] at h
      exact (Option.some_inj.mp h).symm

theorem pairing_reads_back_iff
    (h : startPairingSession env request db = (.ok session, after)) :
    after.getPairingSession session.pairingId = some session ↔
      Fits env.unixNowSeconds request.ttlSeconds := by
  obtain ⟨-, -, -, -, hexpires, hcreated, -⟩ := startPairingSession_row h
  rw [getPairingSession_of_start h, Option.some_inj]
  constructor
  · intro heq
    rw [← storedExpiry_eq_iff, ← hexpires]
    exact congrArg PairingSession.expiresAtUnixSeconds heq
  · intro hfits
    have hnow : clampU64 (asI64 env.unixNowSeconds) = env.unixNowSeconds := by
      apply clampU64_asI64
      unfold Fits at hfits
      omega
    rw [storedExpiry_of_fits hfits, hnow, ← hexpires, ← hcreated]

/-- The query for sessions that have expired does not find it before its time. -/
theorem not_mem_expiredPairings (h : startPairingSession env request db = (.ok session, after))
    (hfits : Fits env.unixNowSeconds request.ttlSeconds) {clock : UInt64}
    (hclock : clock.toNat < env.unixNowSeconds.toNat + max request.ttlSeconds.toNat 1) :
    session.pairingId ∉ after.expiredPairings clock := by
  obtain ⟨-, -, -, -, hexpires, -, hrow⟩ := startPairingSession_row h
  intro hmem
  obtain ⟨row, hsorted, hid⟩ := List.mem_map.mp hmem
  rw [List.mem_insertionSort, List.mem_filter] at hsorted
  obtain ⟨hrows, hoverdue⟩ := hsorted
  have hlookup : after.pairingSessions.lookup session.pairingId = some row := by
    rw [← hid]
    exact Table.lookup_of_mem hrows
  rw [hlookup] at hrow
  cases hrow
  rw [TrustDb.overdue, Bool.and_eq_true, decide_eq_true_eq, decide_eq_true_eq] at hoverdue
  have hlt := hoverdue.2
  rw [Int64.lt_iff_toInt_lt] at hlt
  change (asI64 session.expiresAtUnixSeconds).toInt < _ at hlt
  unfold Fits at hfits
  rw [toInt_asI64, toInt_asI64, hexpires, toNat_expiry hfits, if_pos hfits,
    if_pos (hclock.trans hfits)] at hlt
  omega

end Pairing

/-- A lifetime survives its column exactly if its sum with the clock fits there: then the record
that is returned reads back, and neither a shorter lifetime nor an earlier clock changes that.
`input 1` is what the transaction of a remote call finds. -/
theorem lifetimes_survive_iff (ttl : UInt64) :
    (∀ (env : Env) (leaseId source target generation : String) (db after : MetadataDb)
      (handoff : HandoffRecord),
      beginHandoff env leaseId source target generation ttl db = (.ok handoff, after) →
      ((after.getHandoff handoff.handoffId = some handoff ∧
          Outlasts env.unixNowSeconds ttl fun ttl =>
            handoffExpiry (beginHandoff env leaseId source target generation ttl db)) ↔
        Fits env.unixNowSeconds ttl)) ∧
    (∀ (input : Nat → Env) (actor : String) (params : HandoffBeginParams)
      (db after : MetadataDb) (result : HandoffMutationResult), params.ttl = ttl →
      (remoteHandoffBegin actor params).alone input 0 db = (.ok result, after) →
      ((after.getHandoff result.handoff.handoffId = some result.handoff ∧
          Outlasts (input 1).unixNowSeconds ttl fun ttl => remoteHandoffExpiry
            ((remoteHandoffBegin actor { params with ttlSeconds := some ttl }).alone input 0 db)) ↔
        Fits (input 1).unixNowSeconds ttl)) ∧
    ∀ (env : PairingEnv) (request : PairingStartRequest) (db after : TrustDb)
      (session : PairingSession), request.ttlSeconds = ttl →
      startPairingSession env request db = (.ok session, after) →
      ((after.getPairingSession session.pairingId = some session ∧
          (Outlasts env.unixNowSeconds ttl fun ttl =>
            pairingExpiry (startPairingSession env { request with ttlSeconds := ttl } db)) ∧
          ∀ clock : UInt64, clock.toNat < env.unixNowSeconds.toNat + max ttl.toNat 1 →
            session.pairingId ∉ after.expiredPairings clock) ↔ Fits env.unixNowSeconds ttl) := by
  refine ⟨?_, ?_, ?_⟩
  · intro env leaseId source target generation db after handoff h
    obtain ⟨hexpires, hstored⟩ := beginHandoff_reads_back h
    rw [reads_back_iff hexpires hstored]
    refine ⟨And.left, fun hfits => ⟨hfits, outlasts_of_fits hfits ?_⟩⟩
    exact fun _ _ => handoffExpiry_beginHandoff
  · rintro input actor params db after result rfl h
    obtain ⟨hexpires, hstored⟩ := beginHandoff_reads_back (remoteHandoffBegin_begins h)
    rw [reads_back_iff hexpires hstored]
    refine ⟨And.left, fun hfits => ⟨hfits, outlasts_of_fits hfits ?_⟩⟩
    exact fun _ _ => remoteHandoffExpiry_begin
  · rintro env request db after session rfl h
    rw [pairing_reads_back_iff h]
    refine ⟨And.left, fun hfits => ⟨hfits, outlasts_of_fits hfits ?_, fun clock hclock => ?_⟩⟩
    · exact fun _ _ => pairingExpiry_start
    · exact not_mem_expiredPairings h hfits hclock

def demoBegin (ttl : UInt64) : Except DevRelayError HandoffRecord × MetadataDb :=
  beginHandoff (demoEnv 100) "lease-1" "device-a" "device-b" "gen-1" ttl demoStore

def demoRecord (ttl : UInt64) : HandoffRecord where
  handoffId := "ho_1"
  leaseId := "lease-1"
  projectId := "project-1"
  expectedEpoch := 7
  sourceDeviceId := "device-a"
  targetDeviceId := "device-b"
  sourceGeneration := "gen-1"
  expiresAtUnixSeconds := saturatingAdd 100 (max ttl 1)
  state := .targetPrepare

theorem minute_survives :
    (demoBegin 60).2.getHandoff "ho_1" = some (demoRecord 60) ∧
      Outlasts 100 60 fun ttl => handoffExpiry (demoBegin ttl) :=
  ((lifetimes_survive_iff 60).1 (demoEnv 100) "lease-1" "device-a" "device-b" "gen-1" demoStore
    (demoBegin 60).2 (demoRecord 60) (by rfl)).mpr (by decide)

/-- The longest lifetime is returned with the end of the clock, and reads back as expired. -/
theorem longest_lifetime_is_lost :
    ¬∀ (env : Env) (leaseId source target generation : String) (ttl : UInt64)
      (db after : MetadataDb) (handoff : HandoffRecord),
      beginHandoff env leaseId source target generation ttl db = (.ok handoff, after) →
        after.getHandoff handoff.handoffId = some handoff := by
  intro hall
  have hkept := hall (demoEnv 100) "lease-1" "device-a" "device-b" "gen-1" (2 ^ 64 - 1) demoStore
    (demoBegin (2 ^ 64 - 1)).2 (demoRecord (2 ^ 64 - 1)) (by rfl)
  have hlost : (demoBegin (2 ^ 64 - 1)).2.getHandoff "ho_1" ≠
      some (demoRecord (2 ^ 64 - 1)) := by decide +kernel
  exact hlost hkept

end DevRelay.Remote
