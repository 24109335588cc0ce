import DevRelay.Core.Error
import DevRelay.Lib.Run
import DevRelay.Lib.Table
import Mathlib.Data.List.Pairwise

/-!
# Replay protection of control requests

The policy, the replay cache and `validate_control_request_envelope` of
`transport_security.rs`.  An envelope is timely while the server clock is within
the skew of its date, which is an interval of twice the skew; its nonce is
remembered for the replay window, counted from the acceptance.
-/

namespace DevRelay.Transport

open DevRelay.Lib DevRelay.Core

def controlProtocolVersion : UInt32 := 1
def defaultMaxClockSkewSeconds : UInt64 := 300
def defaultReplayWindowSeconds : UInt64 := 300
def defaultConnectionTimeoutMillis : UInt64 := 10000
def defaultRequestTimeoutMillis : UInt64 := 30000
def minReplayNonceLen : Nat := 16
def maxReplayNonceLen : Nat := 128

structure ControlPlaneTransportPolicy where
  protocolVersion : UInt32
  maxClockSkewSeconds : UInt64
  replayWindowSeconds : UInt64
  connectionTimeoutMillis : UInt64
  requestTimeoutMillis : UInt64
  deriving DecidableEq, Repr

namespace ControlPlaneTransportPolicy

/-- `ControlPlaneTransportPolicy::default`. -/
def default : ControlPlaneTransportPolicy where
  protocolVersion := controlProtocolVersion
  maxClockSkewSeconds := defaultMaxClockSkewSeconds
  replayWindowSeconds := defaultReplayWindowSeconds
  connectionTimeoutMillis := defaultConnectionTimeoutMillis
  requestTimeoutMillis := defaultRequestTimeoutMillis

def validate (self : ControlPlaneTransportPolicy) : Except DevRelayError Unit :=
  if self.protocolVersion = 0 then
    .error (.config "control protocol version must be non-zero")
  else if self.maxClockSkewSeconds = 0 then
    .error (.config "max clock skew must be non-zero")
  else if self.replayWindowSeconds = 0 then
    .error (.config "replay window must be non-zero")
  else if self.connectionTimeoutMillis = 0 then
    .error (.config "connection timeout must be non-zero")
  else if self.requestTimeoutMillis = 0 then
    .error (.config "request timeout must be non-zero")
  else
    .ok ()

/-- Every default passes its own check. -/
theorem validate_default : default.validate = .ok () := by decide

end ControlPlaneTransportPolicy

structure ControlPlaneRequestEnvelope where
  protocolVersion : UInt32
  sentAtUnixSeconds : UInt64
  replayNonce : String
  deriving DecidableEq, Repr

/-- Nonces with the time of their acceptance. -/
structure ControlPlaneReplayCache where
  seen : Table (Prod.fst : String × UInt64 → String)
  deriving DecidableEq

namespace ControlPlaneReplayCache

def new : ControlPlaneReplayCache := ⟨.empty⟩

/-- The condition under which `prune` retains an entry. -/
def retained (nowUnixSeconds replayWindowSeconds seenAt : UInt64) : Bool :=
  seenAt > nowUnixSeconds ||
    nowUnixSeconds.toNat - seenAt.toNat ≤ replayWindowSeconds.toNat

def prune (self : ControlPlaneReplayCache) (nowUnixSeconds replayWindowSeconds : UInt64) :
    ControlPlaneReplayCache :=
  ⟨self.seen.deleteWhere fun entry =>
    !retained nowUnixSeconds replayWindowSeconds entry.2⟩

def remember (self : ControlPlaneReplayCache) (nonce : String)
    (nowUnixSeconds replayWindowSeconds : UInt64) :
    Except DevRelayError Unit × ControlPlaneReplayCache :=
  let pruned := self.prune nowUnixSeconds replayWindowSeconds
  match pruned.seen.insert? (nonce, nowUnixSeconds) with
  | none => (.error (.config
      ("control request replay nonce " ++ nonce ++ " was already used")), pruned)
  | some seen => (.ok (), ⟨seen⟩)

end ControlPlaneReplayCache

/-- `is_ascii_alphanumeric() || '-' || '_'` -/
def isBase64urlSafe (c : Char) : Bool :=
  ('0' ≤ c && c ≤ '9') || ('a' ≤ c && c ≤ 'z') || ('A' ≤ c && c ≤ 'Z') ||
    c = '-' || c = '_'

def validateReplayNonce (nonce : String) : Except DevRelayError Unit :=
  if nonce.utf8ByteSize < minReplayNonceLen ∨ nonce.utf8ByteSize > maxReplayNonceLen then
    .error (.config ("control request replay nonce must be between " ++
      toString minReplayNonceLen ++ " and " ++ toString maxReplayNonceLen ++
      " characters"))
  else if ¬nonce.toList.all isBase64urlSafe then
    .error (.config "control request replay nonce must be base64url-safe")
  else
    .ok ()

/-- `u64::abs_diff` -/
def absDiff (a b : UInt64) : Nat := (a.toNat - b.toNat) + (b.toNat - a.toNat)

def validateControlRequestEnvelope (policy : ControlPlaneTransportPolicy)
    (envelope : ControlPlaneRequestEnvelope) (nowUnixSeconds : UInt64)
    (replayCache : ControlPlaneReplayCache) :
    Except DevRelayError Unit × ControlPlaneReplayCache :=
  match policy.validate with
  | .error e => (.error e, replayCache)
  | .ok () =>
    if envelope.protocolVersion ≠ policy.protocolVersion then
      (.error (.config ("control request protocol version " ++
        toString envelope.protocolVersion ++ " does not match expected " ++
        toString policy.protocolVersion)), replayCache)
    else
      match validateReplayNonce envelope.replayNonce with
      | .error e => (.error e, replayCache)
      | .ok () =>
        let clockDelta := absDiff nowUnixSeconds envelope.sentAtUnixSeconds
        if clockDelta > policy.maxClockSkewSeconds.toNat then
          (.error (.config ("control request timestamp skew " ++
            toString clockDelta ++ "s exceeds max " ++
            toString policy.maxClockSkewSeconds ++ "s")), replayCache)
        else
          replayCache.remember envelope.replayNonce nowUnixSeconds
            policy.replayWindowSeconds

/-! ## One request -/

namespace ControlPlaneReplayCache

/-- The time at which a nonce was accepted. -/
def seenAt (self : ControlPlaneReplayCache) (nonce : String) : Option UInt64 :=
  (self.seen.lookup nonce).map Prod.snd

variable {cache : ControlPlaneReplayCache} {nonce : String} {now window t : UInt64}

theorem seenAt_prune_of_retained (h : cache.seenAt nonce = some t)
    (hretained : retained now window t = true) :
    (cache.prune now window).seenAt nonce = some t := by
  obtain ⟨entry, hentry, rfl⟩ := Option.map_eq_some_iff.mp h
  unfold seenAt prune
  rw [Table.lookup_deleteWhere, hentry, Option.filter_some, hretained]
  rfl

theorem seenAt_prune_of_not_retained (h : cache.seenAt nonce = some t)
    (hpruned : retained now window t = false) :
    (cache.prune now window).seenAt nonce = none := by
  obtain ⟨entry, hentry, rfl⟩ := Option.map_eq_some_iff.mp h
  unfold seenAt prune
  rw [Table.lookup_deleteWhere, hentry, Option.filter_some, hpruned]
  rfl

/-- A nonce the pruned cache knows is refused. -/
theorem remember_of_seen (h : (cache.prune now window).seenAt nonce = some t) :
    ∃ e, cache.remember nonce now window = (.error e, cache.prune now window) := by
  obtain ⟨entry, hentry, -⟩ := Option.map_eq_some_iff.mp h
  have hnone : (cache.prune now window).seen.insert? (nonce, now) = none := by
    rw [← Option.not_isSome_iff_eq_none, Option.isSome_iff_exists]
    rintro ⟨seen, hseen⟩
    have hfree := (Table.insert?_eq_some.mp hseen).1
    rw [hentry] at hfree
    cases hfree
  refine ⟨.config ("control request replay nonce " ++ nonce ++ " was already used"), ?_⟩
  simp only [remember, hnone]

/-- A nonce the pruned cache does not know is accepted, and known from then on. -/
theorem remember_of_not_seen (h : (cache.prune now window).seenAt nonce = none) :
    ∃ cache', cache.remember nonce now window = (.ok (), cache') ∧
      cache'.seenAt nonce = some now := by
  obtain ⟨seen, hseen⟩ := Table.insert?_isSome (t := (cache.prune now window).seen)
    (r := (nonce, now)) (Option.map_eq_none_iff.mp h)
  refine ⟨⟨seen⟩, by simp only [remember, hseen], ?_⟩
  rw [seenAt, Table.lookup_insert? hseen, if_pos rfl]
  rfl

/-- Remembering another nonce keeps what the pruned cache knows. -/
theorem seenAt_remember {other : String} (h : (cache.prune now window).seenAt nonce = some t) :
    (cache.remember other now window).2.seenAt nonce = some t := by
  unfold remember
  dsimp only
  split
  · exact h
  · rename_i seen hseen
    obtain ⟨entry, hentry, hsnd⟩ := Option.map_eq_some_iff.mp h
    have hne : other ≠ nonce := by
      rintro rfl
      have hfree := (Table.insert?_eq_some.mp hseen).1
      rw [hentry] at hfree
      cases hfree
    change (seen.lookup nonce).map Prod.snd = some t
    rw [Table.lookup_insert? hseen, if_neg hne, hentry, Option.map_some, hsnd]

end ControlPlaneReplayCache

section

variable {policy : ControlPlaneTransportPolicy} {envelope : ControlPlaneRequestEnvelope}
  {now t : UInt64} {cache : ControlPlaneReplayCache} {nonce : String}

/-- An accepted envelope is within the skew, and `remember` took its nonce. -/
theorem validate_accepted
    (h : (validateControlRequestEnvelope policy envelope now cache).1 = .ok ()) :
    absDiff now envelope.sentAtUnixSeconds ≤ policy.maxClockSkewSeconds.toNat ∧
      validateControlRequestEnvelope policy envelope now cache =
        cache.remember envelope.replayNonce now policy.replayWindowSeconds := by
  unfold validateControlRequestEnvelope at h ⊢
  split at h
  · cases h
  · split at h
    · cases h
    · split at h
      · cases h
      · dsimp only at h
        split at h
        · cases h
        · rename_i hversion _ _ hskew
          refine ⟨Nat.not_lt.mp hskew, ?_⟩
          rw [if_neg hversion]
          dsimp only
          rw [if_neg hskew]

/-- The cache after a request is the one before it, or the one `remember` left. -/
theorem validate_cache (policy : ControlPlaneTransportPolicy)
    (envelope : ControlPlaneRequestEnvelope) (now : UInt64) (cache : ControlPlaneReplayCache) :
    (validateControlRequestEnvelope policy envelope now cache).2 = cache ∨
      (validateControlRequestEnvelope policy envelope now cache).2 =
        (cache.remember envelope.replayNonce now policy.replayWindowSeconds).2 := by
  unfold validateControlRequestEnvelope
  split
  · exact Or.inl rfl
  · split
    · exact Or.inl rfl
    · split
      · exact Or.inl rfl
      · dsimp only
        split
        · exact Or.inl rfl
        · exact Or.inr rfl

/-- A request keeps a nonce that is still inside the replay window. -/
theorem validate_keeps (h : cache.seenAt nonce = some t)
    (hwindow : now.toNat - t.toNat ≤ policy.replayWindowSeconds.toNat) :
    (validateControlRequestEnvelope policy envelope now cache).2.seenAt nonce = some t := by
  have hretained : ControlPlaneReplayCache.retained now policy.replayWindowSeconds t = true := by
    simp [ControlPlaneReplayCache.retained, hwindow]
  rcases validate_cache policy envelope now cache with hsame | hremember
  · rw [hsame]
    exact h
  · rw [hremember]
    exact ControlPlaneReplayCache.seenAt_remember
      (ControlPlaneReplayCache.seenAt_prune_of_retained h hretained)

/-- A nonce that is still inside the replay window is not accepted again. -/
theorem not_accepted_of_seen (h : cache.seenAt envelope.replayNonce = some t)
    (hwindow : now.toNat - t.toNat ≤ policy.replayWindowSeconds.toNat) :
    (validateControlRequestEnvelope policy envelope now cache).1 ≠ .ok () := by
  intro haccepted
  have hretained : ControlPlaneReplayCache.retained now policy.replayWindowSeconds t = true := by
    simp [ControlPlaneReplayCache.retained, hwindow]
  obtain ⟨e, he⟩ := ControlPlaneReplayCache.remember_of_seen
    (ControlPlaneReplayCache.seenAt_prune_of_retained h hretained)
  rw [(validate_accepted haccepted).2, he] at haccepted
  cases haccepted

end

/-! ## Runs -/

/-- An envelope with the server time at which it is validated. -/
structure Submission where
  envelope : ControlPlaneRequestEnvelope
  nowUnixSeconds : UInt64
  deriving DecidableEq, Repr

def submit (policy : ControlPlaneTransportPolicy) (cache : ControlPlaneReplayCache)
    (s : Submission) : Except DevRelayError Unit × ControlPlaneReplayCache :=
  validateControlRequestEnvelope policy s.envelope s.nowUnixSeconds cache

/-- The cache after the first `n` submissions. -/
def cacheAt (policy : ControlPlaneTransportPolicy) (cache : ControlPlaneReplayCache)
    (submissions : List Submission) (n : Nat) : ControlPlaneReplayCache :=
  stateAt (fun cache s => (submit policy cache s).2) cache submissions n

/-- Submission number `n` is accepted. -/
def Accepted (policy : ControlPlaneTransportPolicy) (cache : ControlPlaneReplayCache)
    (submissions : List Submission) (n : Nat) (s : Submission) : Prop :=
  submissions[n]? = some s ∧
    (submit policy (cacheAt policy cache submissions n) s).1 = .ok ()

/-- In no run at non-decreasing times is an envelope accepted twice. -/
def ReplayFree (policy : ControlPlaneTransportPolicy) : Prop :=
  ∀ (cache : ControlPlaneReplayCache) (submissions : List Submission),
    submissions.Pairwise (fun a b => a.nowUnixSeconds ≤ b.nowUnixSeconds) →
    ∀ i j a b, i < j → Accepted policy cache submissions i a →
      Accepted policy cache submissions j b →
      ¬(a.envelope.replayNonce = b.envelope.replayNonce ∧
        a.envelope.sentAtUnixSeconds = b.envelope.sentAtUnixSeconds)

theorem cacheAt_succ {policy : ControlPlaneTransportPolicy}
    {cache : ControlPlaneReplayCache} {submissions : List Submission} {n : Nat}
    {s : Submission} (h : submissions[n]? = some s) :
    cacheAt policy cache submissions (n + 1) =
      (submit policy (cacheAt policy cache submissions n) s).2 := by
  obtain ⟨hn, rfl⟩ := List.getElem?_eq_some_iff.mp h
  exact stateAt_succ hn

theorem now_le_of_pairwise {submissions : List Submission} {i j : Nat} {a b : Submission}
    (hsorted : submissions.Pairwise fun a b => a.nowUnixSeconds ≤ b.nowUnixSeconds)
    (hij : i ≤ j) (ha : submissions[i]? = some a) (hb : submissions[j]? = some b) :
    a.nowUnixSeconds ≤ b.nowUnixSeconds := by
  obtain ⟨hi, rfl⟩ := List.getElem?_eq_some_iff.mp ha
  obtain ⟨hj, rfl⟩ := List.getElem?_eq_some_iff.mp hb
  rcases Nat.lt_or_eq_of_le hij with hlt | rfl
  · exact List.pairwise_iff_getElem.mp hsorted i j hi hj hlt
  · exact UInt64.le_refl _

/-- An accepted nonce is still known when a later submission arrives inside the
window. -/
theorem seenAt_cacheAt {policy : ControlPlaneTransportPolicy}
    {cache : ControlPlaneReplayCache} {submissions : List Submission} {i j : Nat} {a b : Submission}
    (hsorted : submissions.Pairwise fun a b => a.nowUnixSeconds ≤ b.nowUnixSeconds)
    (ha : Accepted policy cache submissions i a) (hb : submissions[j]? = some b) (hij : i < j)
    (hwindow : b.nowUnixSeconds.toNat - a.nowUnixSeconds.toNat ≤
      policy.replayWindowSeconds.toNat) :
    (cacheAt policy cache submissions j).seenAt a.envelope.replayNonce = some a.nowUnixSeconds := by
  -- the nonce enters at `i` and no prune before `j` looks back further than the window
  have hkept : ∀ d, i + 1 + d ≤ j →
      (cacheAt policy cache submissions (i + 1 + d)).seenAt a.envelope.replayNonce =
        some a.nowUnixSeconds := by
    intro d
    induction d with
    | zero =>
      intro _
      obtain ⟨-, hremember⟩ := validate_accepted ha.2
      rw [Nat.add_zero, cacheAt_succ ha.1, submit, hremember]
      have hok := ha.2
      rw [submit, hremember] at hok
      cases hseen : ((cacheAt policy cache submissions i).prune a.nowUnixSeconds
          policy.replayWindowSeconds).seenAt a.envelope.replayNonce with
      | some t =>
        obtain ⟨e, he⟩ := ControlPlaneReplayCache.remember_of_seen hseen
        rw [he] at hok
        cases hok
      | none =>
        obtain ⟨cache', heq, hknown⟩ :=
          ControlPlaneReplayCache.remember_of_not_seen hseen
        rw [heq]
        exact hknown
    | succ d ih =>
      intro hd
      have hlen : i + 1 + d < submissions.length := by
        have := (List.getElem?_eq_some_iff.mp hb).1
        omega
      have hget : submissions[i + 1 + d]? = some submissions[i + 1 + d] :=
        List.getElem?_eq_getElem hlen
      have hlate : submissions[i + 1 + d].nowUnixSeconds ≤ b.nowUnixSeconds :=
        now_le_of_pairwise hsorted (by omega) hget hb
      rw [← Nat.add_assoc, cacheAt_succ hget]
      refine validate_keeps (ih (by omega)) ?_
      have hlate' := UInt64.le_iff_toNat_le.mp hlate
      omega
  have hj := hkept (j - (i + 1)) (by omega)
  rwa [Nat.add_sub_cancel' (by omega : i + 1 ≤ j)] at hj

/-! ## When replays are excluded -/

/-- The longest time between two timely submissions of one envelope. -/
def timelySpan (policy : ControlPlaneTransportPolicy) : Nat :=
  min (2 * policy.maxClockSkewSeconds.toNat) (2 ^ 64 - 1)

theorem replayFree_of_timelySpan_le {policy : ControlPlaneTransportPolicy}
    (h : timelySpan policy ≤ policy.replayWindowSeconds.toNat) : ReplayFree policy := by
  rintro cache submissions hsorted i j a b hij ha hb ⟨hnonce, hsent⟩
  obtain ⟨hskewA, -⟩ := validate_accepted ha.2
  obtain ⟨hskewB, -⟩ := validate_accepted hb.2
  have hwindow : b.nowUnixSeconds.toNat - a.nowUnixSeconds.toNat ≤
      policy.replayWindowSeconds.toNat := by
    have hbound := b.nowUnixSeconds.toNat_lt
    unfold absDiff at hskewA hskewB
    unfold timelySpan at h
    rw [hsent] at hskewA
    omega
  have hseen := seenAt_cacheAt hsorted ha hb.1 hij hwindow
  rw [hnonce] at hseen
  exact not_accepted_of_seen hseen hwindow hb.2

/-- An envelope dated half a span ahead of a server whose clock starts at zero. -/
def farEnvelope (policy : ControlPlaneTransportPolicy) : ControlPlaneRequestEnvelope where
  protocolVersion := policy.protocolVersion
  sentAtUnixSeconds := UInt64.ofNat ((timelySpan policy + 1) / 2)
  replayNonce := "aaaaaaaaaaaaaaaa"

theorem validateReplayNonce_far (policy : ControlPlaneTransportPolicy) :
    validateReplayNonce (farEnvelope policy).replayNonce = .ok () := by
  change validateReplayNonce "aaaaaaaaaaaaaaaa" = .ok ()
  decide

/-- A timely envelope of a valid policy is passed on to the replay cache. -/
theorem validate_timely {policy : ControlPlaneTransportPolicy}
    {envelope : ControlPlaneRequestEnvelope} {now : UInt64}
    {cache : ControlPlaneReplayCache} (hpolicy : policy.validate = .ok ())
    (hversion : envelope.protocolVersion = policy.protocolVersion)
    (hnonce : validateReplayNonce envelope.replayNonce = .ok ())
    (hskew : absDiff now envelope.sentAtUnixSeconds ≤ policy.maxClockSkewSeconds.toNat) :
    validateControlRequestEnvelope policy envelope now cache =
      cache.remember envelope.replayNonce now policy.replayWindowSeconds := by
  unfold validateControlRequestEnvelope
  rw [hpolicy]
  dsimp only
  rw [if_neg (not_not_intro hversion), hnonce]
  dsimp only
  rw [if_neg (Nat.not_lt.mpr hskew)]

/-- The envelope is timely at both ends of the span. -/
theorem farEnvelope_timely (policy : ControlPlaneTransportPolicy) :
    absDiff 0 (farEnvelope policy).sentAtUnixSeconds ≤ policy.maxClockSkewSeconds.toNat ∧
      absDiff (UInt64.ofNat (timelySpan policy)) (farEnvelope policy).sentAtUnixSeconds ≤
        policy.maxClockSkewSeconds.toNat := by
  have hspan : timelySpan policy < 2 ^ 64 := by
    unfold timelySpan
    omega
  have hsent : (farEnvelope policy).sentAtUnixSeconds.toNat = (timelySpan policy + 1) / 2 := by
    refine UInt64.toNat_ofNat_of_lt' ?_
    change (timelySpan policy + 1) / 2 < 2 ^ 64
    omega
  have hlast : (UInt64.ofNat (timelySpan policy)).toNat = timelySpan policy :=
    UInt64.toNat_ofNat_of_lt' hspan
  have hzero : (0 : UInt64).toNat = 0 := rfl
  have hskew := policy.maxClockSkewSeconds.toNat_lt
  unfold absDiff
  rw [hsent, hlast, hzero]
  unfold timelySpan
  omega

/-- When the window is shorter than the span, the second submission of the far envelope
finds its nonce pruned. -/
theorem not_replayFree_of_lt_timelySpan {policy : ControlPlaneTransportPolicy}
    (hpolicy : policy.validate = .ok ())
    (h : policy.replayWindowSeconds.toNat < timelySpan policy) : ¬ReplayFree policy := by
  intro hfree
  have hspan : timelySpan policy < 2 ^ 64 := by
    unfold timelySpan
    omega
  have hlast : (UInt64.ofNat (timelySpan policy)).toNat = timelySpan policy :=
    UInt64.toNat_ofNat_of_lt' hspan
  obtain ⟨hfirst, hsecond⟩ := farEnvelope_timely policy
  let early : Submission := ⟨farEnvelope policy, 0⟩
  let late : Submission := ⟨farEnvelope policy, UInt64.ofNat (timelySpan policy)⟩
  have hempty : (ControlPlaneReplayCache.new.prune 0 policy.replayWindowSeconds).seenAt
      (farEnvelope policy).replayNonce = none := rfl
  obtain ⟨cache', hremember, hknown⟩ :=
    ControlPlaneReplayCache.remember_of_not_seen hempty
  have hearly : submit policy ControlPlaneReplayCache.new early = (.ok (), cache') := by
    rw [← hremember]
    exact validate_timely hpolicy rfl (validateReplayNonce_far policy) hfirst
  -- the acceptance time is further back than the window
  have hforgotten : ControlPlaneReplayCache.retained late.nowUnixSeconds
      policy.replayWindowSeconds 0 = false := by
    have hzero : (0 : UInt64).toNat = 0 := rfl
    simp [ControlPlaneReplayCache.retained, late, hlast, hzero, h]
  obtain ⟨cache'', hagain, -⟩ := ControlPlaneReplayCache.remember_of_not_seen
    (ControlPlaneReplayCache.seenAt_prune_of_not_retained hknown hforgotten)
  have hlate : submit policy cache' late = (.ok (), cache'') := by
    rw [← hagain]
    exact validate_timely hpolicy rfl (validateReplayNonce_far policy) hsecond
  have hsorted : [early, late].Pairwise fun a b => a.nowUnixSeconds ≤ b.nowUnixSeconds := by
    refine List.pairwise_pair.mpr ?_
    exact UInt64.le_iff_toNat_le.mpr (Nat.zero_le _)
  have haccepted₀ : Accepted policy ControlPlaneReplayCache.new [early, late] 0 early := by
    refine ⟨rfl, ?_⟩
    change (submit policy ControlPlaneReplayCache.new early).1 = .ok ()
    rw [hearly]
  have haccepted₁ : Accepted policy ControlPlaneReplayCache.new [early, late] 1 late := by
    refine ⟨rfl, ?_⟩
    change (submit policy (submit policy ControlPlaneReplayCache.new early).2 late).1 =
      .ok ()
    rw [hearly, hlate]
  exact hfree _ _ hsorted 0 1 early late Nat.zero_lt_one haccepted₀ haccepted₁ ⟨rfl, rfl⟩

/-- A valid policy excludes replays exactly when its window covers the whole interval in
which an envelope is timely. -/
theorem replayFree_iff (policy : ControlPlaneTransportPolicy) (hpolicy : policy.validate = .ok ()) :
    ReplayFree policy ↔
      min (2 * policy.maxClockSkewSeconds.toNat) (2 ^ 64 - 1) ≤
        policy.replayWindowSeconds.toNat := by
  constructor
  · intro hfree
    apply Nat.not_lt.mp
    intro hlt
    exact not_replayFree_of_lt_timelySpan hpolicy hlt hfree
  · exact replayFree_of_timelySpan_le

/-- A policy with a window of twice the skew. -/
def wideWindowPolicy : ControlPlaneTransportPolicy :=
  { ControlPlaneTransportPolicy.default with replayWindowSeconds := 600 }

theorem replayFree_iff_wideWindow : ReplayFree wideWindowPolicy :=
  (replayFree_iff wideWindowPolicy (by decide)).mpr (by decide)

/-- The default window is half of what is needed. -/
theorem default_policy_accepts_replay :
    ControlPlaneTransportPolicy.default.validate = .ok () ∧
      ¬ReplayFree ControlPlaneTransportPolicy.default :=
  ⟨by decide, not_replayFree_of_lt_timelySpan (by decide) (by decide)⟩

end DevRelay.Transport
