import DevRelay.Storage.HandoffInvariant
import DevRelay.Trust.Pairing

/-!
# Pairing under interleaving

Clients share one store and run their pairing operations statement by
statement.  `Ends` is what a statement owes to the others: a session that has
ended keeps its state, and an identity changes only with a confirmed session.
The transaction of an expiry owes it for identifiers that were read earlier, and
writes them without looking at their state again.
-/

namespace DevRelay.Trust

open DevRelay.Lib DevRelay.Core DevRelay.Storage

/-! ## What a statement owes -/

def PairingSessionRow.pairingState (r : PairingSessionRow) : PairingState :=
  PairingState.parse r.state

/-- Every session is stored under the text of its state. -/
def TrustDb.WellFormed (db : TrustDb) : Prop :=
  ∀ id r, db.pairingSessions.lookup id = some r → r.state = r.pairingState.asStr

/-- The session is confirmed, with the device as its peer. -/
def TrustDb.Confirmed (db : TrustDb) (id deviceId : String) : Prop :=
  ∃ r, db.pairingSessions.lookup id = some r ∧ r.peerDeviceId = deviceId ∧
    r.pairingState = .confirmed

/-- From `db` to `db'` no session leaves a terminal state, and an identity changes
only when a session with that peer becomes confirmed. -/
structure Ends (db db' : TrustDb) : Prop where
  sessions : ∀ id r, db.pairingSessions.lookup id = some r →
    ∃ r', db'.pairingSessions.lookup id = some r' ∧ r'.peerDeviceId = r.peerDeviceId ∧
      (r.pairingState.isTerminal = true → r'.pairingState = r.pairingState)
  wellFormed : db.WellFormed → db'.WellFormed
  identities : db.WellFormed → ∀ deviceId,
    db'.deviceIdentities.lookup deviceId ≠ db.deviceIdentities.lookup deviceId →
    ∃ id, ¬db.Confirmed id deviceId ∧ db'.Confirmed id deviceId

theorem Ends.refl (db : TrustDb) : Ends db db where
  sessions _ r hr := ⟨r, hr, rfl, fun _ => rfl⟩
  wellFormed h := h
  identities _ _ hne := absurd rfl hne

/-- An update of one session that has not ended. -/
theorem ends_of_update {db db' : TrustDb} {p : PairingSessionRow → Bool}
    {f : PairingSessionRow → PairingSessionRow} (state : PairingState)
    (hrows : db'.pairingSessions.rows = db.pairingSessions.rows.map fun r =>
      if p r then f r else r)
    (hkey : ∀ r, (f r).pairingId = r.pairingId) (hpeer : ∀ r, (f r).peerDeviceId = r.peerDeviceId)
    (hstate : ∀ r, (f r).state = state.asStr)
    (hopen : ∀ id r, db.pairingSessions.lookup id = some r → p r = true →
      r.pairingState.isTerminal = true → r.pairingState = state)
    (hidentities : db'.deviceIdentities = db.deviceIdentities) : Ends db db' := by
  have hlookup : ∀ id, db'.pairingSessions.lookup id =
      (db.pairingSessions.lookup id).map fun r => if p r then f r else r :=
    fun id => Table.lookup_of_rows hkey hrows id
  have hread : ∀ r, (f r).pairingState = state := by
    intro r
    unfold PairingSessionRow.pairingState
    rw [hstate, PairingState.parse_asStr]
  refine ⟨?_, ?_, fun _ deviceId hne => absurd (by rw [hidentities]) hne⟩
  · intro id r hr
    refine ⟨if p r then f r else r, by rw [hlookup, hr, Option.map_some], ?_, ?_⟩
    · split
      · exact hpeer r
      · rfl
    · intro hterminal
      split
      · rename_i hp
        rw [hread, hopen id r hr hp hterminal]
      · rfl
  · intro hwell id r' hr'
    rw [hlookup] at hr'
    obtain ⟨r, hr, rfl⟩ := Option.map_eq_some_iff.mp hr'
    split
    · rw [hread, hstate]
    · exact hwell id r hr

/-! ## The transactions -/

theorem getPairingSession_eq_some {db : TrustDb} {id : String} {session : PairingSession}
    (h : db.getPairingSession id = some session) :
    ∃ r, db.pairingSessions.lookup id = some r ∧ session = pairingSessionFromRow r :=
  let ⟨r, hr, heq⟩ := Option.map_eq_some_iff.mp h
  ⟨r, hr, heq.symm⟩

@[simp] theorem run_selectPairingSession_bind_ok {α : Type} (pairingId : String)
    (k : PairingSession → TrustSql α) (db db' : TrustDb) (b : α) :
    (selectPairingSession pairingId >>= k).run db = (.ok b, db') ↔
      ∃ session, db.getPairingSession pairingId = some session ∧
        (k session).run db = (.ok b, db') := by
  simp [selectPairingSession, Prog.run_bind_ok]

/-- A transaction owes what its body owes when it commits. -/
theorem ends_transaction {ρ : Type} {fault : Fault DevRelayError}
    {body : TrustSql (Ending (Except DevRelayError ρ))} {db : TrustDb}
    (h : ∀ r db', body.run db = (.ok (.committed r), db') → Ends db db') :
    Ends db (body.transaction fault db).2 := by
  rcases Prog.transaction_cases fault body db with ⟨e, heq⟩ | ⟨r, -, heq⟩ | ⟨r, db', hrun, heq⟩
  · rw [heq]
    exact Ends.refl db
  · rw [heq]
    exact Ends.refl db
  · rw [heq]
    exact h r db' hrun

theorem ends_start (env : PairingEnv) (request : PairingStartRequest) (db : TrustDb) :
    Ends db (startPairingSession env request db).2 := by
  unfold startPairingSession
  split
  · exact Ends.refl db
  · apply ends_transaction
    intro r db' h
    simp only [startPairingBody, Prog.run_query_bind, Prog.run_ensure_bind_ok,
      Prog.run_ofExcept_bind_ok, Prog.run_attempt_bind_ok, Prog.run_commitWith_ok] at h
    obtain ⟨-, localKey, -, hash, -, sas, -, db₁, hinsert, -, rfl⟩ := h
    unfold insertPairingRow? at hinsert
    split at hinsert
    · obtain ⟨pairingSessions, htable, rfl⟩ := Option.map_eq_some_iff.mp hinsert
      have hlookup := Table.lookup_insert? htable
      have hfresh := (Table.insert?_eq_some.mp htable).1
      refine ⟨?_, ?_, ?_⟩
      · intro id r hr
        have hne : (pairingRowOf (startedSession env request localKey hash sas)).pairingId
            ≠ id := by
          rintro rfl
          rw [hfresh] at hr
          cases hr
        refine ⟨r, ?_, rfl, fun _ => rfl⟩
        rw [hlookup, if_neg hne]
        exact hr
      · intro hwell id r hr
        rw [hlookup] at hr
        split at hr
        · cases hr
          rfl
        · exact hwell id r hr
      · intro _ deviceId hne
        exact absurd rfl hne
    · cases hinsert

/-- A confirmed session stays confirmed, with the same peer. -/
theorem Ends.confirmed {db db' : TrustDb} {id deviceId : String} (hends : Ends db db')
    (h : db.Confirmed id deviceId) : db'.Confirmed id deviceId := by
  obtain ⟨r, hr, hpeer, hstate⟩ := h
  obtain ⟨r', hr', hpeer', hkept⟩ := hends.sessions id r hr
  refine ⟨r', hr', hpeer'.trans hpeer, ?_⟩
  rw [hkept (by rw [hstate]; rfl), hstate]

theorem Ends.trans {a b c : TrustDb} (hab : Ends a b) (hbc : Ends b c) : Ends a c where
  sessions id r hr := by
    obtain ⟨r₁, hr₁, hpeer₁, hkept₁⟩ := hab.sessions id r hr
    obtain ⟨r₂, hr₂, hpeer₂, hkept₂⟩ := hbc.sessions id r₁ hr₁
    refine ⟨r₂, hr₂, hpeer₂.trans hpeer₁, fun hterminal => ?_⟩
    have hsame := hkept₁ hterminal
    rw [hkept₂ (by rw [hsame]; exact hterminal), hsame]
  wellFormed h := hbc.wellFormed (hab.wellFormed h)
  identities hwell deviceId hne := by
    by_cases hlast : c.deviceIdentities.lookup deviceId = b.deviceIdentities.lookup deviceId
    · rw [hlast] at hne
      obtain ⟨id, hbefore, hafter⟩ := hab.identities hwell deviceId hne
      exact ⟨id, hbefore, hbc.confirmed hafter⟩
    · obtain ⟨id, hbefore, hafter⟩ := hbc.identities (hab.wellFormed hwell) deviceId hlast
      exact ⟨id, fun h => hbefore (hab.confirmed h), hafter⟩

/-- The session is neither confirmed nor aborted. -/
def TrustDb.Expirable (db : TrustDb) (id : String) : Prop :=
  ∀ r, db.pairingSessions.lookup id = some r →
    r.pairingState ≠ .confirmed ∧ r.pairingState ≠ .aborted

instance (db : TrustDb) (id : String) : Decidable (db.Expirable id) :=
  decidable_of_iff (∀ r ∈ db.pairingSessions.lookup id,
    r.pairingState ≠ .confirmed ∧ r.pairingState ≠ .aborted) Iff.rfl

theorem lookup_markPairingExpired (db : TrustDb) (id id' : String) :
    (db.markPairingExpired id).pairingSessions.lookup id' =
      (db.pairingSessions.lookup id').map fun r =>
        if r.pairingId = id then { r with state := PairingState.expired.asStr } else r := by
  unfold TrustDb.markPairingExpired TrustDb.updatePairingSessions
  rw [Table.lookup_updateWhere]
  simp only [decide_eq_true_eq]

theorem expirable_markPairingExpired {db : TrustDb} {id id' : String}
    (h : db.Expirable id') : (db.markPairingExpired id).Expirable id' := by
  intro r hr
  rw [lookup_markPairingExpired] at hr
  obtain ⟨r₀, hr₀, rfl⟩ := Option.map_eq_some_iff.mp hr
  split
  · constructor
    · exact PairingState.noConfusion
    · exact PairingState.noConfusion
  · exact h r₀ hr₀

theorem ends_expired {db : TrustDb} {id : String} (h : db.Expirable id) :
    Ends db (db.markPairingExpired id) := by
  refine ends_of_update .expired rfl (fun _ => rfl) (fun _ => rfl) (fun _ => rfl) ?_ rfl
  intro id' r hr hp hterminal
  have hid : r.pairingId = id := by simpa using hp
  rw [← Table.lookup_key hr, hid] at hr
  obtain ⟨hconfirmed, haborted⟩ := h r hr
  cases hstate : r.pairingState with
  | pending =>
    rw [hstate] at hterminal
    cases hterminal
  | confirmed => exact absurd hstate hconfirmed
  | aborted => exact absurd hstate haborted
  | expired => rfl

theorem ends_expireAll (env : PairingEnv) (ids : List String) (db : TrustDb)
    (h : ∀ id ∈ ids, db.Expirable id) : Ends db (expirePairingTx env ids db).2 := by
  apply ends_transaction
  intro r db' hrun
  induction ids generalizing db with
  | nil =>
    simp only [expirePairingBody, Prog.run_commitWith_ok] at hrun
    obtain ⟨-, rfl⟩ := hrun
    exact Ends.refl db
  | cons id ids ih =>
    simp only [expirePairingBody, Prog.run_write_bind] at hrun
    have hhead := ends_expired (h id List.mem_cons_self)
    refine hhead.trans (ih (db.markPairingExpired id) ?_ hrun)
    intro id' hid'
    exact expirable_markPairingExpired (h id' (List.mem_cons_of_mem id hid'))

/-- A session read as open is open in its row. -/
theorem row_of_open {db : TrustDb} {id : String} {session : PairingSession}
    (hsession : db.getPairingSession id = some session) (hopen : session.state.isTerminal = false) :
    ∃ r, db.pairingSessions.lookup id = some r ∧ session = pairingSessionFromRow r ∧
      r.pairingState = .pending := by
  obtain ⟨r, hr, rfl⟩ := getPairingSession_eq_some hsession
  exact ⟨r, hr, rfl, PairingState.eq_pending hopen⟩

theorem ends_abort (env : PairingEnv) (id : String) (now : UInt64) (db : TrustDb) :
    Ends db (abortPairingTx env id now db).2 := by
  apply ends_transaction
  intro r db' h
  simp only [abortPairingBody, run_selectPairingSession_bind_ok, Prog.run_ensure_bind_ok,
    Prog.run_write_bind, Prog.run_commitWith_ok] at h
  obtain ⟨session, hsession, hopen, -, rfl⟩ := h
  obtain ⟨row, hrow, -, hpending⟩ := row_of_open hsession hopen
  refine ends_of_update .aborted rfl (fun _ => rfl) (fun _ => rfl) (fun _ => rfl) ?_ rfl
  intro id' r hr hp hterminal
  have hid : r.pairingId = id := by simpa using hp
  rw [← Table.lookup_key hr, hid, hrow] at hr
  cases hr
  rw [hpending] at hterminal
  cases hterminal

/-- The upsert of an identity touches one device. -/
theorem lookup_upsertPeerIdentity {row : DeviceIdentityRow} {db db' : TrustDb}
    (h : upsertPeerIdentity? row db = some db') :
    db'.pairingSessions = db.pairingSessions ∧ ∀ deviceId, deviceId ≠ row.deviceId →
      db'.deviceIdentities.lookup deviceId = db.deviceIdentities.lookup deviceId := by
  unfold upsertPeerIdentity? at h
  split at h
  · cases h
    refine ⟨rfl, fun deviceId hne => ?_⟩
    dsimp only
    split
    · rename_i deviceIdentities hinsert
      rw [Table.lookup_insert? hinsert, if_neg fun heq => hne heq.symm]
    · rw [Table.lookup_updateWhere]
      cases hother : db.deviceIdentities.lookup deviceId with
      | none => rfl
      | some r =>
        have hkey : r.deviceId ≠ row.deviceId := by
          rw [Table.lookup_key hother]
          exact hne
        simp [hkey]
  · cases h

theorem lookup_markPairingConfirmed (db : TrustDb) (id certificate : String) (now : UInt64)
    (id' : String) :
    (db.markPairingConfirmed id certificate now).pairingSessions.lookup id' =
      (db.pairingSessions.lookup id').map fun r =>
        if r.pairingId = id ∧ r.state = PairingState.pending.asStr then
          { r with
            state := PairingState.confirmed.asStr
            certificateJson := some certificate
            confirmedAtUnixSeconds := some (asI64 now) }
        else r := by
  unfold TrustDb.markPairingConfirmed TrustDb.updatePairingSessions
  rw [Table.lookup_updateWhere]
  simp only [Bool.and_eq_true, decide_eq_true_eq]

/-- The update of a confirmation looks at the state of what it writes. -/
theorem ends_markPairingConfirmed (db : TrustDb) (id certificate : String) (now : UInt64) :
    Ends db (db.markPairingConfirmed id certificate now) := by
  refine ends_of_update .confirmed rfl (fun _ => rfl) (fun _ => rfl) (fun _ => rfl) ?_ rfl
  intro id' r hr hp hterminal
  simp only [Bool.and_eq_true, decide_eq_true_eq] at hp
  have hstate : r.pairingState = .pending := by
    unfold PairingSessionRow.pairingState
    rw [hp.2, PairingState.parse_asStr]
  rw [hstate] at hterminal
  cases hterminal

theorem ends_confirm (env : PairingEnv) (id code certificate : String) (now : UInt64)
    (db : TrustDb) : Ends db (confirmPairingTx env id code certificate now db).2 := by
  unfold confirmPairingTx
  split
  · exact Ends.refl db
  · apply ends_transaction
    intro r db' h
    simp only [confirmPairingBody, run_selectPairingSession_bind_ok, Prog.run_ensure_bind_ok] at h
    obtain ⟨session, hsession, hopen, h⟩ := h
    obtain ⟨row, hrow, hread, hpending⟩ := row_of_open hsession hopen
    split at h
    · simp only [Prog.run_write_bind, Prog.run_commitWith_ok] at h
      obtain ⟨-, rfl⟩ := h
      apply ends_expired
      intro r hr
      cases hrow.symm.trans hr
      rw [hpending]
      exact ⟨PairingState.noConfusion, PairingState.noConfusion⟩
    · simp only [Prog.run_ensure_bind_ok, Prog.run_write_bind, Prog.run_attempt_bind_ok] at h
      obtain ⟨-, db₁, hupsert, h⟩ := h
      obtain ⟨_, metadata, -, h⟩ := run_onMetadata_bind_ok h
      simp only [Prog.run_commitWith_ok] at h
      obtain ⟨-, rfl⟩ := h
      obtain ⟨hsessions, hidentities⟩ := lookup_upsertPeerIdentity hupsert
      have hends : Ends db (db.markPairingConfirmed id certificate now) :=
        ends_markPairingConfirmed db id certificate now
      have hrow' := lookup_markPairingConfirmed db id certificate now id
      refine ⟨fun id' r hr => ?_, fun hwell id' r hr => ?_, fun hwell deviceId hne => ?_⟩
      · dsimp only
        rw [hsessions]
        exact hends.sessions id' r hr
      · dsimp only at hr
        rw [hsessions] at hr
        exact hends.wellFormed hwell id' r hr
      · have hdevice : deviceId = session.peerDeviceId := by
          by_contra hother
          exact hne (hidentities deviceId hother)
        have htext : row.state = PairingState.pending.asStr := by
          rw [hwell id row hrow, hpending]
        rw [hrow, Option.map_some, if_pos ⟨Table.lookup_key hrow, htext⟩] at hrow'
        refine ⟨id, ?_, _, by dsimp only; rw [hsessions]; exact hrow', ?_, ?_⟩
        · intro hconfirmed
          obtain ⟨r, hr, -, hstate⟩ := hconfirmed
          cases hrow.symm.trans hr
          rw [hpending] at hstate
          cases hstate
        · rw [hdevice, hread]
          rfl
        · exact PairingState.parse_asStr .confirmed

/-! ## Clients on one store -/

/-- The sessions that the next statement writes because they were read before. -/
def PairingCode.expiring : PairingCode → List String
  | expireAll ids => ids
  | _ => []

structure PairingSystem (ι : Type) where
  db : TrustDb
  client : ι → PairingCode

/-- A client that is not busy calls an operation, a client runs its next
statement, or a client dies. -/
inductive PairingEvent (ι : Type) where
  | call (i : ι) (code : PairingCode)
  | step (i : ι) (env : PairingEnv)
  | crash (i : ι) (e : DevRelayError)

namespace PairingSystem

variable {ι : Type} [DecidableEq ι]

def next (s : PairingSystem ι) : PairingEvent ι → PairingSystem ι
  | .call i code =>
    if (s.client i).isFinished && code.isEntry then
      { s with client := Function.update s.client i code }
    else
      s
  | .step i env =>
    let r := (s.client i).step env s.db
    { db := r.2, client := Function.update s.client i r.1 }
  | .crash i e =>
    { s with client := Function.update s.client i (.finished (.error e)) }

/-- A client starts the transaction of an expiry, and a session that it has read
as pending was confirmed or aborted meanwhile. -/
def Overtakes (s : PairingSystem ι) : PairingEvent ι → Prop
  | .step i _ => ∃ id ∈ (s.client i).expiring, ¬s.db.Expirable id
  | _ => False

instance (s : PairingSystem ι) (event : PairingEvent ι) : Decidable (s.Overtakes event) :=
  match event with
  | .call _ _ => inferInstanceAs (Decidable False)
  | .step i _ =>
    inferInstanceAs (Decidable (∃ id ∈ (s.client i).expiring, ¬s.db.Expirable id))
  | .crash _ _ => inferInstanceAs (Decidable False)

/-- The system after the first `n` events. -/
abbrev after (s : PairingSystem ι) (events : List (PairingEvent ι)) (n : Nat) :
    PairingSystem ι := stateAt next s events n

end PairingSystem

theorem ends_afterTx (r : Except DevRelayError Unit × TrustDb) (next : PairingCode) :
    (PairingCode.afterTx r next).2 = r.2 := by
  rcases r with ⟨_ | _, db⟩
  · rfl
  · rfl

/-- Every statement owes it, except the transaction of an expiry that was
overtaken. -/
theorem ends_step (env : PairingEnv) (code : PairingCode) (db : TrustDb)
    (h : ∀ id ∈ code.expiring, db.Expirable id) : Ends db (code.step env db).2 := by
  cases code with
  | start request =>
    have hends := ends_start env request db
    simp only [PairingCode.step]
    split
    · rename_i hstart
      rwa [hstart] at hends
    · rename_i hstart
      rwa [hstart] at hends
  | confirm pairingId observedCode certificateJson now =>
    simp only [PairingCode.step]
    rw [ends_afterTx]
    exact ends_confirm env pairingId observedCode certificateJson now db
  | abort pairingId now =>
    simp only [PairingCode.step]
    rw [ends_afterTx]
    exact ends_abort env pairingId now db
  | expire now =>
    simp only [PairingCode.step]
    split
    · exact Ends.refl db
    · exact Ends.refl db
  | expireAll ids =>
    simp only [PairingCode.step]
    rw [ends_afterTx]
    exact ends_expireAll env ids db h
  | reread missing ids sessions =>
    cases ids with
    | nil => exact Ends.refl db
    | cons id ids =>
      simp only [PairingCode.step]
      split
      · exact Ends.refl db
      · exact Ends.refl db
      · exact Ends.refl db
  | finished reply => exact Ends.refl db

namespace PairingSystem

variable {ι : Type} [DecidableEq ι]

theorem ends_next {s : PairingSystem ι} {event : PairingEvent ι}
    (h : ¬s.Overtakes event) : Ends s.db (s.next event).db := by
  cases event with
  | call i code =>
    simp only [next]
    split
    · exact Ends.refl s.db
    · exact Ends.refl s.db
  | step i env =>
    apply ends_step
    intro id hid
    by_contra hexpirable
    exact h ⟨id, hid, hexpirable⟩
  | crash i e => exact Ends.refl s.db

end PairingSystem

/-! ## The law -/

/-- A session that has ended keeps its state, and an identity changes only in a
step that confirms a session with that peer, for good. -/
structure PairingLaw {ι : Type} [DecidableEq ι] (s : PairingSystem ι)
    (events : List (PairingEvent ι)) : Prop where
  terminal : ∀ m n id r, m ≤ n → (s.after events m).db.pairingSessions.lookup id = some r →
    r.pairingState.isTerminal = true →
    ∃ r', (s.after events n).db.pairingSessions.lookup id = some r' ∧
      r'.pairingState = r.pairingState
  trusted : ∀ n deviceId, (s.after events (n + 1)).db.deviceIdentities.lookup deviceId ≠
      (s.after events n).db.deviceIdentities.lookup deviceId →
    ∃ id, ¬(s.after events n).db.Confirmed id deviceId ∧
      ∀ k, n < k → (s.after events k).db.Confirmed id deviceId

/-- The law holds of every interleaving in which no expiry is overtaken. -/
theorem pairing_terminality {ι : Type} [DecidableEq ι] (s : PairingSystem ι)
    (events : List (PairingEvent ι)) (hwell : s.db.WellFormed)
    (hsteps : ∀ n, (hn : n < events.length) → ¬(s.after events n).Overtakes events[n]) :
    PairingLaw s events := by
  have hends : ∀ n, (hn : n < events.length) →
      Ends (s.after events n).db ((s.after events n).next events[n]).db :=
    fun n hn => PairingSystem.ends_next (hsteps n hn)
  constructor
  · intro m n id r hmn hr hterminal
    apply stateAt_induction_from
      (P := fun t : PairingSystem ι => ∃ r', t.db.pairingSessions.lookup id = some r' ∧
        r'.pairingState = r.pairingState) ⟨r, hr, rfl⟩ _ hmn
    rintro i - hi ⟨r₁, hr₁, hstate₁⟩
    obtain ⟨r₂, hr₂, -, hkept⟩ := (hends i hi).sessions id r₁ hr₁
    refine ⟨r₂, hr₂, ?_⟩
    rw [hkept (by rw [hstate₁]; exact hterminal), hstate₁]
  · intro n deviceId hne
    by_cases hn : n < events.length
    · have hbefore : (s.after events n).db.WellFormed :=
        stateAt_induction (I := fun t : PairingSystem ι => t.db.WellFormed) hwell
          (fun i hi h => (hends i hi).wellFormed h) n
      have hnext : s.after events (n + 1) = (s.after events n).next events[n] :=
        stateAt_succ hn
      rw [hnext] at hne
      obtain ⟨id, hnot, hconfirmed⟩ := (hends n hn).identities hbefore deviceId hne
      refine ⟨id, hnot, fun k hk => ?_⟩
      apply stateAt_induction_from
        (P := fun t : PairingSystem ι => t.db.Confirmed id deviceId) _ _ hk
      · rw [← hnext] at hconfirmed
        exact hconfirmed
      · intro i _ hi h
        exact (hends i hi).confirmed h
    · refine absurd ?_ hne
      unfold PairingSystem.after
      rw [stateAt_of_length_le (by omega), stateAt_of_length_le (by omega)]

/-! ## The overtaken expiry -/

/-! ## Two clients -/

/-- A fabric, and a pending session that ends at time 100. -/
def demoPairingDb : TrustDb where
  metadata := demoStore
  fabricRoots := ⟨["fabric-1"], by decide⟩
  deviceIdentities := .empty
  pairingSessions := ⟨[{
    pairingId := "pair-1"
    fabricId := "fabric-1"
    localDeviceId := "device-a"
    peerDeviceId := "device-b"
    peerDisplayName := "laptop"
    peerSigningPublicKeyHex := "aaaaaaaaaaaaaaaaaaaaaaaaaaaaaaaaaaaaaaaaaaaaaaaaaaaaaaaaaaaaaaaa"
    peerNetworkPublicKeyHex := "bbbbbbbbbbbbbbbbbbbbbbbbbbbbbbbbbbbbbbbbbbbbbbbbbbbbbbbbbbbbbbbb"
    anchorAddress := none
    localEphemeralPublicKeyHex :=
      "cccccccccccccccccccccccccccccccccccccccccccccccccccccccccccccccc"
    peerEphemeralPublicKeyHex :=
      "dddddddddddddddddddddddddddddddddddddddddddddddddddddddddddddddd"
    transcriptHashHex := "00000000"
    shortAuthenticationString := "000000"
    state := "pending"
    certificateJson := none
    expiresAtUnixSeconds := 100
    confirmedAtUnixSeconds := none
    abortedAtUnixSeconds := none
    createdAtUnixSeconds := 40 }], by decide⟩
  commandTrustApprovals := []

def demoPairing : PairingSystem Bool where
  db := demoPairingDb
  client _ := .finished (.ok [])

def demoPairingEnv : PairingEnv where
  unixNowSeconds := 100
  generatedPairingId := "pair-2"
  ephemeralPublicKeyHex := .ok
    "cccccccccccccccccccccccccccccccccccccccccccccccccccccccccccccccc"
  transcriptDigest _ _ := "00000000"
  json := ⟨.ok, fun reason => "\x7b\"reason\":\"" ++ reason ++ "\"\x7d"⟩
  fault := noFault
  readFault := none

/-- One client confirms at the last moment, then the other expires. -/
def demoSerial : List (PairingEvent Bool) := [
  .call false (.confirm "pair-1" "000000" "\x7b\x7d" 100),
  .step false demoPairingEnv,
  .call true (.expire 101),
  .step true demoPairingEnv,
  .step true demoPairingEnv]

/-- The confirmation comes between the read of the expiry and its transaction. -/
def demoOvertaken : List (PairingEvent Bool) := [
  .call false (.confirm "pair-1" "000000" "\x7b\x7d" 100),
  .call true (.expire 101),
  .step true demoPairingEnv,
  .step false demoPairingEnv,
  .step true demoPairingEnv]

/-- Nothing is overtaken, the session ends confirmed, and its peer is trusted. -/
theorem pairing_terminality_demo :
    PairingLaw demoPairing demoSerial ∧
    ((demoPairing.after demoSerial 1).db.deviceIdentities.lookup "device-b").isSome = false ∧
    ((demoPairing.after demoSerial 5).db.deviceIdentities.lookup "device-b").isSome = true ∧
    ((demoPairing.after demoSerial 5).db.pairingSessions.lookup "pair-1").map
      PairingSessionRow.pairingState = some .confirmed := by
  refine ⟨pairing_terminality demoPairing demoSerial ?_ ?_, by decide,
    by decide, by decide⟩
  · intro id r hr
    have hrows : ∀ row ∈ demoPairingDb.pairingSessions.rows,
        row.state = row.pairingState.asStr := by decide
    exact hrows r (Table.mem_of_lookup hr)
  · decide

/-- The confirmed session is expired afterwards, and its peer stays trusted. -/
theorem overtaken_expires : ¬PairingLaw demoPairing demoOvertaken := by
  intro hlaw
  have hconfirmed : ((demoPairing.after demoOvertaken 4).db.pairingSessions.lookup
      "pair-1").map PairingSessionRow.pairingState = some .confirmed := by decide
  have hexpired : ((demoPairing.after demoOvertaken 5).db.pairingSessions.lookup
      "pair-1").map PairingSessionRow.pairingState = some .expired := by decide
  obtain ⟨r, hr, hstate⟩ := Option.map_eq_some_iff.mp hconfirmed
  obtain ⟨r', hr', hstate'⟩ := hlaw.terminal 4 5 "pair-1" r (by omega) hr
    (by rw [hstate]; rfl)
  rw [hr', Option.map_some, hstate', hstate] at hexpired
  cases hexpired

end DevRelay.Trust
