import DevRelay.Storage.CommitSafety

/-!
# The journal of a handoff

State and journal of a handoff are written by separate statements.  Seen
together they are a `Life`; a journaled step moves both.  Two ways of changing
one without the other are left: a commit that is rejected for expiry or for a
changed generation writes no entry, and a target apply can still be noted after
the target was verified.  Without them the journal tells the whole path.
-/

namespace DevRelay.Storage

open DevRelay.Lib DevRelay.Core

/-! ## Reading the journal -/

def handoffJournalRecordFromRow (row : HandoffJournalRow) : HandoffJournalRecord where
  journalId := row.journalId
  handoffId := row.handoffId
  leaseId := row.leaseId
  projectId := row.projectId
  phase := HandoffJournalPhase.parse row.phase
  detailJson := row.detailJson
  createdAtUnixSeconds := clampU64 row.createdAtUnixSeconds

namespace MetadataDb

/-- The rows are kept in the order of their identifiers. -/
def listHandoffJournal (db : MetadataDb) (handoffId : String) : List HandoffJournalRecord :=
  (db.handoffJournal.filter fun r => r.handoffId = handoffId).map
    handoffJournalRecordFromRow

def phases (db : MetadataDb) (handoffId : String) : List HandoffJournalPhase :=
  (db.listHandoffJournal handoffId).map HandoffJournalRecord.phase

theorem phases_journaled (db : MetadataDb) (handoff : HandoffRecord)
    (phase : HandoffJournalPhase) (detailJson : String) (createdAt : UInt64) (handoffId : String) :
    (db.journaled handoff phase detailJson createdAt).phases handoffId =
      if handoff.handoffId = handoffId then db.phases handoffId ++ [phase]
      else db.phases handoffId := by
  unfold phases listHandoffJournal journaled
  by_cases hid : handoff.handoffId = handoffId
  · simp [List.filter_append, hid, handoffJournalRecordFromRow]
  · simp [List.filter_append, hid]

end MetadataDb

/-! ## The life of a handoff -/

/-- The entry that a state is entered with. -/
def HandoffState.entry : HandoffState → HandoffJournalPhase
  | .targetPrepare => .targetPrepare
  | .targetVerified => .targetVerified
  | .sourceReady => .sourceReady
  | .committed => .leaseCommitted
  | .aborted => .aborted

/-- The entries that a handoff in this state may end with. -/
def EntryOf (state : HandoffState) (phase : HandoffJournalPhase) : Prop :=
  phase = HandoffState.entry state ∨ (state = .targetPrepare ∧ phase = .targetApply)

/-- The transitions of the state machine. -/
inductive Follows : HandoffState → HandoffState → Prop where
  | verify : Follows .targetPrepare .targetVerified
  | ready : Follows .targetVerified .sourceReady
  | commit : Follows .sourceReady .committed
  | abort {state : HandoffState} (hopen : state.isTerminal = false) : Follows state .aborted

/-- State and journal of one handoff. -/
@[ext]
structure Life where
  state : Option HandoffState
  phases : List HandoffJournalPhase

def MetadataDb.life (db : MetadataDb) (handoffId : String) : Life where
  state := (db.getHandoff handoffId).map HandoffRecord.state
  phases := db.phases handoffId

namespace Life

/-- The steps that write state and journal together. -/
inductive Step : Life → Life → Prop where
  | begin (phases : List HandoffJournalPhase) :
      Step ⟨none, phases⟩ ⟨some .targetPrepare, phases ++ [.begin, .targetPrepare]⟩
  | note (phases : List HandoffJournalPhase) :
      Step ⟨some .targetPrepare, phases⟩ ⟨some .targetPrepare, phases ++ [.targetApply]⟩
  | enter {state next : HandoffState} (phases : List HandoffJournalPhase)
      (hnext : Follows state next) :
      Step ⟨some state, phases⟩ ⟨some next, phases ++ [HandoffState.entry next]⟩

/-- The entries of a path, without the notes of target applies. -/
def entries (path : List HandoffState) : List HandoffJournalPhase :=
  if path = [] then [] else .begin :: path.map HandoffState.entry

/-- The journal tells the path, and ends with an entry of the current state. -/
structure Told (life : Life) (path : List HandoffState) : Prop where
  current : path.getLast? = life.state
  path : life.phases.filter (fun phase => phase ≠ .targetApply) = entries path
  last : ∀ state, life.state = some state →
    ∃ phase, life.phases.getLast? = some phase ∧ EntryOf state phase

/-- The path after one more state was seen. -/
def seen (path : List HandoffState) (state : Option HandoffState) : List HandoffState :=
  match state with
  | none => path
  | some state => if path.getLast? = some state then path else path ++ [state]

theorem seen_current {path : List HandoffState} {state : Option HandoffState}
    (h : path.getLast? = state) : seen path state = path := by
  unfold seen
  split
  · rfl
  · rw [if_pos h]

theorem Told.same {life : Life} {path : List HandoffState} (h : life.Told path) :
    life.Told (seen path life.state) := by
  rw [seen_current h.current]
  exact h

theorem entries_append {path : List HandoffState} {state next : HandoffState}
    (h : path.getLast? = some state) :
    entries (path ++ [next]) = entries path ++ [HandoffState.entry next] := by
  have hne : path ≠ [] := by
    rintro rfl
    cases h
  unfold entries
  rw [if_neg hne, if_neg (by simp), List.map_append]
  rfl

theorem entry_ne_targetApply (state : HandoffState) : HandoffState.entry state ≠ .targetApply := by
  cases state <;> exact HandoffJournalPhase.noConfusion

theorem ne_of_follows {state next : HandoffState} (h : Follows state next) : state ≠ next := by
  cases h with
  | verify => exact HandoffState.noConfusion
  | ready => exact HandoffState.noConfusion
  | commit => exact HandoffState.noConfusion
  | abort hopen =>
    rintro rfl
    cases hopen

/-- A step that writes both keeps the journal telling the path. -/
theorem Step.told {life life' : Life} {path : List HandoffState} (hstep : Step life life')
    (h : life.Told path) : life'.Told (seen path life'.state) := by
  cases hstep with
  | begin phases =>
    have hpath : path = [] := List.getLast?_eq_none_iff.mp h.current
    subst hpath
    have hphases := h.path
    refine ⟨rfl, ?_, ?_⟩
    · dsimp only at hphases ⊢
      rw [List.filter_append, hphases]
      rfl
    · intro state hstate
      cases hstate
      exact ⟨.targetPrepare, by simp, Or.inl rfl⟩
  | note phases =>
    rw [seen_current h.current]
    refine ⟨h.current, ?_, ?_⟩
    · have hphases := h.path
      dsimp only at hphases ⊢
      rw [List.filter_append, hphases]
      simp
    · intro state hstate
      cases hstate
      exact ⟨.targetApply, by simp, Or.inr ⟨rfl, rfl⟩⟩
  | @enter state next phases hnext =>
    have hcurrent : path.getLast? = some state := h.current
    have hseen : seen path (some next) = path ++ [next] := by
      unfold seen
      dsimp only
      rw [if_neg]
      rw [hcurrent]
      intro heq
      exact ne_of_follows hnext (Option.some.inj heq)
    have hphases := h.path
    rw [hseen]
    refine ⟨by simp, ?_, ?_⟩
    · dsimp only at hphases ⊢
      rw [List.filter_append, hphases, entries_append hcurrent]
      simp [entry_ne_targetApply]
    · intro state' hstate
      cases hstate
      exact ⟨HandoffState.entry next, by simp, Or.inl rfl⟩

end Life

/-! ## The calls -/

/-- The call rejects a source-ready handoff: a commit for expiry or for a changed
generation, a recovery for a changed generation. -/
def RejectsCommit (db : MetadataDb) (call : Call) : Prop :=
  match call.op with
  | .commitHandoff handoffId observed now
  | .commitHandoffWithSnapshotPreflight handoffId observed now _ =>
    ∃ h, db.getHandoff handoffId = some h ∧ h.state = .sourceReady ∧
      (now > h.expiresAtUnixSeconds ∨ observed ≠ h.sourceGeneration)
  | .recoverHandoff handoffId observed now =>
    ∃ h, db.getHandoff handoffId = some h ∧ h.state = .sourceReady ∧
      now ≤ h.expiresAtUnixSeconds ∧ observed ≠ h.sourceGeneration
  | _ => False

/-- The call notes a target apply for a handoff that was verified before. -/
def AppliesLate (db : MetadataDb) (call : Call) : Prop :=
  match call.op with
  | .recordHandoffTargetApply handoffId detailJson =>
    (∃ detail, normalizeJournalDetail call.env.json detailJson = .ok detail) ∧
      ∃ h, db.getHandoff handoffId = some h ∧
        (h.state = .targetVerified ∨ h.state = .sourceReady)
  | _ => False

instance decidableReturns {ε α : Type} (r : Except ε α) : Decidable (∃ a, r = .ok a) :=
  match r with
  | .ok a => isTrue ⟨a, rfl⟩
  | .error _ => isFalse fun h => by
    obtain ⟨_, h⟩ := h
    cases h

instance decidableHolds {α : Type} (o : Option α) (p : α → Prop) [DecidablePred p] :
    Decidable (∃ a, o = some a ∧ p a) :=
  decidable_of_iff (∃ a ∈ o, p a) Iff.rfl

instance (db : MetadataDb) (call : Call) : Decidable (RejectsCommit db call) := by
  unfold RejectsCommit
  split <;> infer_instance

instance (db : MetadataDb) (call : Call) : Decidable (AppliesLate db call) := by
  unfold AppliesLate
  split <;> infer_instance

section

variable {db db' : MetadataDb}

/-- A write of one handoff and of its journal, on the lives. -/
private theorem life_of_assign {key : String} {h : HandoffRecord}
    {entries : List HandoffJournalPhase} (hhandoff : db'.getHandoff = assign db.getHandoff key h)
    (hphases : ∀ id, db'.phases id =
      if key = id then db.phases id ++ entries else db.phases id) (id : String) :
    db'.life id = if key = id then ⟨some h.state, db.phases id ++ entries⟩ else db.life id := by
  unfold MetadataDb.life
  rw [hhandoff, hphases]
  by_cases hid : key = id
  · subst hid
    rw [if_pos rfl, if_pos rfl, assign_self, Option.map_some]
  · rw [if_neg hid, if_neg hid, assign_of_ne (fun heq => hid heq.symm)]

private theorem life_of_same (hhandoffs : db'.handoffs = db.handoffs)
    (hjournal : db'.handoffJournal = db.handoffJournal) (id : String) :
    db'.life id = db.life id := by
  unfold MetadataDb.life MetadataDb.getHandoff MetadataDb.phases MetadataDb.listHandoffJournal
  rw [hhandoffs, hjournal]

/-- A handoff enters its next state together with the entry of that state. -/
private theorem life_enter {h : HandoffRecord} {next : HandoffState}
    (hstored : db.getHandoff h.handoffId = some h) (hnext : Follows h.state next)
    (hhandoff : db'.getHandoff = assign db.getHandoff h.handoffId { h with state := next })
    (hphases : ∀ id, db'.phases id = if h.handoffId = id then
      db.phases id ++ [HandoffState.entry next] else db.phases id) (id : String) :
    db'.life id = db.life id ∨ Life.Step (db.life id) (db'.life id) := by
  rw [life_of_assign hhandoff hphases id]
  by_cases hid : h.handoffId = id
  · subst hid
    rw [if_pos rfl]
    right
    unfold MetadataDb.life
    rw [hstored]
    exact .enter _ hnext
  · rw [if_neg hid]
    exact Or.inl rfl

theorem handoff_abortWrites {h : HandoffRecord} (now : UInt64)
    (hstored : db.getHandoff h.handoffId = some h) :
    (db.abortWrites h now).getHandoff =
      assign db.getHandoff h.handoffId { h with state := .aborted } :=
  congrArg Ledger.handoff (MetadataDb.ledger_abortWrites now hstored)

/-- An abort with its entry. -/
private theorem life_abort {h : HandoffRecord} {detail : String} {now : UInt64}
    (hstored : db.getHandoff h.handoffId = some h) (hopen : h.state.isTerminal = false)
    (hdb : db' = (db.abortWrites h now).journaled { h with state := .aborted } .aborted
      detail now) (id : String) :
    db'.life id = db.life id ∨ Life.Step (db.life id) (db'.life id) := by
  apply life_enter hstored (.abort hopen)
  · rw [hdb]
    exact handoff_abortWrites now hstored
  · intro id
    rw [hdb, MetadataDb.phases_journaled]
    rfl

private theorem life_begin {env : Env} {leaseId source target generation : String}
    {ttl : UInt64} (id : String) :
    let db' := (beginHandoff env leaseId source target generation ttl db).2
    db'.life id = db.life id ∨ Life.Step (db.life id) (db'.life id) := by
  intro db'
  rcases beginHandoff_cases env leaseId source target generation ttl db with
    ⟨e, heq⟩ | ⟨l, handoffs, -, -, -, -, -, -, hinsert, heq⟩
  · left
    exact congrArg (fun r => MetadataDb.life r.2 id) heq
  · generalize hrecord : beginHandoffRecord env l leaseId source target generation ttl = h
      at hinsert heq
    have hdb : db' = ({ db with handoffs } : MetadataDb).beginWrites h env.unixNowSeconds :=
      congrArg Prod.snd heq
    have hstate : (handoffRecordFromRow (handoffRowOf h env.unixNowSeconds)).state =
        .targetPrepare := by
      rw [← hrecord]
      rfl
    have hfresh : db.getHandoff h.handoffId = none := by
      rw [MetadataDb.getHandoff, Option.map_eq_none_iff]
      exact (Table.insert?_eq_some.mp hinsert).1
    have hhandoff : db'.getHandoff = assign db.getHandoff h.handoffId
        (handoffRecordFromRow (handoffRowOf h env.unixNowSeconds)) := by
      rw [hdb]
      exact congrArg Ledger.handoff (MetadataDb.ledger_begin rfl hinsert _)
    have hphases : ∀ id, db'.phases id = if h.handoffId = id then
        db.phases id ++ [.begin, .targetPrepare] else db.phases id := by
      intro id
      rw [hdb]
      change (((({ db with handoffs } : MetadataDb).journaled h .begin "{}"
        env.unixNowSeconds).journaled h .targetPrepare "{}" env.unixNowSeconds).phases id) = _
      rw [MetadataDb.phases_journaled, MetadataDb.phases_journaled]
      by_cases hid : h.handoffId = id
      · rw [if_pos hid, if_pos hid, if_pos hid, List.append_assoc]
        rfl
      · rw [if_neg hid, if_neg hid, if_neg hid]
        rfl
    rw [life_of_assign hhandoff hphases id]
    by_cases hid : h.handoffId = id
    · subst hid
      rw [if_pos rfl, hstate]
      right
      unfold MetadataDb.life
      rw [hfresh]
      exact .begin _
    · rw [if_neg hid]
      exact Or.inl rfl

private theorem life_mark {env : Env} {handoffId : String} {expected next : HandoffState}
    (hnext : Follows expected next) (id : String) :
    let db' := (updateHandoffState env handoffId expected next (HandoffState.entry next) db).2
    db'.life id = db.life id ∨ Life.Step (db.life id) (db'.life id) := by
  intro db'
  rcases updateHandoffState_cases env handoffId expected next (HandoffState.entry next) db with
    ⟨e, heq⟩ | ⟨h, hstored, hstate, hcount, heq⟩
  · left
    exact congrArg (fun r => MetadataDb.life r.2 id) heq
  · have hdb := congrArg Prod.snd heq
    have hid := MetadataDb.handoffId_of_getHandoff hstored
    subst hid hstate
    apply life_enter hstored hnext
    · rw [show db' = _ from hdb]
      exact congrArg Ledger.handoff (MetadataDb.ledger_advanceHandoff next hstored hcount)
    · intro id
      rw [show db' = _ from hdb, MetadataDb.phases_journaled]
      rfl

private theorem life_apply {env : Env} {handoffId : String} {detailJson : Option String}
    {reread : Option DevRelayError}
    (hlate : ¬AppliesLate db ⟨env, .recordHandoffTargetApply handoffId detailJson, reread⟩)
    (id : String) :
    let db' := (recordHandoffTargetApply env handoffId detailJson db).2
    db'.life id = db.life id ∨ Life.Step (db.life id) (db'.life id) := by
  intro db'
  rcases recordHandoffTargetApply_cases env handoffId detailJson db with
    ⟨e, heq⟩ | ⟨h, detail, record, hdetail, hstored, hopen, heq⟩
  · left
    exact congrArg (fun r => MetadataDb.life r.2 id) heq
  · have hdb : db' = db.journaled h .targetApply detail env.unixNowSeconds :=
      congrArg Prod.snd heq
    have hid := MetadataDb.handoffId_of_getHandoff hstored
    subst hid
    have hprepare : h.state = .targetPrepare := by
      cases hstate : h.state with
      | targetPrepare => rfl
      | targetVerified => exact absurd ⟨⟨detail, hdetail⟩, h, hstored, Or.inl hstate⟩ hlate
      | sourceReady => exact absurd ⟨⟨detail, hdetail⟩, h, hstored, Or.inr hstate⟩ hlate
      | committed =>
        rw [hstate] at hopen
        cases hopen
      | aborted =>
        rw [hstate] at hopen
        cases hopen
    by_cases hid : h.handoffId = id
    · subst hid
      right
      rw [hdb]
      unfold MetadataDb.life
      rw [MetadataDb.phases_journaled, if_pos rfl, hstored, Option.map_some, hprepare,
        show (db.journaled h .targetApply detail env.unixNowSeconds).getHandoff h.handoffId =
          some h from hstored, Option.map_some, hprepare]
      exact .note _
    · left
      rw [hdb]
      unfold MetadataDb.life
      rw [MetadataDb.phases_journaled, if_neg hid]
      rfl

/-- A commit that rejects nothing. -/
private theorem life_commit {env : Env} {reread : Option DevRelayError}
    {handoffId observed : String} {now : UInt64} {preflight : Option HandoffCommitSnapshotPreflight}
    (hkept : ∀ h, db.getHandoff handoffId = some h → h.state = .sourceReady →
      ¬(now > h.expiresAtUnixSeconds ∨ observed ≠ h.sourceGeneration)) (id : String) :
    let db' := (commitHandoffInner env reread handoffId observed now preflight db).2
    db'.life id = db.life id ∨ Life.Step (db.life id) (db'.life id) := by
  intro db'
  rcases commitHandoffInner_cases env reread handoffId observed now preflight db with
    ⟨e, heq⟩ | ⟨h, reason, hstored, hready, hreason, heq⟩ |
    ⟨h, audit, db₁, hstored, hadmitted, hdb₁, heq⟩
  · left
    exact congrArg (fun r => MetadataDb.life r.2 id) heq
  · refine absurd ?_ (hkept h hstored hready)
    unfold commitAbortReason at hreason
    split at hreason
    · rename_i hexpired
      exact Or.inl hexpired
    · split at hreason
      · rename_i hgeneration
        exact Or.inr hgeneration
      · cases hreason
  · have hdb : db' = db₁ := congrArg Prod.snd heq
    have hid := MetadataDb.handoffId_of_getHandoff hstored
    subst hid
    apply life_enter hstored
    · rw [hadmitted.sourceReady]
      exact .commit
    · rw [hdb, hdb₁]
      exact congrArg Ledger.handoff
        (MetadataDb.ledger_commitWrites now hstored hadmitted.transferable)
    · intro id
      rw [hdb, hdb₁]
      exact MetadataDb.phases_journaled (db.commitWrites h now) _ .leaseCommitted _ _ id

private theorem life_recover {env : Env} {reread : Option DevRelayError}
    {handoffId observed : String} {now : UInt64}
    (hkept : ∀ h, db.getHandoff handoffId = some h → h.state = .sourceReady →
      ¬(now ≤ h.expiresAtUnixSeconds ∧ observed ≠ h.sourceGeneration)) (id : String) :
    let db' := (recoverHandoff env reread handoffId observed now db).2
    db'.life id = db.life id ∨ Life.Step (db.life id) (db'.life id) := by
  intro db'
  rcases recoverHandoff_cases env reread handoffId observed now db with
    ⟨reply, heq⟩ | ⟨h, detail, hstored, hopen, -, heq⟩ | ⟨reply, db₁, hlive, hcommit, heq⟩
  · left
    exact congrArg (fun r => MetadataDb.life r.2 id) heq
  · have hid := MetadataDb.handoffId_of_getHandoff hstored
    subst hid
    exact life_abort hstored hopen (congrArg Prod.snd heq) id
  · have hdb : db' = (commitHandoffInner env reread handoffId observed now none db).2 :=
      (congrArg Prod.snd heq).trans (congrArg Prod.snd hcommit).symm
    rw [hdb]
    refine life_commit (fun h hstored hready hreject => hkept h hstored hready ?_) id
    have hle := hlive h hstored
    rcases hreject with hexpired | hgeneration
    · exact absurd hexpired (UInt64.not_lt.mpr hle)
    · exact ⟨hle, hgeneration⟩

private theorem life_abortAt {env : Env} {handoffId reason : String} {now : UInt64} (id : String) :
    let db' := (abortHandoffAt env handoffId now reason db).2
    db'.life id = db.life id ∨ Life.Step (db.life id) (db'.life id) := by
  intro db'
  rcases abortHandoffAt_cases env handoffId now reason db with
    ⟨e, heq⟩ | ⟨h, -, -, heq⟩ | ⟨h, detail, hstored, hopen, heq⟩
  · left
    exact congrArg (fun r => MetadataDb.life r.2 id) heq
  · left
    exact congrArg (fun r => MetadataDb.life r.2 id) heq
  · have hid := MetadataDb.handoffId_of_getHandoff hstored
    subst hid
    exact life_abort hstored hopen (congrArg Prod.snd heq) id

/-- The calls that write no handoff and no journal. -/
private theorem life_publish {env : Env} {request : CanonicalPublishRequest} (id : String) :
    (publishSnapshotCanonical env request db).2.life id = db.life id := by
  rcases publishSnapshotCanonical_cases env request db with
    ⟨e, heq⟩ | ⟨l, snapshots, audit, -, -, ⟨e, -, heq⟩ | ⟨result, -, heq⟩⟩
  · rw [heq]
  · rw [heq]
    exact life_of_same rfl rfl id
  · rw [heq]
    exact life_of_same rfl rfl id

private theorem life_fork {env : Env} {request : InactiveForkPublishRequest} (id : String) :
    (publishInactiveSnapshotAsFork env request db).2.life id = db.life id := by
  rcases publishInactiveSnapshotAsFork_cases env request db with
    ⟨e, heq⟩ | ⟨l, parent, sessions, snapshots, audit, result, -, -, -, heq⟩
  · rw [heq]
  · rw [heq]
    exact life_of_same rfl rfl id

private theorem life_revoke {env : Env} {deviceId revokedBy reason : String} {rotate : Bool}
    (id : String) :
    (revokeDevice env deviceId revokedBy reason rotate db).2.life id = db.life id := by
  rcases revokeDevice_cases env deviceId revokedBy reason rotate db with
    ⟨e, heq⟩ | ⟨record, revocations, audit, heq⟩
  · rw [heq]
  · rw [heq]
    exact life_of_same rfl rfl id

private theorem life_upsert {env : Env} {lease : LeaseRecord} (id : String) :
    (upsertLease env lease db).2.life id = db.life id := by
  have hrow : ∀ row : LeaseRow, ∀ db' ∈ upsertLeaseRow? row db, db'.life id = db.life id := by
    intro row db' hdb'
    unfold upsertLeaseRow? at hdb'
    split at hdb'
    · split at hdb'
      · cases hdb'
        exact life_of_same rfl rfl id
      · cases hdb'
        exact life_of_same rfl rfl id
    · cases hdb'
  unfold upsertLease
  cases hfault : env.fault 0 with
  | some e => simp [Prog.attempt, Prog.exec, hfault]
  | none =>
    cases hupsert : upsertLeaseRow? (leaseRowOf lease) db with
    | none => simp [Prog.attempt, Prog.exec, hfault, hupsert]
    | some db' =>
      have hlife := hrow _ db' hupsert
      simpa [Prog.attempt, Prog.exec, hfault, hupsert] using hlife

/-- A call that neither rejects a commit nor notes a late apply writes state and
journal together. -/
theorem step_life {call : Call} (hreject : ¬RejectsCommit db call)
    (hlate : ¬AppliesLate db call) (id : String) :
    (step db call).life id = db.life id ∨ Life.Step (db.life id) ((step db call).life id) := by
  obtain ⟨env, op, reread⟩ := call
  cases op with
  | beginHandoff leaseId source target generation ttl => exact life_begin id
  | recordHandoffTargetApply handoffId detailJson => exact life_apply hlate id
  | markHandoffTargetVerified handoffId => exact life_mark .verify id
  | markHandoffSourceReady handoffId => exact life_mark .ready id
  | commitHandoff handoffId observed now =>
    exact life_commit (fun h hstored hready hbad =>
      hreject ⟨h, hstored, hready, hbad⟩) id
  | commitHandoffWithSnapshotPreflight handoffId observed now preflight =>
    exact life_commit (fun h hstored hready hbad =>
      hreject ⟨h, hstored, hready, hbad⟩) id
  | recoverHandoff handoffId observed now =>
    exact life_recover (fun h hstored hready hbad =>
      hreject ⟨h, hstored, hready, hbad⟩) id
  | abortHandoff handoffId => exact life_abortAt id
  | abortHandoffWithReason handoffId reason => exact life_abortAt id
  | publishSnapshotCanonical request => exact Or.inl (life_publish id)
  | publishInactiveSnapshotAsFork request => exact Or.inl (life_fork id)
  | revokeDevice deviceId revokedBy reason rotate => exact Or.inl (life_revoke id)

end

/-! ## Runs -/

/-- The states a handoff has gone through in the first `n` calls. -/
def pathAt (db : MetadataDb) (calls : List LeaseCall) (handoffId : String) :
    Nat → List HandoffState
  | 0 => Life.seen [] (db.life handoffId).state
  | n + 1 =>
    Life.seen (pathAt db calls handoffId n)
      ((leaseStoreAt db calls (n + 1)).life handoffId).state

/-- The journal of every handoff tells the path it took, and ends with an entry
of the state it is in. -/
def JournalLaw (db : MetadataDb) (calls : List LeaseCall) : Prop :=
  ∀ n handoffId h, (leaseStoreAt db calls n).getHandoff handoffId = some h →
    ((leaseStoreAt db calls n).phases handoffId).filter
        (fun phase => phase ≠ .targetApply) =
      .begin :: (pathAt db calls handoffId n).map HandoffState.entry ∧
    ∃ phase, ((leaseStoreAt db calls n).phases handoffId).getLast? = some phase ∧
      EntryOf h.state phase

/-- The call changes a state without an entry, or enters a note out of turn. -/
def Unjournaled (db : MetadataDb) : LeaseCall → Prop
  | .upsertLease _ _ => False
  | .call call => RejectsCommit db call ∨ AppliesLate db call

instance (db : MetadataDb) (call : LeaseCall) : Decidable (Unjournaled db call) :=
  match call with
  | .upsertLease _ _ => inferInstanceAs (Decidable False)
  | .call call => inferInstanceAs (Decidable (RejectsCommit db call ∨ AppliesLate db call))

/-- A store in which no handoff was begun yet. -/
structure MetadataDb.NoHandoffs (db : MetadataDb) : Prop where
  handoffs : db.handoffs.rows = []
  journal : db.handoffJournal = []

theorem leaseStep_life {db : MetadataDb} {call : LeaseCall} (h : ¬Unjournaled db call)
    (id : String) :
    (leaseStep db call).life id = db.life id ∨
      Life.Step (db.life id) ((leaseStep db call).life id) := by
  cases call with
  | upsertLease env lease => exact Or.inl (life_upsert id)
  | call call =>
    exact step_life (fun hreject => h (Or.inl hreject)) (fun hlate => h (Or.inr hlate)) id

theorem told_of_noHandoffs {db : MetadataDb} (hnew : db.NoHandoffs) (id : String) :
    (db.life id).Told (Life.seen [] (db.life id).state) := by
  have hstate : (db.life id).state = none := by
    unfold MetadataDb.life MetadataDb.getHandoff Table.lookup
    rw [hnew.handoffs]
    rfl
  have hphases : (db.life id).phases = [] := by
    unfold MetadataDb.life MetadataDb.phases MetadataDb.listHandoffJournal
    rw [hnew.journal]
    rfl
  rw [hstate]
  refine ⟨hstate.symm, ?_, ?_⟩
  · rw [hphases]
    rfl
  · intro state hsome
    rw [hstate] at hsome
    cases hsome

theorem storeAt_told {db : MetadataDb} {calls : List LeaseCall} (hnew : db.NoHandoffs)
    (hjournaled : ∀ n (hn : n < calls.length),
      ¬Unjournaled (leaseStoreAt db calls n) calls[n]) (id : String) (n : Nat) :
    ((leaseStoreAt db calls n).life id).Told (pathAt db calls id n) := by
  induction n with
  | zero => exact told_of_noHandoffs hnew id
  | succ n ih =>
    unfold pathAt
    by_cases hn : n < calls.length
    · rw [leaseStoreAt_succ hn]
      rcases leaseStep_life (hjournaled n hn) id with hsame | hstep
      · rw [hsame]
        exact ih.same
      · exact hstep.told ih
    · have hsame : leaseStoreAt db calls (n + 1) = leaseStoreAt db calls n := by
        rw [leaseStoreAt, leaseStoreAt, stateAt_of_length_le (by omega),
          stateAt_of_length_le (by omega)]
      rw [hsame]
      exact ih.same

/-- From a store without handoffs, every journal is complete at every point of a
run in which no commit is rejected for expiry or for a changed generation and
no target apply is noted after the verification. -/
theorem journal_complete (db : MetadataDb) (calls : List LeaseCall) (hnew : db.NoHandoffs)
    (hjournaled : ∀ n (hn : n < calls.length), ¬Unjournaled (leaseStoreAt db calls n) calls[n]) :
    JournalLaw db calls := by
  intro n handoffId h hstored
  have htold := storeAt_told hnew hjournaled handoffId n
  have hstate : ((leaseStoreAt db calls n).life handoffId).state = some h.state := by
    unfold MetadataDb.life
    rw [hstored, Option.map_some]
  have hpath : pathAt db calls handoffId n ≠ [] := by
    intro hempty
    have hcurrent := htold.current
    rw [hempty, hstate] at hcurrent
    cases hcurrent
  constructor
  · have hentries := htold.path
    rw [Life.entries, if_neg hpath] at hentries
    exact hentries
  · exact htold.last h.state hstate

/-- The demo handoff with its last call replaced by a commit that observes another
generation. -/
def demoRejected : List LeaseCall :=
  (demoHandoff.take 4).map .call ++ [.call ⟨demoEnv 140, .commitHandoff "ho_1" "gen-2" 140, none⟩]

theorem demoStore_noHandoffs : demoStore.NoHandoffs := ⟨rfl, rfl⟩

/-- The journal of the demo handoff. -/
theorem journal_complete_demo :
    JournalLaw demoStore (demoHandoff.map .call) ∧
    (leaseStoreAt demoStore (demoHandoff.map .call) 5).phases "ho_1" =
      [.begin, .targetPrepare, .targetApply, .targetVerified, .sourceReady, .leaseCommitted] := by
  constructor
  · apply journal_complete demoStore _ demoStore_noHandoffs
    decide
  · decide

/-- A rejected commit aborts the handoff, and its journal ends with the entry of
the phase before. -/
theorem journal_ends_sourceReady : ¬JournalLaw demoStore demoRejected := by
  intro hlaw
  obtain ⟨h, hstored, hstate⟩ : (leaseStoreAt demoStore demoRejected 5).InPhase "ho_1"
    .aborted := by decide
  obtain ⟨-, phase, hlast, hentry⟩ := hlaw 5 "ho_1" h hstored
  have hready : ((leaseStoreAt demoStore demoRejected 5).phases "ho_1").getLast? =
    some .sourceReady := by decide
  rw [hready] at hlast
  cases hlast
  rw [hstate] at hentry
  rcases hentry with hentry | ⟨hentry, -⟩
  · cases hentry
  · cases hentry

end DevRelay.Storage
