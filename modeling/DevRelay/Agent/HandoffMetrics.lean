import DevRelay.Agent.Effects

/-!
# Handoff metrics

`metrics.rs` counts handoffs and measures their phases from the handoffs and the journals
in the store.  The counts are those of the paths the handoffs took, whatever was left out
of the journals, and the phases of a handoff add up to its whole time.
-/

namespace DevRelay.Agent

open DevRelay.Lib DevRelay.Core DevRelay.Storage

/-! ## Metrics -/

structure LocalMetricsHandoffInput where
  record : HandoffRecord
  journal : List HandoffJournalRecord
  deriving DecidableEq

structure VerifiedContinuationMetrics where
  handoffAttempts : Nat
  verifiedAttempts : Nat
  successes : Nat
  aborted : Nat
  deriving DecidableEq, Repr

structure HandoffPhaseDurationMetric where
  projectId : String
  handoffId : String
  fromPhase : HandoffJournalPhase
  toPhase : HandoffJournalPhase
  durationSeconds : UInt64
  deriving DecidableEq

structure HandoffTotalDurationMetric where
  projectId : String
  handoffId : String
  durationSeconds : UInt64
  deriving DecidableEq, Repr

structure HandoffMetrics where
  phaseDurations : List HandoffPhaseDurationMetric
  committedTotalDurations : List HandoffTotalDurationMetric
  deriving DecidableEq

/-- The handoffs of a project and their journals, as `collect_local_metrics_report` reads
them. -/
def collectHandoffs (project : String) (db : MetadataDb) : List LocalMetricsHandoffInput :=
  (listHandoffs project db).map fun h => ⟨h, db.listHandoffJournal h.handoffId⟩

namespace LocalMetricsHandoffInput

variable (handoff : LocalMetricsHandoffInput)

def hasPhase (phase : HandoffJournalPhase) : Bool :=
  handoff.journal.any fun entry => entry.phase = phase

def isVerified : Bool :=
  handoff.record.state = .targetVerified || handoff.record.state = .sourceReady ||
    handoff.record.state = .committed || handoff.hasPhase .targetVerified

def isSuccess : Bool := handoff.record.state = .committed || handoff.hasPhase .leaseCommitted

/-- The journal sorted by identifier, and then by time. -/
def sortedJournal : List HandoffJournalRecord :=
  handoff.journal.insertionSort fun left right =>
    left.journalId < right.journalId ∨ (left.journalId = right.journalId ∧
      left.createdAtUnixSeconds ≤ right.createdAtUnixSeconds)

def phaseDuration (fromEntry toEntry : HandoffJournalRecord) : HandoffPhaseDurationMetric where
  projectId := handoff.record.projectId
  handoffId := handoff.record.handoffId
  fromPhase := fromEntry.phase
  toPhase := toEntry.phase
  durationSeconds := saturatingSub toEntry.createdAtUnixSeconds fromEntry.createdAtUnixSeconds

/-- The loop over `journal.windows(2)`. -/
def phaseDurations : List HandoffPhaseDurationMetric :=
  List.zipWith handoff.phaseDuration handoff.sortedJournal handoff.sortedJournal.tail

def committedTotalDuration : Option HandoffTotalDurationMetric := do
  let begin ← handoff.sortedJournal.find? fun entry => entry.phase = .begin
  let committed ← handoff.sortedJournal.find? fun entry => entry.phase = .leaseCommitted
  return {
    projectId := handoff.record.projectId
    handoffId := handoff.record.handoffId
    durationSeconds := saturatingSub committed.createdAtUnixSeconds begin.createdAtUnixSeconds }

end LocalMetricsHandoffInput

def continuationMetrics (handoffs : List LocalMetricsHandoffInput) :
    VerifiedContinuationMetrics where
  handoffAttempts := handoffs.length
  verifiedAttempts := handoffs.countP LocalMetricsHandoffInput.isVerified
  successes := handoffs.countP LocalMetricsHandoffInput.isSuccess
  aborted := handoffs.countP fun handoff => handoff.record.state = .aborted

def handoffMetrics (handoffs : List LocalMetricsHandoffInput) : HandoffMetrics where
  phaseDurations := handoffs.flatMap LocalMetricsHandoffInput.phaseDurations
  committedTotalDurations := handoffs.filterMap LocalMetricsHandoffInput.committedTotalDuration

/-! ## What a call writes -/

/-- The clock that a call writes into the journal. -/
def writeClock : LeaseCall → UInt64
  | .upsertLease env _ => env.unixNowSeconds
  | .call call =>
    match call.op with
    | .commitHandoff _ _ now | .commitHandoffWithSnapshotPreflight _ _ now _
    | .recoverHandoff _ _ now => now
    | _ => call.env.unixNowSeconds

/-- What a call at `now` does to the handoffs and to the journal. -/
inductive Written (now : UInt64) (db db' : MetadataDb) : Prop where
  | quiet (hhandoff : db'.getHandoff = db.getHandoff)
      (hjournal : db'.handoffJournal = db.handoffJournal)
  | begun (h : HandoffRecord) (hfresh : db.getHandoff h.handoffId = none)
      (hstate : h.state = .targetPrepare)
      (hhandoff : db'.getHandoff = assign db.getHandoff h.handoffId h)
      (hjournal : db'.handoffJournal =
        ((db.journaled h .begin "{}" now).journaled h .targetPrepare "{}" now).handoffJournal)
  | noted (h : HandoffRecord) (detail : String) (hstored : db.getHandoff h.handoffId = some h)
      (hopen : h.state.isTerminal = false) (hhandoff : db'.getHandoff = db.getHandoff)
      (hjournal : db'.handoffJournal =
        (db.journaled h .targetApply detail now).handoffJournal)
  | entered (h : HandoffRecord) (next : HandoffState) (detail : String)
      (hstored : db.getHandoff h.handoffId = some h) (hnext : Follows h.state next)
      (hhandoff : db'.getHandoff = assign db.getHandoff h.handoffId { h with state := next })
      (hjournal : db'.handoffJournal =
        (db.journaled h (HandoffState.entry next) detail now).handoffJournal)
  | rejected (h : HandoffRecord) (hstored : db.getHandoff h.handoffId = some h)
      (hready : h.state = .sourceReady)
      (hhandoff : db'.getHandoff = assign db.getHandoff h.handoffId { h with state := .aborted })
      (hjournal : db'.handoffJournal = db.handoffJournal)

section

variable {db : MetadataDb} {env : Env}

theorem written_refl (now : UInt64) : Written now db db := .quiet rfl rfl

theorem written_begin (leaseId source target generation : String) (ttl : UInt64) :
    Written env.unixNowSeconds db (beginHandoff env leaseId source target generation ttl db).2 := by
  rcases beginHandoff_cases env leaseId source target generation ttl db with
    ⟨e, heq⟩ | ⟨l, handoffs, -, -, -, -, -, -, hinsert, heq⟩
  · rw [heq]
    exact written_refl _
  · rw [heq]
    generalize hrecord : beginHandoffRecord env l leaseId source target generation ttl = h
      at hinsert heq
    have hfresh : db.getHandoff h.handoffId = none := by
      rw [MetadataDb.getHandoff, Option.map_eq_none_iff]
      exact (Table.insert?_eq_some.mp hinsert).1
    refine .begun (handoffRecordFromRow (handoffRowOf h env.unixNowSeconds)) hfresh ?_ ?_ rfl
    · rw [← hrecord]
      rfl
    · exact congrArg Ledger.handoff (MetadataDb.ledger_begin rfl hinsert _)

theorem written_apply (handoffId : String) (detailJson : Option String) :
    Written env.unixNowSeconds db (recordHandoffTargetApply env handoffId detailJson db).2 := by
  rcases recordHandoffTargetApply_cases env handoffId detailJson db with
    ⟨e, heq⟩ | ⟨h, detail, record, -, hstored, hopen, heq⟩
  · rw [heq]
    exact written_refl _
  · rw [heq]
    have hid := MetadataDb.handoffId_of_getHandoff hstored
    subst hid
    exact .noted h detail hstored hopen rfl rfl

theorem written_mark {expected next : HandoffState} (hnext : Follows expected next)
    (handoffId : String) :
    Written env.unixNowSeconds db
      (updateHandoffState env handoffId expected next (HandoffState.entry next) db).2 := by
  rcases updateHandoffState_cases env handoffId expected next (HandoffState.entry next) db with
    ⟨e, heq⟩ | ⟨h, hstored, hstate, hcount, heq⟩
  · rw [heq]
    exact written_refl _
  · rw [heq]
    have hid := MetadataDb.handoffId_of_getHandoff hstored
    subst hid hstate
    exact .entered h next "{}" hstored hnext
      (congrArg Ledger.handoff (MetadataDb.ledger_advanceHandoff next hstored hcount)) rfl

theorem written_abort (handoffId reason : String) (now : UInt64) :
    Written now db (abortHandoffAt env handoffId now reason db).2 := by
  rcases abortHandoffAt_cases env handoffId now reason db with
    ⟨e, heq⟩ | ⟨h, -, -, heq⟩ | ⟨h, detail, hstored, hopen, heq⟩
  · rw [heq]
    exact written_refl _
  · rw [heq]
    exact written_refl _
  · rw [heq]
    have hid := MetadataDb.handoffId_of_getHandoff hstored
    subst hid
    exact .entered h .aborted detail hstored (.abort hopen) (handoff_abortWrites now hstored) rfl

theorem written_commit (reread : Option DevRelayError) (handoffId observed : String)
    (now : UInt64) (preflight : Option HandoffCommitSnapshotPreflight) :
    Written now db (commitHandoffInner env reread handoffId observed now preflight db).2 := by
  rcases commitHandoffInner_cases env reread handoffId observed now preflight db with
    ⟨e, heq⟩ | ⟨h, reason, hstored, hready, -, heq⟩ | ⟨h, audit, db', hstored, hadmitted, hdb, heq⟩
  · rw [heq]
    exact written_refl _
  · rw [heq]
    have hid := MetadataDb.handoffId_of_getHandoff hstored
    subst hid
    exact .rejected h hstored hready (handoff_abortWrites now hstored) rfl
  · rw [heq, hdb]
    have hid := MetadataDb.handoffId_of_getHandoff hstored
    subst hid
    refine .entered h .committed "{}" hstored ?_ ?_ rfl
    · rw [hadmitted.sourceReady]
      exact .commit
    · exact congrArg Ledger.handoff
        (MetadataDb.ledger_commitWrites now hstored hadmitted.transferable)

theorem written_recover (reread : Option DevRelayError) (handoffId observed : String)
    (now : UInt64) :
    Written now db (recoverHandoff env reread handoffId observed now db).2 := by
  rcases recoverHandoff_cases env reread handoffId observed now db with
    ⟨reply, heq⟩ | ⟨h, detail, hstored, hopen, -, heq⟩ | ⟨reply, db', -, hcommit, heq⟩
  · rw [heq]
    exact written_refl _
  · rw [heq]
    have hid := MetadataDb.handoffId_of_getHandoff hstored
    subst hid
    exact .entered h .aborted detail hstored (.abort hopen) (handoff_abortWrites now hstored) rfl
  · have hdb : (recoverHandoff env reread handoffId observed now db).2 =
        (commitHandoffInner env reread handoffId observed now none db).2 :=
      (congrArg Prod.snd heq).trans (congrArg Prod.snd hcommit).symm
    rw [hdb]
    exact written_commit reread handoffId observed now none

theorem written_quiet {db' : MetadataDb} (now : UInt64) (hhandoffs : db'.handoffs = db.handoffs)
    (hjournal : db'.handoffJournal = db.handoffJournal) : Written now db db' := by
  refine .quiet ?_ hjournal
  funext id
  unfold MetadataDb.getHandoff
  rw [hhandoffs]

theorem written_upsert (lease : LeaseRecord) :
    Written env.unixNowSeconds db (upsertLease env lease db).2 := by
  have hrow : ∀ row : LeaseRow, ∀ db' ∈ upsertLeaseRow? row db,
      db'.handoffs = db.handoffs ∧ db'.handoffJournal = db.handoffJournal := by
    intro row db' hdb'
    unfold upsertLeaseRow? at hdb'
    split at hdb'
    · split at hdb'
      · cases hdb'
        exact ⟨rfl, rfl⟩
      · cases hdb'
        exact ⟨rfl, rfl⟩
    · cases hdb'
  unfold upsertLease
  cases hfault : env.fault 0 with
  | some e => simpa [Prog.attempt, Prog.exec, hfault] using written_refl _
  | none =>
    cases hupsert : upsertLeaseRow? (leaseRowOf lease) db with
    | none => simpa [Prog.attempt, Prog.exec, hfault, hupsert] using written_refl _
    | some db' =>
      obtain ⟨hhandoffs, hjournal⟩ := hrow _ db' hupsert
      simpa [Prog.attempt, Prog.exec, hfault, hupsert] using
        written_quiet env.unixNowSeconds hhandoffs hjournal

theorem leaseStep_written (db : MetadataDb) (call : LeaseCall) :
    Written (writeClock call) db (leaseStep db call) := by
  cases call with
  | upsertLease env lease => exact written_upsert lease
  | call call =>
    obtain ⟨env, op, reread⟩ := call
    cases op with
    | beginHandoff leaseId source target generation ttl =>
      exact written_begin leaseId source target generation ttl
    | recordHandoffTargetApply handoffId detailJson => exact written_apply handoffId detailJson
    | markHandoffTargetVerified handoffId => exact written_mark .verify handoffId
    | markHandoffSourceReady handoffId => exact written_mark .ready handoffId
    | commitHandoff handoffId observed now =>
      exact written_commit reread handoffId observed now none
    | commitHandoffWithSnapshotPreflight handoffId observed now preflight =>
      exact written_commit reread handoffId observed now (some preflight)
    | recoverHandoff handoffId observed now => exact written_recover reread handoffId observed now
    | abortHandoff handoffId => exact written_abort handoffId _ env.unixNowSeconds
    | abortHandoffWithReason handoffId reason =>
      exact written_abort handoffId reason env.unixNowSeconds
    | publishSnapshotCanonical request =>
      show Written _ db (publishSnapshotCanonical env request db).2
      rcases publishSnapshotCanonical_cases env request db with
        ⟨e, heq⟩ | ⟨l, snapshots, audit, -, -, ⟨e, -, heq⟩ | ⟨result, -, heq⟩⟩
      · rw [heq]
        exact written_refl _
      · rw [heq]
        exact written_quiet _ rfl rfl
      · rw [heq]
        exact written_quiet _ rfl rfl
    | publishInactiveSnapshotAsFork request =>
      show Written _ db (publishInactiveSnapshotAsFork env request db).2
      rcases publishInactiveSnapshotAsFork_cases env request db with
        ⟨e, heq⟩ | ⟨l, parent, sessions, snapshots, audit, result, -, -, -, heq⟩
      · rw [heq]
        exact written_refl _
      · rw [heq]
        exact written_quiet _ rfl rfl
    | revokeDevice deviceId revokedBy reason rotate =>
      show Written _ db (revokeDevice env deviceId revokedBy reason rotate db).2
      rcases revokeDevice_cases env deviceId revokedBy reason rotate db with
        ⟨e, heq⟩ | ⟨record, revocations, audit, heq⟩
      · rw [heq]
        exact written_refl _
      · rw [heq]
        exact written_quiet _ rfl rfl

end

/-! ## The order of the journal -/

section

variable {db db' : MetadataDb} {now clock : UInt64}

/-- What every new entry keeps is kept by a call. -/
theorem Written.keeps {P : List HandoffJournalRow → Prop} (hwritten : Written now db db')
    (hentry : ∀ (d : MetadataDb) h phase detail, P d.handoffJournal →
      P (d.journaled h phase detail now).handoffJournal)
    (h : P db.handoffJournal) : P db'.handoffJournal := by
  cases hwritten with
  | quiet hhandoff hjournal => rwa [hjournal]
  | begun h' hfresh hstate hhandoff hjournal =>
    rw [hjournal]
    exact hentry _ _ _ _ (hentry _ _ _ _ h)
  | noted h' detail hstored hopen hhandoff hjournal =>
    rw [hjournal]
    exact hentry _ _ _ _ h
  | entered h' next detail hstored hnext hhandoff hjournal =>
    rw [hjournal]
    exact hentry _ _ _ _ h
  | rejected h' hstored hready hhandoff hjournal => rwa [hjournal]

/-- The identifiers count the entries. -/
def Numbered (rows : List HandoffJournalRow) : Prop :=
  rows.map HandoffJournalRow.journalId = List.range' 1 rows.length

theorem numbered_journaled (d : MetadataDb) (h : HandoffRecord) (phase : HandoffJournalPhase)
    (detail : String) (hnumbered : Numbered d.handoffJournal) :
    Numbered (d.journaled h phase detail now).handoffJournal := by
  unfold Numbered at hnumbered ⊢
  show (d.handoffJournal ++ [_]).map _ = List.range' 1 (d.handoffJournal ++ [_]).length
  rw [List.map_append, hnumbered, List.length_append, List.length_singleton,
    List.range'_1_concat, Nat.add_comm 1]
  rfl

/-- The entries are in the order of their times, none later than the clock. -/
structure TimedBy (clock : UInt64) (rows : List HandoffJournalRow) : Prop where
  times : (rows.map fun row => clampU64 row.createdAtUnixSeconds).Pairwise (· ≤ ·)
  bound : ∀ row ∈ rows, clampU64 row.createdAtUnixSeconds ≤ clock

theorem timedBy_journaled (hnow : now.toNat < 2 ^ 63) (d : MetadataDb) (h : HandoffRecord)
    (phase : HandoffJournalPhase) (detail : String) (htimed : TimedBy now d.handoffJournal) :
    TimedBy now (d.journaled h phase detail now).handoffJournal where
  times := by
    show ((d.handoffJournal ++ [_]).map _).Pairwise _
    rw [List.map_append, List.pairwise_append]
    refine ⟨htimed.times, List.pairwise_singleton .., ?_⟩
    intro time htime later hlater
    obtain ⟨row, hrow, rfl⟩ := List.mem_map.mp htime
    rw [List.mem_singleton.mp hlater]
    show clampU64 row.createdAtUnixSeconds ≤ clampU64 (asI64 now)
    rw [clampU64_asI64 hnow]
    exact htimed.bound row hrow
  bound := by
    intro row hrow
    rcases List.mem_append.mp hrow with hrow | hrow
    · exact htimed.bound row hrow
    · rw [List.mem_singleton.mp hrow, clampU64_asI64 hnow]
      exact UInt64.le_refl now

theorem TimedBy.later {later : UInt64} {rows : List HandoffJournalRow} (h : TimedBy clock rows)
    (hlater : clock ≤ later) : TimedBy later rows :=
  ⟨h.times, fun row hrow => UInt64.le_trans (h.bound row hrow) hlater⟩

end

section

variable {db : MetadataDb} {calls : List LeaseCall}

theorem leaseStoreAt_numbered (hnew : db.NoHandoffs) (n : Nat) :
    Numbered (leaseStoreAt db calls n).handoffJournal := by
  have hstart : Numbered db.handoffJournal := by
    rw [hnew.journal]
    rfl
  exact stateAt_invariant (I := fun s : MetadataDb => Numbered s.handoffJournal) hstart
    (fun s call h => (leaseStep_written s call).keeps numbered_journaled h) n

/-- The clock of the calls does not go back, and fits into the column. -/
structure Clocked (calls : List LeaseCall) : Prop where
  forward : (calls.map writeClock).Pairwise (· ≤ ·)
  fits : ∀ call ∈ calls, (writeClock call).toNat < 2 ^ 63

theorem leaseStoreAt_timed (hnew : db.NoHandoffs) (hclock : Clocked calls) (n : Nat) :
    TimedBy (((calls.take n).map writeClock).getLast?.getD 0)
      (leaseStoreAt db calls n).handoffJournal := by
  induction n with
  | zero =>
    show TimedBy _ db.handoffJournal
    rw [hnew.journal]
    exact ⟨List.Pairwise.nil, fun _ h => absurd h (by simp)⟩
  | succ n ih =>
    by_cases hn : n < calls.length
    · have htake : calls.take (n + 1) = calls.take n ++ [calls[n]] := by
        rw [List.take_succ_eq_append_getElem hn]
      have hlater : ((calls.take n).map writeClock).getLast?.getD 0 ≤ writeClock calls[n] := by
        cases hlast : ((calls.take n).map writeClock).getLast? with
        | none => exact UInt64.zero_le
        | some time =>
          have hpairs := hclock.forward.sublist ((List.take_sublist (n + 1) calls).map _)
          rw [htake, List.map_append, List.pairwise_append] at hpairs
          exact hpairs.2.2 time (List.mem_of_getLast? hlast) _ (List.mem_singleton_self _)
      rw [leaseStoreAt_succ hn, htake, List.map_append, List.map_singleton,
        List.getLast?_concat, Option.getD_some]
      exact (leaseStep_written _ _).keeps
        (timedBy_journaled (hclock.fits _ (List.getElem_mem hn))) (ih.later hlater)
    · have hsame : leaseStoreAt db calls (n + 1) = leaseStoreAt db calls n := by
        rw [leaseStoreAt, leaseStoreAt, stateAt_of_length_le (by omega),
          stateAt_of_length_le (by omega)]
      rw [hsame, List.take_of_length_le (by omega)]
      rwa [List.take_of_length_le (by omega)] at ih

end

/-! ## The paths of the handoffs -/

/-- The steps of state and journal of one handoff, with those that the journal does not
follow: an apply noted late, and a commit that was rejected. -/
inductive Moves : Life → Life → Prop where
  | begin (phases : List HandoffJournalPhase) :
      Moves ⟨none, phases⟩ ⟨some .targetPrepare, phases ++ [.begin, .targetPrepare]⟩
  | note {state : HandoffState} (phases : List HandoffJournalPhase)
      (hopen : state.isTerminal = false) :
      Moves ⟨some state, phases⟩ ⟨some state, phases ++ [.targetApply]⟩
  | enter {state next : HandoffState} (phases : List HandoffJournalPhase)
      (hnext : Follows state next) :
      Moves ⟨some state, phases⟩ ⟨some next, phases ++ [HandoffState.entry next]⟩
  | reject (phases : List HandoffJournalPhase) :
      Moves ⟨some .sourceReady, phases⟩ ⟨some .aborted, phases⟩

section

variable {db db' : MetadataDb} {now : UInt64}

theorem phases_of_journal {d d' : MetadataDb} (h : d.handoffJournal = d'.handoffJournal)
    (id : String) : d.phases id = d'.phases id := by
  unfold MetadataDb.phases MetadataDb.listHandoffJournal
  rw [h]

theorem life_of_other {key : String} {h : HandoffRecord} {id : String} (hid : key ≠ id)
    (hhandoff : db'.getHandoff = assign db.getHandoff key h)
    (hphases : db'.phases id = db.phases id) : db'.life id = db.life id := by
  unfold MetadataDb.life
  rw [hhandoff, hphases, assign_of_ne (fun heq => hid heq.symm)]

theorem Written.moves (hwritten : Written now db db') (id : String) :
    db'.life id = db.life id ∨ Moves (db.life id) (db'.life id) := by
  cases hwritten with
  | quiet hhandoff hjournal =>
    left
    unfold MetadataDb.life
    rw [hhandoff, phases_of_journal hjournal]
  | begun h hfresh hstate hhandoff hjournal =>
    have hphases : db'.phases id = if h.handoffId = id then
        db.phases id ++ [.begin, .targetPrepare] else db.phases id := by
      rw [phases_of_journal hjournal, MetadataDb.phases_journaled, MetadataDb.phases_journaled]
      by_cases hid : h.handoffId = id
      · rw [if_pos hid, if_pos hid, if_pos hid, List.append_assoc]
        rfl
      · rw [if_neg hid, if_neg hid, if_neg hid]
    by_cases hid : h.handoffId = id
    · right
      subst hid
      rw [if_pos rfl] at hphases
      unfold MetadataDb.life
      rw [hfresh, hhandoff, hphases, assign_self, Option.map_some, hstate]
      exact .begin _
    · rw [if_neg hid] at hphases
      exact Or.inl (life_of_other hid hhandoff hphases)
  | noted h detail hstored hopen hhandoff hjournal =>
    have hphases := phases_of_journal hjournal id
    rw [MetadataDb.phases_journaled] at hphases
    by_cases hid : h.handoffId = id
    · right
      subst hid
      rw [if_pos rfl] at hphases
      unfold MetadataDb.life
      rw [hhandoff, hphases, hstored]
      exact .note _ hopen
    · left
      rw [if_neg hid] at hphases
      unfold MetadataDb.life
      rw [hhandoff, hphases]
  | entered h next detail hstored hnext hhandoff hjournal =>
    have hphases := phases_of_journal hjournal id
    rw [MetadataDb.phases_journaled] at hphases
    by_cases hid : h.handoffId = id
    · right
      subst hid
      rw [if_pos rfl] at hphases
      unfold MetadataDb.life
      rw [hstored, hhandoff, hphases, assign_self]
      exact .enter _ hnext
    · rw [if_neg hid] at hphases
      exact Or.inl (life_of_other hid hhandoff hphases)
  | rejected h hstored hready hhandoff hjournal =>
    have hphases := phases_of_journal hjournal id
    by_cases hid : h.handoffId = id
    · right
      subst hid
      unfold MetadataDb.life
      rw [hstored, hhandoff, hphases, assign_self, Option.map_some, Option.map_some, hready]
      exact .reject _
    · exact Or.inl (life_of_other hid hhandoff hphases)

end

/-- What the metrics need to know of a handoff that took a path. -/
structure Counted (life : Life) (path : List HandoffState) : Prop where
  current : path.getLast? = life.state
  begins : life.phases.head? = if path = [] then none else some .begin
  told : ∀ phase ∈ life.phases, phase = .begin ∨ phase = .targetApply ∨
    ∃ state ∈ path, phase = HandoffState.entry state
  written : ∀ state ∈ path, state ≠ .aborted → HandoffState.entry state ∈ life.phases
  ended : ∀ state ∈ path.dropLast, state.isTerminal = false
  verified : .sourceReady ∈ path ∨ .committed ∈ path → .targetVerified ∈ path
  closed : .committed ∈ path → ∃ front, life.phases = front ++ [.leaseCommitted] ∧
    .leaseCommitted ∉ front

section

variable {life life' : Life} {path : List HandoffState}

theorem Counted.same (h : Counted life path) : Counted life (Life.seen path life.state) := by
  rw [Life.seen_current h.current]
  exact h

theorem Counted.mem_of_state {state : HandoffState} (h : Counted life path)
    (hstate : life.state = some state) : state ∈ path :=
  List.mem_of_getLast? (h.current.trans hstate)

/-- The journal has a commit exactly when the handoff is committed. -/
theorem Counted.committed_iff (h : Counted life path) :
    .leaseCommitted ∈ life.phases ↔ life.state = some .committed := by
  constructor
  · intro hmem
    rcases h.told _ hmem with hbegin | happly | ⟨state, hstate, hentry⟩
    · cases hbegin
    · cases happly
    · have hcommitted : state = .committed := by
        cases state with
        | committed => rfl
        | targetPrepare => cases hentry
        | targetVerified => cases hentry
        | sourceReady => cases hentry
        | aborted => cases hentry
      subst hcommitted
      rw [← h.current]
      have hne : path ≠ [] := List.ne_nil_of_mem hstate
      rw [← List.dropLast_append_getLast hne, List.mem_append, List.mem_singleton] at hstate
      rcases hstate with hfront | hlast
      · exact absurd (h.ended _ hfront) (by decide)
      · rw [hlast, List.getLast?_eq_some_getLast hne]
  · intro hstate
    exact h.written .committed (h.mem_of_state hstate) (by decide)

theorem Counted.enter {state next : HandoffState} {phases : List HandoffJournalPhase}
    (h : Counted ⟨some state, phases⟩ path) (hnext : Follows state next) :
    Counted ⟨some next, phases ++ [HandoffState.entry next]⟩ (path ++ [next]) := by
  have hmem : state ∈ path := h.mem_of_state rfl
  have hne : path ≠ [] := List.ne_nil_of_mem hmem
  have hopen : state.isTerminal = false := by
    cases hnext with
    | verify => rfl
    | ready => rfl
    | commit => rfl
    | abort hopen => exact hopen
  refine ⟨List.getLast?_concat .., ?_, ?_, ?_, ?_, ?_, ?_⟩
  · have hbegins := h.begins
    rw [if_neg hne] at hbegins
    rw [if_neg (by simp), List.head?_append, hbegins]
    rfl
  · intro phase hphase
    rcases List.mem_append.mp hphase with hphase | hphase
    · rcases h.told phase hphase with hbegin | happly | ⟨s, hs, hentry⟩
      · exact Or.inl hbegin
      · exact Or.inr (Or.inl happly)
      · exact Or.inr (Or.inr ⟨s, List.mem_append_left _ hs, hentry⟩)
    · exact Or.inr (Or.inr ⟨next, by simp, List.mem_singleton.mp hphase⟩)
  · intro s hs haborted
    rcases List.mem_append.mp hs with hs | hs
    · exact List.mem_append_left _ (h.written s hs haborted)
    · rw [List.mem_singleton.mp hs]
      simp
  · intro s hs
    rw [List.dropLast_concat] at hs
    rw [← List.dropLast_append_getLast hne, List.mem_append, List.mem_singleton] at hs
    rcases hs with hfront | hlast
    · exact h.ended s hfront
    · have hcurrent : path.getLast? = some state := h.current
      rw [List.getLast?_eq_some_getLast hne] at hcurrent
      rw [hlast, Option.some.inj hcurrent]
      exact hopen
  · intro hlater
    have hverified : .targetVerified ∈ path ∨ next = .targetVerified := by
      cases hnext with
      | verify => exact Or.inr rfl
      | ready => exact Or.inl hmem
      | commit => exact Or.inl (h.verified (Or.inl hmem))
      | abort _ =>
        left
        apply h.verified
        simpa using hlater
    rcases hverified with hverified | rfl
    · exact List.mem_append_left _ hverified
    · simp
  · intro hcommitted
    have hnot : .leaseCommitted ∉ phases := by
      intro hmem
      have hstate := h.committed_iff.mp hmem
      obtain rfl := Option.some.inj hstate
      cases hopen
    have hisNext : next = .committed := by
      rcases List.mem_append.mp hcommitted with hbefore | hnow
      · exact absurd (h.written .committed hbefore (by decide)) hnot
      · exact (List.mem_singleton.mp hnow).symm
    subst hisNext
    exact ⟨phases, rfl, hnot⟩

theorem seen_next {state next : HandoffState} (hcurrent : path.getLast? = some state)
    (hne : state ≠ next) : Life.seen path (some next) = path ++ [next] := by
  unfold Life.seen
  dsimp only
  rw [if_neg]
  rw [hcurrent]
  intro heq
  exact hne (Option.some.inj heq)

/-- An entry that is not of a state, for a handoff that is open. -/
theorem Counted.note {state : HandoffState} {phases : List HandoffJournalPhase}
    (h : Counted ⟨some state, phases⟩ path) (hopen : state.isTerminal = false) :
    Counted ⟨some state, phases ++ [.targetApply]⟩ path := by
  have hne : path ≠ [] := List.ne_nil_of_mem (h.mem_of_state rfl)
  refine ⟨h.current, ?_, ?_, ?_, h.ended, h.verified, ?_⟩
  · have hbegins := h.begins
    rw [if_neg hne] at hbegins ⊢
    rw [List.head?_append, hbegins]
    rfl
  · intro phase hphase
    rcases List.mem_append.mp hphase with hphase | hphase
    · exact h.told phase hphase
    · exact Or.inr (Or.inl (List.mem_singleton.mp hphase))
  · exact fun s hs haborted => List.mem_append_left _ (h.written s hs haborted)
  · intro hcommitted
    have hstate := h.committed_iff.mp (h.written .committed hcommitted (by decide))
    obtain rfl := Option.some.inj hstate
    cases hopen

theorem Counted.reject {phases : List HandoffJournalPhase}
    (h : Counted ⟨some .sourceReady, phases⟩ path) :
    Counted ⟨some .aborted, phases⟩ (path ++ [.aborted]) := by
  have habort := h.enter (.abort rfl)
  have hnot : .committed ∉ path := by
    intro hcommitted
    have hstate := h.committed_iff.mp (h.written .committed hcommitted (by decide))
    cases hstate
  have hne : path ≠ [] := List.ne_nil_of_mem (h.mem_of_state rfl)
  refine ⟨habort.current, ?_, ?_, ?_, habort.ended, habort.verified, ?_⟩
  · have hbegins := h.begins
    rw [if_neg hne] at hbegins
    rw [if_neg (by simp)]
    exact hbegins
  · intro phase hphase
    rcases h.told phase hphase with hbegin | happly | ⟨s, hs, hentry⟩
    · exact Or.inl hbegin
    · exact Or.inr (Or.inl happly)
    · exact Or.inr (Or.inr ⟨s, List.mem_append_left _ hs, hentry⟩)
  · intro s hs haborted
    rcases List.mem_append.mp hs with hs | hs
    · exact h.written s hs haborted
    · exact absurd (List.mem_singleton.mp hs) haborted
  · intro hcommitted
    rcases List.mem_append.mp hcommitted with hbefore | hnow
    · exact absurd hbefore hnot
    · exact absurd (List.mem_singleton.mp hnow) (by decide)

theorem Moves.counted (hmoves : Moves life life') (h : Counted life path) :
    Counted life' (Life.seen path life'.state) := by
  cases hmoves with
  | begin phases =>
    have hpath : path = [] := List.getLast?_eq_none_iff.mp h.current
    subst hpath
    have hphases : phases = [] := List.head?_eq_none_iff.mp h.begins
    subst hphases
    refine ⟨rfl, rfl, ?_, ?_, ?_, ?_, ?_⟩
    · intro phase hphase
      rcases List.mem_cons.mp hphase with rfl | hphase
      · exact Or.inl rfl
      · rw [List.mem_singleton.mp hphase]
        exact Or.inr (Or.inr ⟨.targetPrepare, List.mem_singleton_self _, rfl⟩)
    · intro s hs _
      rw [List.mem_singleton.mp hs]
      exact List.mem_cons_of_mem _ (List.mem_singleton_self _)
    · intro s hs
      cases hs
    · intro hlater
      simp [Life.seen] at hlater
    · intro hcommitted
      simp [Life.seen] at hcommitted
  | @note state phases hopen =>
    have hsame : Life.seen path (some state) = path := Life.seen_current h.current
    rw [hsame]
    exact h.note hopen
  | @enter state next phases hnext =>
    rw [seen_next h.current (Life.ne_of_follows hnext)]
    exact h.enter hnext
  | reject phases =>
    rw [seen_next h.current (by decide)]
    exact h.reject

end

/-! ## Runs -/

section

variable {db : MetadataDb} {calls : List LeaseCall}

theorem leaseStoreAt_counted (hnew : db.NoHandoffs) (id : String) (n : Nat) :
    Counted ((leaseStoreAt db calls n).life id) (pathAt db calls id n) := by
  induction n with
  | zero =>
    have hstate : (db.life id).state = none := by
      unfold MetadataDb.life MetadataDb.getHandoff Table.lookup
      rw [hnew.handoffs]
      rfl
    have hphases : (db.life id).phases = [] := by
      unfold MetadataDb.life MetadataDb.phases MetadataDb.listHandoffJournal
      rw [hnew.journal]
      rfl
    show Counted (db.life id) (Life.seen [] (db.life id).state)
    rw [hstate]
    refine ⟨hstate.symm, ?_, ?_, ?_, ?_, ?_, ?_⟩
    · rw [hphases]
      rfl
    · rw [hphases]
      exact fun _ h => absurd h List.not_mem_nil
    · exact fun _ h => absurd h List.not_mem_nil
    · exact fun _ h => absurd h List.not_mem_nil
    · rintro (h | h)
      · exact absurd h List.not_mem_nil
      · exact absurd h List.not_mem_nil
    · exact fun h => absurd h List.not_mem_nil
  | succ n ih =>
    unfold pathAt
    by_cases hn : n < calls.length
    · rw [leaseStoreAt_succ hn]
      rcases (leaseStep_written _ calls[n]).moves id with hsame | hmoves
      · rw [hsame]
        exact ih.same
      · exact hmoves.counted ih
    · have hsame : leaseStoreAt db calls (n + 1) = leaseStoreAt db calls n := by
        rw [leaseStoreAt, leaseStoreAt, stateAt_of_length_le (by omega),
          stateAt_of_length_le (by omega)]
      rw [hsame]
      exact ih.same

/-- The input of the metrics for a handoff in the store. -/
theorem mem_collectHandoffs {project : String} {s : MetadataDb}
    {handoff : LocalMetricsHandoffInput} (h : handoff ∈ collectHandoffs project s) :
    (s.life handoff.record.handoffId).state = some handoff.record.state ∧
      handoff.journal.map HandoffJournalRecord.phase =
        (s.life handoff.record.handoffId).phases := by
  obtain ⟨record, hrecord, rfl⟩ := List.mem_map.mp h
  refine ⟨?_, rfl⟩
  unfold MetadataDb.life
  rw [(mem_listHandoffs.mp hrecord).1]
  rfl

theorem hasPhase_iff {handoff : LocalMetricsHandoffInput} {phase : HandoffJournalPhase} :
    handoff.hasPhase phase = true ↔ phase ∈ handoff.journal.map HandoffJournalRecord.phase := by
  unfold LocalMetricsHandoffInput.hasPhase
  rw [List.any_eq_true, List.mem_map]
  simp only [decide_eq_true_eq]

theorem Counted.mem_aborted_iff {life : Life} {path : List HandoffState} (h : Counted life path) :
    .aborted ∈ path ↔ life.state = some .aborted := by
  constructor
  · intro hmem
    have hne : path ≠ [] := List.ne_nil_of_mem hmem
    rw [← h.current, List.getLast?_eq_some_getLast hne]
    rw [← List.dropLast_append_getLast hne, List.mem_append, List.mem_singleton] at hmem
    rcases hmem with hfront | hlast
    · exact absurd (h.ended _ hfront) (by decide)
    · rw [hlast]
  · exact h.mem_of_state

theorem Counted.mem_committed_iff {life : Life} {path : List HandoffState}
    (h : Counted life path) : .committed ∈ path ↔ life.state = some .committed := by
  rw [← h.committed_iff]
  constructor
  · exact fun hmem => h.written .committed hmem (by decide)
  · exact fun hmem => h.mem_of_state (h.committed_iff.mp hmem)

/-- The journal has a verification exactly when the handoff was verified on its way. -/
theorem Counted.mem_verified_iff {life : Life} {path : List HandoffState}
    (h : Counted life path) : .targetVerified ∈ path ↔ .targetVerified ∈ life.phases := by
  constructor
  · exact fun hmem => h.written .targetVerified hmem (by decide)
  · intro hmem
    rcases h.told _ hmem with hbegin | happly | ⟨state, hstate, hentry⟩
    · cases hbegin
    · cases happly
    · cases state with
      | targetVerified => exact hstate
      | targetPrepare => cases hentry
      | sourceReady => cases hentry
      | committed => cases hentry
      | aborted => cases hentry

theorem isVerified_iff {life : Life} {path : List HandoffState} {handoff : LocalMetricsHandoffInput}
    (h : Counted life path) (hstate : life.state = some handoff.record.state)
    (hphases : handoff.journal.map HandoffJournalRecord.phase = life.phases) :
    handoff.isVerified = true ↔ .targetVerified ∈ path := by
  unfold LocalMetricsHandoffInput.isVerified
  simp only [Bool.or_eq_true, decide_eq_true_eq, hasPhase_iff, hphases, ← h.mem_verified_iff]
  constructor
  · rintro (((hnow | hnow) | hnow) | hmem)
    · exact h.mem_of_state (hstate.trans (congrArg some hnow))
    · exact h.verified (Or.inl (h.mem_of_state (hstate.trans (congrArg some hnow))))
    · exact h.verified (Or.inr (h.mem_of_state (hstate.trans (congrArg some hnow))))
    · exact hmem
  · exact Or.inr

theorem isSuccess_iff {life : Life} {path : List HandoffState} {handoff : LocalMetricsHandoffInput}
    (h : Counted life path) (hstate : life.state = some handoff.record.state)
    (hphases : handoff.journal.map HandoffJournalRecord.phase = life.phases) :
    handoff.isSuccess = true ↔ .committed ∈ path := by
  unfold LocalMetricsHandoffInput.isSuccess
  rw [Bool.or_eq_true, decide_eq_true_eq, hasPhase_iff, hphases, h.committed_iff,
    h.mem_committed_iff, hstate, Option.some_inj, or_self]

/-- In every run the counts are those of the paths that the handoffs of the project took,
also where a rejected commit or a late apply is missing in a journal or out of turn. -/
theorem continuationMetrics_law (db : MetadataDb) (calls : List LeaseCall) (hnew : db.NoHandoffs)
    (project : String) (n : Nat) :
    let handoffs := listHandoffs project (leaseStoreAt db calls n)
    let metrics := continuationMetrics (collectHandoffs project (leaseStoreAt db calls n))
    let took := fun state (h : HandoffRecord) => decide (state ∈ pathAt db calls h.handoffId n)
    metrics.handoffAttempts = handoffs.length ∧
      metrics.verifiedAttempts = handoffs.countP (took .targetVerified) ∧
      metrics.successes = handoffs.countP (took .committed) ∧
      metrics.aborted = handoffs.countP (took .aborted) ∧
      metrics.successes ≤ metrics.verifiedAttempts ∧
      metrics.successes + metrics.aborted ≤ metrics.handoffAttempts := by
  intro handoffs metrics took
  have hcounted : ∀ id, Counted ((leaseStoreAt db calls n).life id) (pathAt db calls id n) :=
    fun id => leaseStoreAt_counted hnew id n
  -- Each count is of the handoffs whose path has a state.
  have hcount : ∀ (p : LocalMetricsHandoffInput → Bool) (state : HandoffState),
      (∀ handoff life path, Counted life path → life.state = some handoff.record.state →
        handoff.journal.map HandoffJournalRecord.phase = life.phases →
          (p handoff = true ↔ state ∈ path)) →
      (collectHandoffs project (leaseStoreAt db calls n)).countP p =
        handoffs.countP (took state) := by
    intro p state hp
    show (handoffs.map _).countP p = _
    rw [List.countP_map]
    apply List.countP_congr
    intro h hmem
    obtain ⟨hstate, hphases⟩ := mem_collectHandoffs (List.mem_map_of_mem hmem)
    simp only [Function.comp_apply, took, decide_eq_true_eq]
    exact hp _ _ _ (hcounted h.handoffId) hstate hphases
  have hverified : metrics.verifiedAttempts = handoffs.countP (took .targetVerified) :=
    hcount _ _ fun _ _ _ => isVerified_iff
  have hsuccess : metrics.successes = handoffs.countP (took .committed) :=
    hcount _ _ fun _ _ _ => isSuccess_iff
  have haborted : metrics.aborted = handoffs.countP (took .aborted) := by
    refine hcount _ _ fun handoff life path h hstate _ => ?_
    rw [decide_eq_true_eq, h.mem_aborted_iff, hstate, Option.some_inj]
  refine ⟨List.length_map _, hverified, hsuccess, haborted, ?_, ?_⟩
  · rw [hsuccess, hverified]
    apply List.countP_mono_left
    intro h _ hcommitted
    simp only [took, decide_eq_true_eq] at hcommitted ⊢
    exact (hcounted h.handoffId).verified (Or.inr hcommitted)
  · rw [hsuccess, haborted]
    show _ ≤ (handoffs.map _).length
    rw [List.length_map, List.length_eq_countP_add_countP (took .committed)]
    apply Nat.add_le_add_left
    apply List.countP_mono_left
    intro h _ hended
    simp only [took, decide_eq_true_eq] at hended ⊢
    rw [(hcounted h.handoffId).mem_committed_iff]
    rw [(hcounted h.handoffId).mem_aborted_iff] at hended
    rw [hended]
    simp

end

/-! ## Durations -/

/-- The gaps between times that do not go back add up to the whole time. -/
theorem sum_gaps (time : UInt64) (times : List UInt64) (h : (time :: times).Pairwise (· ≤ ·)) :
    time.toNat + (List.zipWith (fun earlier later => (saturatingSub later earlier).toNat)
      (time :: times) times).sum = ((time :: times).getLast (List.cons_ne_nil _ _)).toNat := by
  induction times generalizing time with
  | nil => simp
  | cons next times ih =>
    have hle : time ≤ next := List.rel_of_pairwise_cons h (List.mem_cons_self ..)
    have hgap : (saturatingSub next time).toNat = next.toNat - time.toNat := by
      rw [saturatingSub, if_pos hle, UInt64.toNat_sub_of_le _ _ hle]
    have hnat : time.toNat ≤ next.toNat := UInt64.le_iff_toNat_le.mp hle
    rw [List.zipWith_cons_cons, List.sum_cons, hgap, List.getLast_cons_cons, ← ih next h.of_cons]
    omega

section

variable {db : MetadataDb} {calls : List LeaseCall} {handoff : LocalMetricsHandoffInput}

/-- The entries of a handoff as they come out of the store. -/
structure InOrder (journal : List HandoffJournalRecord) : Prop where
  ids : journal.Pairwise fun left right => left.journalId < right.journalId
  times : (journal.map HandoffJournalRecord.createdAtUnixSeconds).Pairwise (· ≤ ·)

theorem inOrder_listHandoffJournal {s : MetadataDb} {clock : UInt64}
    (hnumbered : Numbered s.handoffJournal) (htimed : TimedBy clock s.handoffJournal)
    (id : String) : InOrder (s.listHandoffJournal id) where
  ids := by
    have hrows : s.handoffJournal.Pairwise fun left right => left.journalId < right.journalId := by
      rw [← List.pairwise_map, hnumbered]
      exact List.pairwise_lt_range'
    exact List.pairwise_map.mpr (hrows.sublist List.filter_sublist)
  times := by
    have hrows := List.pairwise_map.mp htimed.times
    rw [List.pairwise_map]
    exact List.pairwise_map.mpr (hrows.sublist List.filter_sublist)

theorem InOrder.sortedJournal (h : InOrder handoff.journal) :
    handoff.sortedJournal = handoff.journal :=
  List.Pairwise.insertionSort_eq (h.ids.imp Or.inl)

theorem InOrder.sum_phaseDurations (h : InOrder handoff.journal) {first last : HandoffJournalRecord}
    (hfirst : handoff.journal.head? = some first) (hlast : handoff.journal.getLast? = some last) :
    first.createdAtUnixSeconds ≤ last.createdAtUnixSeconds ∧
      (handoff.phaseDurations.map fun d => d.durationSeconds.toNat).sum =
        last.createdAtUnixSeconds.toNat - first.createdAtUnixSeconds.toNat := by
  obtain ⟨entries, hjournal⟩ : ∃ entries, handoff.journal = first :: entries :=
    List.head?_eq_some_iff.mp hfirst
  have htimes := h.times
  rw [hjournal, List.map_cons] at htimes
  have hsum := sum_gaps _ _ htimes
  have hgaps : (handoff.phaseDurations.map fun d => d.durationSeconds.toNat) =
      List.zipWith (fun earlier later => (saturatingSub later earlier).toNat)
        (first.createdAtUnixSeconds :: entries.map HandoffJournalRecord.createdAtUnixSeconds)
        (entries.map HandoffJournalRecord.createdAtUnixSeconds) := by
    unfold LocalMetricsHandoffInput.phaseDurations
    rw [h.sortedJournal, hjournal, List.tail_cons, List.map_zipWith, ← List.map_cons,
      List.zipWith_map]
    rfl
  have hend : ((first.createdAtUnixSeconds ::
      entries.map HandoffJournalRecord.createdAtUnixSeconds).getLast (List.cons_ne_nil _ _)) =
        last.createdAtUnixSeconds := by
    apply Option.some.inj
    rw [← List.getLast?_eq_some_getLast, ← List.map_cons, ← hjournal, List.getLast?_map, hlast]
    rfl
  rw [← hgaps, hend] at hsum
  constructor
  · rw [UInt64.le_iff_toNat_le]
    omega
  · omega

/-- The whole time of a committed handoff runs from its first entry to its last. -/
theorem committedTotalDuration_of_committed {life : Life} {path : List HandoffState}
    (h : Counted life path) (horder : InOrder handoff.journal)
    (hphases : handoff.journal.map HandoffJournalRecord.phase = life.phases)
    (hcommitted : life.state = some .committed) :
    ∃ total, handoff.committedTotalDuration = some total ∧
      total.handoffId = handoff.record.handoffId ∧
      total.durationSeconds.toNat =
        (handoff.phaseDurations.map fun d => d.durationSeconds.toNat).sum := by
  have hmem := h.mem_committed_iff.mpr hcommitted
  obtain ⟨front, hfront, hnot⟩ := h.closed hmem
  rw [hfront] at hphases
  obtain ⟨entries, ends, hjournal, hentries, hends⟩ := List.map_eq_append_iff.mp hphases
  obtain ⟨last, rfl, hlast⟩ : ∃ last, ends = [last] ∧ last.phase = .leaseCommitted := by
    obtain ⟨last, rest, rfl, hphase, hrest⟩ := List.map_eq_cons_iff.mp hends
    rw [List.map_eq_nil_iff] at hrest
    exact ⟨last, by rw [hrest], hphase⟩
  have hbegins := h.begins
  rw [if_neg (List.ne_nil_of_mem hmem), hfront, ← hentries] at hbegins
  obtain ⟨first, more, rfl, hfirst⟩ : ∃ first more, entries = first :: more ∧
      first.phase = .begin := by
    cases entries with
    | nil => cases hbegins
    | cons first more => exact ⟨first, more, rfl, Option.some.inj hbegins⟩
  have hfindFirst : handoff.journal.find? (fun entry => entry.phase = .begin) = some first := by
    rw [hjournal, List.cons_append]
    exact List.find?_cons_of_pos (decide_eq_true hfirst)
  have hfindLast : handoff.journal.find? (fun entry => entry.phase = .leaseCommitted) =
      some last := by
    have hnone : (first :: more).find? (fun entry => entry.phase = .leaseCommitted) = none := by
      rw [List.find?_eq_none]
      intro entry hentry hphase
      apply hnot
      rw [← hentries, ← of_decide_eq_true hphase]
      exact List.mem_map_of_mem hentry
    rw [hjournal, List.find?_append, hnone, Option.none_or]
    exact List.find?_cons_of_pos (decide_eq_true hlast)
  have hhead : handoff.journal.head? = some first := by
    rw [hjournal]
    rfl
  have hend : handoff.journal.getLast? = some last := by
    rw [hjournal, List.getLast?_concat]
  obtain ⟨hle, hsum⟩ := horder.sum_phaseDurations hhead hend
  refine ⟨⟨handoff.record.projectId, handoff.record.handoffId,
    saturatingSub last.createdAtUnixSeconds first.createdAtUnixSeconds⟩, ?_, rfl, ?_⟩
  · unfold LocalMetricsHandoffInput.committedTotalDuration
    rw [horder.sortedJournal, hfindFirst, hfindLast]
    rfl
  · rw [hsum, saturatingSub, if_pos hle, UInt64.toNat_sub_of_le _ _ hle]

theorem committedTotalDuration_eq_none {life : Life} {path : List HandoffState}
    (h : Counted life path) (horder : InOrder handoff.journal)
    (hphases : handoff.journal.map HandoffJournalRecord.phase = life.phases)
    (hcommitted : life.state ≠ some .committed) : handoff.committedTotalDuration = none := by
  have hnone : handoff.journal.find? (fun entry => entry.phase = .leaseCommitted) = none := by
    rw [List.find?_eq_none]
    intro entry hentry hphase
    apply hcommitted
    rw [← h.committed_iff, ← hphases, ← of_decide_eq_true hphase]
    exact List.mem_map_of_mem hentry
  unfold LocalMetricsHandoffInput.committedTotalDuration
  rw [horder.sortedJournal, hnone]
  cases handoff.journal.find? fun entry => entry.phase = .begin with
  | none => rfl
  | some first => rfl

/-- In every run on a clock that does not go back, the handoffs with a total duration are
the committed ones, and it is the sum of the durations of their phases. -/
theorem handoffDurations_law (db : MetadataDb) (calls : List LeaseCall) (hnew : db.NoHandoffs)
    (hclock : Clocked calls) (project : String) (n : Nat) :
    let handoffs := collectHandoffs project (leaseStoreAt db calls n)
    (handoffMetrics handoffs).committedTotalDurations.map
        (fun total => (total.handoffId, total.durationSeconds.toNat)) =
      (handoffs.filter fun handoff => handoff.record.state = .committed).map fun handoff =>
        (handoff.record.handoffId,
          (handoff.phaseDurations.map fun d => d.durationSeconds.toNat).sum) := by
  intro handoffs
  show (handoffs.filterMap LocalMetricsHandoffInput.committedTotalDuration).map _ = _
  have heach : ∀ handoff ∈ handoffs,
      (handoff.committedTotalDuration.map fun total =>
        (total.handoffId, total.durationSeconds.toNat)) =
      (Option.guard (fun handoff => decide (handoff.record.state = .committed)) handoff).map
        fun handoff => (handoff.record.handoffId,
          (handoff.phaseDurations.map fun d => d.durationSeconds.toNat).sum) := by
    intro handoff hmem
    obtain ⟨hstate, hphases⟩ := mem_collectHandoffs hmem
    have hcounted : Counted ((leaseStoreAt db calls n).life handoff.record.handoffId)
        (pathAt db calls handoff.record.handoffId n) := leaseStoreAt_counted hnew _ n
    have horder : InOrder handoff.journal := by
      obtain ⟨record, -, rfl⟩ := List.mem_map.mp hmem
      exact inOrder_listHandoffJournal (leaseStoreAt_numbered hnew n)
        (leaseStoreAt_timed hnew hclock n) _
    by_cases hcommitted : handoff.record.state = .committed
    · rw [Option.guard, if_pos (decide_eq_true hcommitted)]
      obtain ⟨total, htotal, hid, hsum⟩ := committedTotalDuration_of_committed hcounted horder
        hphases (hstate.trans (congrArg some hcommitted))
      rw [htotal, Option.map_some, hid, hsum, Option.map_some]
    · rw [Option.guard, if_neg (by simpa using hcommitted),
        committedTotalDuration_eq_none hcounted horder hphases]
      · rfl
      · rw [hstate]
        exact fun heq => hcommitted (Option.some.inj heq)
  rw [List.map_filterMap, List.filterMap_congr heach, ← List.map_filterMap,
    List.filterMap_eq_filter]

end

def demoCalls : List LeaseCall := demoHandoff.map .call

theorem demoCalls_clocked : Clocked demoCalls where
  forward := by decide
  fits := by decide

theorem continuationMetrics_law_demo :
    let handoffs := listHandoffs "project-1" (leaseStoreAt demoStore demoRejected 5)
    (continuationMetrics (collectHandoffs "project-1"
        (leaseStoreAt demoStore demoRejected 5))).aborted =
      handoffs.countP fun h => decide (.aborted ∈ pathAt demoStore demoRejected h.handoffId 5) :=
  (continuationMetrics_law demoStore demoRejected demoStore_noHandoffs "project-1" 5).2.2.2.1

theorem handoffDurations_law_demo :
    (handoffMetrics (collectHandoffs "project-1"
        (leaseStoreAt demoStore demoCalls 5))).committedTotalDurations.map
        (fun total => (total.handoffId, total.durationSeconds.toNat)) =
      ((collectHandoffs "project-1" (leaseStoreAt demoStore demoCalls 5)).filter
        fun handoff => handoff.record.state = .committed).map fun handoff =>
          (handoff.record.handoffId,
            (handoff.phaseDurations.map fun d => d.durationSeconds.toNat).sum) :=
  handoffDurations_law demoStore demoCalls demoStore_noHandoffs demoCalls_clocked "project-1" 5

end DevRelay.Agent
