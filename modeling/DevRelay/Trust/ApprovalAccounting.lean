import DevRelay.Storage.HandoffInvariant
import DevRelay.Trust.Command

/-!
# Accounting for one-time approvals

A run of decisions and authorizations, told by its replies: what was decided for
a key so far, and how often it was authorized once.  Every authorization of an
allow-once decision consumes a row, so there are never more of them than
decisions.  The latest decision is read off the order of the signed time
column, which is the order of the decisions as long as the times of one key do
not pass from below `2^63` to above it.
-/

namespace DevRelay.Trust

open DevRelay.Lib DevRelay.Core DevRelay.Storage

/-! ## What the calls do -/

/-- Decision rows of one key. -/
abbrev keyed (key : CommandKey) : CommandTrustRow → Bool :=
  commandTrustRow key (some key.commandHash)

theorem recordBody_run {key : CommandKey} {decision : CommandTrustDecision}
    {createdAt : UInt64} {db db' : TrustDb}
    {ending : Ending (Except DevRelayError CommandTrustRecord)}
    (h : (recordCommandTrustDecisionBody key decision createdAt).run db = (.ok ending, db')) :
    (∃ record, ending = .committed (.ok record)) ∧
      db'.commandTrustApprovals = db.commandTrustApprovals ++
        [commandTrustRowOf key decision createdAt (db.commandTrustApprovals.length + 1)] := by
  simp only [recordCommandTrustDecisionBody, Prog.run_attempt_bind_ok, Prog.run_query_bind] at h
  obtain ⟨db₁, hinsert, h⟩ := h
  obtain ⟨_, metadata, -, h⟩ := run_onMetadata_bind_ok h
  simp only [Prog.run_commitWith_ok] at h
  obtain ⟨rfl, rfl⟩ := h
  unfold insertCommandTrustRow? at hinsert
  split at hinsert
  · cases hinsert
    exact ⟨⟨_, rfl⟩, rfl⟩
  · cases hinsert

/-- A decision is recorded, or the approvals stay as they are. -/
theorem record_cases (fault : Fault DevRelayError) (key : CommandKey)
    (decision : CommandTrustDecision) (createdAt : UInt64) (db : TrustDb) :
    (∃ e, recordCommandTrustDecisionAt fault key decision createdAt db = (.error e, db)) ∨
      ∃ record db', recordCommandTrustDecisionAt fault key decision createdAt db =
          (.ok record, db') ∧
        db'.commandTrustApprovals = db.commandTrustApprovals ++
          [commandTrustRowOf key decision createdAt (db.commandTrustApprovals.length + 1)] := by
  unfold recordCommandTrustDecisionAt
  split
  · exact Or.inl ⟨_, rfl⟩
  · rcases Prog.transaction_cases fault
        (recordCommandTrustDecisionBody key decision createdAt) db with
      herror | ⟨r, hrun, -⟩ | ⟨r, db', hrun, htx⟩
    · exact Or.inl herror
    · obtain ⟨⟨record, hending⟩, -⟩ := recordBody_run hrun
      cases hending
    · obtain ⟨⟨record, hending⟩, hrows⟩ := recordBody_run hrun
      cases hending
      exact Or.inr ⟨record, db', htx, hrows⟩

theorem run_latestCommandTrustRecord_bind_ok {α : Type} {key : CommandKey}
    {hash : Option String} {k : Option CommandTrustRecord → TrustSql α} {db db' : TrustDb}
    {b : α} (h : (latestCommandTrustRecord key hash >>= k).run db = (.ok b, db')) :
    ∃ record, (k record).run db = (.ok b, db') ∧ ∀ r, record = some r →
      ∃ row, latestRow (db.commandTrustApprovals.filter (commandTrustRow key hash)) =
        some row ∧ commandTrustRecordFromRow row = .ok r := by
  obtain ⟨record, db₁, hrun, hk⟩ := (Prog.run_bind_ok _ _ _ _ _).mp h
  simp only [latestCommandTrustRecord, Prog.run_query_bind] at hrun
  cases hrow : latestRow (db.commandTrustApprovals.filter (commandTrustRow key hash)) with
  | none =>
    simp only [hrow, Prog.run_pure_ok] at hrun
    obtain ⟨rfl, rfl⟩ := hrun
    refine ⟨none, hk, fun r hr => ?_⟩
    cases hr
  | some row =>
    simp only [hrow, Prog.run_ofExcept_bind_ok, Prog.run_pure_ok] at hrun
    obtain ⟨r, hread, rfl, rfl⟩ := hrun
    refine ⟨some r, hk, fun r' hr' => ?_⟩
    cases hr'
    exact ⟨row, rfl, hread⟩

/-- An evaluation writes nothing; when it approves, the latest decision for the
hash does. -/
theorem evaluate_run {key : CommandKey} {db db' : TrustDb} {ev : CommandTrustEvaluation}
    (h : (evaluateCommandTrust key).run db = (.ok ev, db')) :
    db' = db ∧ (ev.status.approved = true → ∃ record row, ev.approval = some record ∧
      record.status = some ev.status ∧
      latestRow (db.commandTrustApprovals.filter (keyed key)) = some row ∧
      commandTrustRecordFromRow row = .ok record) := by
  simp only [evaluateCommandTrust, Prog.run_ofExcept_bind_ok] at h
  obtain ⟨_, -, h⟩ := h
  obtain ⟨record, h, hrecord⟩ := run_latestCommandTrustRecord_bind_ok h
  split at h
  · rename_i r status hstatus
    simp only [Prog.run_pure_ok] at h
    obtain ⟨rfl, rfl⟩ := h
    obtain ⟨row, hrow, hread⟩ := hrecord r rfl
    exact ⟨rfl, fun _ => ⟨r, row, rfl, hstatus, hrow, hread⟩⟩
  · obtain ⟨previous, h, -⟩ := run_latestCommandTrustRecord_bind_ok h
    simp only [Prog.run_pure_ok] at h
    obtain ⟨rfl, rfl⟩ := h
    refine ⟨rfl, fun happroved => ?_⟩
    unfold withoutDecision at happroved
    split at happroved
    · split at happroved
      · cases happroved
      · cases happroved
    · cases happroved

/-! Wherever an authorization is stopped, it has at most consumed rows. -/

theorem latestCommandTrustRecord_ensures {J : TrustDb → Prop} {key : CommandKey}
    {hash : Option String} {db : TrustDb} (hdb : J db) :
    (latestCommandTrustRecord key hash).Ensures J (fun _ t => t = db) db := by
  unfold latestCommandTrustRecord
  apply Prog.ensures_query_bind hdb
  split
  · exact Prog.ensures_pure rfl
  · exact Prog.ensures_ofExcept_bind fun _ _ => Prog.ensures_pure rfl

theorem evaluateCommandTrust_ensures {J : TrustDb → Prop} {key : CommandKey} {db : TrustDb}
    (hdb : J db) : (evaluateCommandTrust key).Ensures J (fun _ t => t = db) db := by
  unfold evaluateCommandTrust
  apply Prog.ensures_ofExcept_bind
  intro _ _
  apply Prog.ensures_bind hdb (latestCommandTrustRecord_ensures hdb)
  intro record t _ ht
  subst ht
  split
  · exact Prog.ensures_pure rfl
  · apply Prog.ensures_bind hdb (latestCommandTrustRecord_ensures hdb)
    intro previous t _ ht
    exact Prog.ensures_pure ht

/-- Some of the rows were consumed. -/
def Consumed (rows : List CommandTrustRow) (consumedAt : UInt64) (db : TrustDb) : Prop :=
  ∃ p, db.commandTrustApprovals = consumeWhere p consumedAt rows

theorem consumed_self (db : TrustDb) (consumedAt : UInt64) :
    Consumed db.commandTrustApprovals consumedAt db :=
  ⟨fun _ => false, by simp [consumeWhere]⟩

theorem authorize_consumed (fault : Fault DevRelayError) (key : CommandKey)
    (consumedAt : UInt64) (db : TrustDb) :
    Consumed db.commandTrustApprovals consumedAt
      (authorizeCommandTrustAt fault key consumedAt db).2 := by
  have hself := consumed_self db consumedAt
  have hbody : (authorizeBody key consumedAt).Ensures
      (Consumed db.commandTrustApprovals consumedAt) (fun _ _ => True) db := by
    unfold authorizeBody
    apply Prog.ensures_bind hself (evaluateCommandTrust_ensures hself)
    intro ev t _ ht
    subst ht
    split
    · apply Prog.ensures_update_bind ⟨_, rfl⟩
      split
      · exact Prog.ensures_post (fun _ _ _ => trivial) (evaluateCommandTrust_ensures ⟨_, rfl⟩)
      · exact Prog.ensures_pure trivial
    · exact Prog.ensures_pure trivial
  exact Prog.exec_ensures fault 0 (authorizeBody key consumedAt) db hself hbody

theorem mem_of_latestRow {rows : List CommandTrustRow} {row : CommandTrustRow}
    (h : latestRow rows = some row) : row ∈ rows := by
  have hfold : ∀ (rest : List CommandTrustRow) (r : CommandTrustRow),
      rest.foldl laterApproval r ∈ r :: rest := by
    intro rest
    induction rest with
    | nil =>
      intro r
      exact List.mem_singleton_self r
    | cons x rest ih =>
      intro r
      rw [List.foldl_cons]
      rcases List.mem_cons.mp (ih (laterApproval r x)) with heq | hmem
      · rw [heq]
        unfold laterApproval
        split
        · simp
        · simp
      · simp [hmem]
  unfold latestRow at h
  split at h
  · cases h
  · cases h
    exact hfold _ _

theorem commandTrustRecordFromRow_eq_ok {row : CommandTrustRow} {record : CommandTrustRecord}
    (h : commandTrustRecordFromRow row = .ok record) :
    CommandTrustDecision.parse row.decision = some record.decision ∧
      record.approvalId = row.approvalId ∧
      record.consumedAtUnixSeconds = row.consumedAtUnixSeconds.map clampU64 := by
  unfold commandTrustRecordFromRow at h
  split at h
  · cases h
  · rename_i decision hparse
    cases h
    exact ⟨hparse, rfl, rfl⟩

theorem status_approvedOnce {record : CommandTrustRecord} (h : record.status = some .approvedOnce) :
    record.decision = .allowOnce ∧ record.consumedAtUnixSeconds = none := by
  unfold CommandTrustRecord.status at h
  split at h
  · rename_i hdecision
    split at h
    · rename_i hnone
      exact ⟨hdecision, Option.isNone_iff_eq_none.mp hnone⟩
    · cases h
  · cases h
  · cases h

theorem status_approved {record : CommandTrustRecord} {status : CommandTrustStatus}
    (h : record.status = some status) (happroved : status.approved = true) :
    record.decision.isApproval = true := by
  unfold CommandTrustRecord.status at h
  split at h
  · rename_i hdecision
    rw [hdecision]
    rfl
  · rename_i hdecision
    rw [hdecision]
    rfl
  · cases h
    cases happroved

/-- What an approving authorization has read, and what it has consumed. -/
theorem authorize_approved {fault : Fault DevRelayError} {key : CommandKey}
    {consumedAt : UInt64} {db : TrustDb} {ev : CommandTrustEvaluation}
    (hreply : (authorizeCommandTrustAt fault key consumedAt db).1 = .ok ev)
    (happroved : ev.status.approved = true) :
    ∃ row decision, latestRow (db.commandTrustApprovals.filter (keyed key)) = some row ∧
      CommandTrustDecision.parse row.decision = some decision ∧ decision.isApproval = true ∧
      (ev.status = .approvedOnce → decision = .allowOnce ∧
        row.consumedAtUnixSeconds = none ∧
        (authorizeCommandTrustAt fault key consumedAt db).2.commandTrustApprovals =
          consumeWhere (unconsumed row.approvalId) consumedAt db.commandTrustApprovals) := by
  unfold authorizeCommandTrustAt at hreply ⊢
  rcases Prog.exec_error_or_run fault 0 (authorizeBody key consumedAt) db with ⟨e, herror⟩ | hrun
  · rw [herror] at hreply
    cases hreply
  · rw [hrun] at hreply ⊢
    generalize hend : (authorizeBody key consumedAt).run db = r at hreply ⊢
    obtain ⟨reply, db'⟩ := r
    cases hreply
    unfold authorizeBody at hend
    obtain ⟨ev₀, db₀, heval, hrest⟩ := (Prog.run_bind_ok _ _ _ _ _).mp hend
    obtain ⟨hsame, hlatest⟩ := evaluate_run heval
    subst db₀
    split at hrest
    · -- an allow-once decision: the update finds the row that was read
      rename_i record hstatus hrecord
      obtain ⟨record', row, happroval, hdecided, hrow, hread⟩ := hlatest (by rw [hstatus]; rfl)
      cases hrecord.symm.trans happroval
      rw [hstatus] at hdecided
      obtain ⟨hparse, hid, hconsumed⟩ := commandTrustRecordFromRow_eq_ok hread
      obtain ⟨honce, hnone⟩ := status_approvedOnce hdecided
      rw [hnone, eq_comm, Option.map_eq_none_iff] at hconsumed
      have hfound : (db.commandTrustApprovals.countP (unconsumed record.approvalId)) ≠ 0 := by
        have hmem := (List.mem_filter.mp (mem_of_latestRow hrow)).1
        have hpos := List.countP_pos_iff.mpr ⟨row, hmem, show unconsumed record.approvalId row =
          true by simp [unconsumed, hid, hconsumed]⟩
        omega
      simp only [Prog.run_update_bind, if_neg hfound, Prog.run_pure_ok] at hrest
      obtain ⟨rfl, rfl⟩ := hrest
      refine ⟨row, record.decision, hrow, hparse, by rw [honce]; rfl, fun _ => ?_⟩
      rw [← hid]
      exact ⟨honce, hconsumed, rfl⟩
    · rename_i hother
      simp only [Prog.run_pure_ok] at hrest
      obtain ⟨rfl, rfl⟩ := hrest
      obtain ⟨record, row, happroval, hdecided, hrow, hread⟩ := hlatest happroved
      obtain ⟨hparse, -, -⟩ := commandTrustRecordFromRow_eq_ok hread
      refine ⟨row, record.decision, hrow, hparse, status_approved hdecided happroved, ?_⟩
      intro honce
      exact absurd happroval (hother record honce)

/-! ## The order of the decisions -/

/-- The order of the query: by time, then by identifier. -/
def Before (a b : CommandTrustRow) : Prop :=
  a.createdAtUnixSeconds < b.createdAtUnixSeconds ∨
    (a.createdAtUnixSeconds = b.createdAtUnixSeconds ∧ a.approvalId < b.approvalId)

/-- In rows that are in order the latest one is the last. -/
theorem latestRow_of_pairwise {rows : List CommandTrustRow} (h : rows.Pairwise Before) :
    latestRow rows = rows.getLast? := by
  have hfold : ∀ (rest : List CommandTrustRow) (r : CommandTrustRow),
      (r :: rest).Pairwise Before → some (rest.foldl laterApproval r) = (r :: rest).getLast? := by
    intro rest
    induction rest with
    | nil =>
      intro r _
      rfl
    | cons x rest ih =>
      intro r hpairs
      obtain ⟨hr, hrest⟩ := List.pairwise_cons.mp hpairs
      have hlater : laterApproval r x = x := by
        unfold laterApproval
        exact if_pos (hr x List.mem_cons_self)
      rw [List.foldl_cons, hlater, ih x hrest, List.getLast?_cons_cons]
  cases rows with
  | nil => rfl
  | cons r rest => exact hfold rest r h

theorem keyed_consume (key : CommandKey) (r : CommandTrustRow) (consumedAt : Option Int64) :
    keyed key { r with consumedAtUnixSeconds := consumedAt } = keyed key r := rfl

/-- What a consumption does not touch can be read after it. -/
theorem map_filter_consumeWhere {β : Type} (key : CommandKey) (p : CommandTrustRow → Bool)
    (consumedAt : UInt64) (rows : List CommandTrustRow) (g : CommandTrustRow → β)
    (hg : ∀ r, g { r with consumedAtUnixSeconds := some (asI64 consumedAt) } = g r) :
    ((consumeWhere p consumedAt rows).filter (keyed key)).map g =
      (rows.filter (keyed key)).map g := by
  induction rows with
  | nil => rfl
  | cons r rows ih =>
    have hrow : keyed key (if p r then
        { r with consumedAtUnixSeconds := some (asI64 consumedAt) } else r) = keyed key r := by
      split
      · exact keyed_consume key r _
      · rfl
    have hval : g (if p r then
        { r with consumedAtUnixSeconds := some (asI64 consumedAt) } else r) = g r := by
      split
      · exact hg r
      · rfl
    unfold consumeWhere at ih ⊢
    rw [List.map_cons, List.filter_cons, List.filter_cons, hrow]
    split
    · rw [List.map_cons, List.map_cons, hval, ih]
    · exact ih

/-! ## Runs -/

inductive TrustOp where
  | record (key : CommandKey) (decision : CommandTrustDecision) (createdAt : UInt64)
  | authorize (key : CommandKey) (consumedAt : UInt64)

structure TrustCall where
  fault : Fault DevRelayError
  op : TrustOp

def TrustCall.time (call : TrustCall) : UInt64 :=
  match call.op with
  | .record _ _ createdAt => createdAt
  | .authorize _ consumedAt => consumedAt

def trustStep (db : TrustDb) (call : TrustCall) : TrustDb :=
  match call.op with
  | .record key decision createdAt =>
    (recordCommandTrustDecisionAt call.fault key decision createdAt db).2
  | .authorize key consumedAt => (authorizeCommandTrustAt call.fault key consumedAt db).2

/-- The store after the first `n` calls of a run. -/
abbrev trustStoreAt (db : TrustDb) (calls : List TrustCall) (n : Nat) : TrustDb :=
  stateAt trustStep db calls n

/-- The decision that a call records for the key, by its reply. -/
def recordedFor (key : CommandKey) (db : TrustDb) (call : TrustCall) : List CommandTrustDecision :=
  match call.op with
  | .record key' decision createdAt =>
    match (recordCommandTrustDecisionAt call.fault key' decision createdAt db).1 with
    | .ok _ => if key' = key then [decision] else []
    | .error _ => []
  | .authorize _ _ => []

/-- The status that a call authorizes the key with, by its reply. -/
def authorizedFor (key : CommandKey) (db : TrustDb) (call : TrustCall) :
    Option CommandTrustStatus :=
  match call.op with
  | .record _ _ _ => none
  | .authorize key' consumedAt =>
    match (authorizeCommandTrustAt call.fault key' consumedAt db).1 with
    | .ok ev => if key' = key ∧ ev.status.approved = true then some ev.status else none
    | .error _ => none

/-- The decisions for a key in the first `n` calls. -/
def decisionsAt (db : TrustDb) (calls : List TrustCall) (key : CommandKey) :
    Nat → List CommandTrustDecision
  | 0 => []
  | n + 1 => decisionsAt db calls key n ++
      (calls[n]?).toList.flatMap (recordedFor key (trustStoreAt db calls n))

/-- The calls among the first `n` that authorized the key once. -/
def grantsAt (db : TrustDb) (calls : List TrustCall) (key : CommandKey) : Nat → Nat
  | 0 => 0
  | n + 1 => grantsAt db calls key n +
      if (calls[n]?).bind (authorizedFor key (trustStoreAt db calls n)) = some .approvedOnce
      then 1 else 0

/-- What approvals are for. -/
structure ApprovalLaw (db : TrustDb) (calls : List TrustCall) : Prop where
  /-- No more one-time authorizations than decisions to allow once. -/
  accounting : ∀ n key,
    grantsAt db calls key n ≤ (decisionsAt db calls key n).count .allowOnce
  /-- What is authorized was approved, by the latest decision for its hash. -/
  approved : ∀ n (hn : n < calls.length) key status,
    authorizedFor key (trustStoreAt db calls n) calls[n] = some status →
    ∃ decision, (decisionsAt db calls key n).getLast? = some decision ∧
      decision.isApproval = true

/-- A decision at `2^63` or later for a key that has a decision from before. -/
def Straddles (db : TrustDb) (call : TrustCall) : Prop :=
  match call.op with
  | .record key _ createdAt => 2 ^ 63 ≤ createdAt.toNat ∧
      ∃ r ∈ db.commandTrustApprovals, keyed key r = true ∧ 0 ≤ r.createdAtUnixSeconds
  | .authorize _ _ => False

instance (db : TrustDb) (call : TrustCall) : Decidable (Straddles db call) :=
  match call with
  | ⟨_, .record key _ createdAt⟩ => inferInstanceAs (Decidable (2 ^ 63 ≤ createdAt.toNat ∧
      ∃ r ∈ db.commandTrustApprovals, keyed key r = true ∧ 0 ≤ r.createdAtUnixSeconds))
  | ⟨_, .authorize _ _⟩ => inferInstanceAs (Decidable False)

/-- Allow-once decisions of the key that were consumed. -/
def spent (key : CommandKey) (r : CommandTrustRow) : Bool :=
  keyed key r && r.decision = CommandTrustDecision.allowOnce.asStr &&
    r.consumedAtUnixSeconds.isSome

/-- The rows of a key, seen from the calls. -/
structure Accounted (db : TrustDb) (calls : List TrustCall) (key : CommandKey) (n : Nat)
    (rows : List CommandTrustRow) : Prop where
  decisions : (rows.filter (keyed key)).map CommandTrustRow.decision =
    (decisionsAt db calls key n).map CommandTrustDecision.asStr
  ordered : (rows.filter (keyed key)).Pairwise Before
  numbered : ∀ r ∈ rows, r.approvalId ≤ rows.length
  stamped : ∀ r ∈ rows, ∃ m, ∃ hm : m < calls.length, m < n ∧
    r.createdAtUnixSeconds = asI64 calls[m].time
  granted : grantsAt db calls key n ≤ rows.countP (spent key)

theorem keyed_commandTrustRowOf (key key' : CommandKey) (decision : CommandTrustDecision)
    (createdAt : UInt64) (approvalId : Nat) :
    keyed key (commandTrustRowOf key' decision createdAt approvalId) = decide (key' = key) := by
  obtain ⟨project, device, scope, hash⟩ := key
  obtain ⟨project', device', scope', hash'⟩ := key'
  rw [Bool.eq_iff_iff]
  simp [commandTrustRow, commandTrustRowOf, and_assoc]

section

variable {db : TrustDb} {calls : List TrustCall} {key : CommandKey} {n : Nat}
  {rows : List CommandTrustRow}

theorem Accounted.start (hnew : db.commandTrustApprovals = []) :
    Accounted db calls key 0 db.commandTrustApprovals := by
  rw [hnew]
  exact ⟨rfl, List.Pairwise.nil, fun r hr => absurd hr List.not_mem_nil,
    fun r hr => absurd hr List.not_mem_nil, Nat.le_refl 0⟩

/-- A step that neither records nor authorizes the key, and keeps its rows. -/
theorem Accounted.same (h : Accounted db calls key n rows)
    (hdecisions : decisionsAt db calls key (n + 1) = decisionsAt db calls key n)
    (hgrants : grantsAt db calls key (n + 1) = grantsAt db calls key n) :
    Accounted db calls key (n + 1) rows where
  decisions := by
    rw [hdecisions]
    exact h.decisions
  ordered := h.ordered
  numbered := h.numbered
  stamped r hr := by
    obtain ⟨m, hm, hlt, hstamp⟩ := h.stamped r hr
    exact ⟨m, hm, by omega, hstamp⟩
  granted := by
    rw [hgrants]
    exact h.granted

/-- The new row comes after the rows of its key. -/
theorem Accounted.record (h : Accounted db calls key n rows) (hn : n < calls.length)
    (hsorted : ∀ m (hm : m < calls.length), m < n → calls[m].time ≤ calls[n].time)
    {key' : CommandKey} {decision : CommandTrustDecision} {createdAt : UInt64}
    (htime : calls[n].time = createdAt)
    (hsides : 2 ^ 63 ≤ createdAt.toNat → ∀ r ∈ rows, keyed key' r = true →
      r.createdAtUnixSeconds < 0)
    (hdecisions : decisionsAt db calls key (n + 1) = decisionsAt db calls key n ++
      if key' = key then [decision] else [])
    (hgrants : grantsAt db calls key (n + 1) = grantsAt db calls key n) :
    Accounted db calls key (n + 1)
      (rows ++ [commandTrustRowOf key' decision createdAt (rows.length + 1)]) := by
  have hfilter : (rows ++ [commandTrustRowOf key' decision createdAt
      (rows.length + 1)]).filter (keyed key) = rows.filter (keyed key) ++
      if key' = key then [commandTrustRowOf key' decision createdAt (rows.length + 1)]
      else [] := by
    rw [List.filter_append, List.filter_cons, keyed_commandTrustRowOf, List.filter_nil]
    by_cases hkey : key' = key
    · rw [if_pos hkey, if_pos (by simpa using hkey)]
    · rw [if_neg hkey, if_neg (by simpa using hkey)]
  refine ⟨?_, ?_, ?_, ?_, ?_⟩
  · rw [hfilter, hdecisions, List.map_append, List.map_append, h.decisions]
    split
    · rfl
    · rfl
  · rw [hfilter]
    split
    · rename_i hkey
      subst hkey
      refine List.pairwise_append.mpr ⟨h.ordered, List.pairwise_singleton _ _, ?_⟩
      intro a ha b hb
      rw [List.mem_singleton.mp hb]
      obtain ⟨hmem, hkeyed⟩ := List.mem_filter.mp ha
      have hid : a.approvalId < rows.length + 1 := by
        have := h.numbered a hmem
        omega
      obtain ⟨m, hm, hlt, hstamp⟩ := h.stamped a hmem
      have htimes : a.createdAtUnixSeconds ≤ asI64 createdAt := by
        rw [hstamp]
        apply asI64_le_asI64
        · rw [← htime]
          exact hsorted m hm hlt
        · intro hlate
          rw [← hstamp]
          exact hsides hlate a hmem hkeyed
      rcases Int64.lt_or_eq_of_le htimes with hlt | heq
      · exact Or.inl hlt
      · exact Or.inr ⟨heq, hid⟩
    · rw [List.append_nil]
      exact h.ordered
  · intro r hr
    rw [List.length_append, List.length_singleton]
    rcases List.mem_append.mp hr with hold | hnew
    · have := h.numbered r hold
      omega
    · rw [List.mem_singleton.mp hnew]
      exact Nat.le_refl _
  · intro r hr
    rcases List.mem_append.mp hr with hold | hnew
    · obtain ⟨m, hm, hlt, hstamp⟩ := h.stamped r hold
      exact ⟨m, hm, by omega, hstamp⟩
    · refine ⟨n, hn, by omega, ?_⟩
      rw [List.mem_singleton.mp hnew, htime]
      rfl
  · rw [hgrants, List.countP_append]
    have := h.granted
    omega

/-- A consumption keeps the decisions and their order. -/
theorem Accounted.consume (h : Accounted db calls key n rows) (p : CommandTrustRow → Bool)
    (consumedAt : UInt64)
    (hdecisions : decisionsAt db calls key (n + 1) = decisionsAt db calls key n)
    (hgrants : grantsAt db calls key (n + 1) ≤
      (consumeWhere p consumedAt rows).countP (spent key)) :
    Accounted db calls key (n + 1) (consumeWhere p consumedAt rows) where
  decisions := by
    rw [hdecisions, ← h.decisions]
    exact map_filter_consumeWhere key p consumedAt rows _ fun _ => rfl
  ordered := by
    have hpairs : ((rows.filter (keyed key)).map fun r =>
        (r.createdAtUnixSeconds, r.approvalId)).Pairwise fun a b =>
        a.1 < b.1 ∨ (a.1 = b.1 ∧ a.2 < b.2) := List.pairwise_map.mpr h.ordered
    rw [← map_filter_consumeWhere key p consumedAt rows _ fun _ => rfl] at hpairs
    have hordered := List.pairwise_map.mp hpairs
    exact hordered
  numbered r hr := by
    obtain ⟨r₀, hr₀, rfl⟩ := List.mem_map.mp hr
    have hid := h.numbered r₀ hr₀
    rw [consumeWhere, List.length_map]
    split
    · exact hid
    · exact hid
  stamped r hr := by
    obtain ⟨r₀, hr₀, rfl⟩ := List.mem_map.mp hr
    obtain ⟨m, hm, hlt, hstamp⟩ := h.stamped r₀ hr₀
    refine ⟨m, hm, by omega, ?_⟩
    split
    · exact hstamp
    · exact hstamp
  granted := hgrants

theorem spent_consume {p : CommandTrustRow → Bool} {consumedAt : UInt64}
    {r : CommandTrustRow} (h : spent key r = true) :
    spent key (if p r then { r with consumedAtUnixSeconds := some (asI64 consumedAt) }
      else r) = true := by
  split
  · simp only [spent, Bool.and_eq_true] at h ⊢
    exact ⟨h.1, rfl⟩
  · exact h

theorem decisionsAt_succ (hn : n < calls.length) :
    decisionsAt db calls key (n + 1) = decisionsAt db calls key n ++
      recordedFor key (trustStoreAt db calls n) calls[n] := by
  rw [decisionsAt, List.getElem?_eq_getElem hn]
  simp

theorem grantsAt_succ (hn : n < calls.length) :
    grantsAt db calls key (n + 1) = grantsAt db calls key n +
      if authorizedFor key (trustStoreAt db calls n) calls[n] = some .approvedOnce
      then 1 else 0 := by
  rw [grantsAt, List.getElem?_eq_getElem hn]
  rfl

theorem decisionsAt_of_le (hn : calls.length ≤ n) :
    decisionsAt db calls key (n + 1) = decisionsAt db calls key n := by
  rw [decisionsAt, List.getElem?_eq_none hn]
  simp

theorem grantsAt_of_le (hn : calls.length ≤ n) :
    grantsAt db calls key (n + 1) = grantsAt db calls key n := by
  rw [grantsAt, List.getElem?_eq_none hn]
  simp

/-- The latest row of a key is that of its latest decision. -/
theorem Accounted.latest (h : Accounted db calls key n rows) {row : CommandTrustRow}
    {decision : CommandTrustDecision} (hrow : latestRow (rows.filter (keyed key)) = some row)
    (hparse : CommandTrustDecision.parse row.decision = some decision) :
    (decisionsAt db calls key n).getLast? = some decision := by
  rw [latestRow_of_pairwise h.ordered] at hrow
  have hlast : ((rows.filter (keyed key)).map CommandTrustRow.decision).getLast? =
      some row.decision := by
    rw [List.getLast?_map, hrow, Option.map_some]
  rw [h.decisions, List.getLast?_map] at hlast
  obtain ⟨decision', hlast', htext⟩ := Option.map_eq_some_iff.mp hlast
  rw [← htext, CommandTrustDecision.parse_asStr] at hparse
  cases hparse
  exact hlast'

theorem authorizedFor_eq_some {fault : Fault DevRelayError} {key' : CommandKey}
    {consumedAt : UInt64} {status : CommandTrustStatus}
    (h : authorizedFor key db ⟨fault, .authorize key' consumedAt⟩ = some status) :
    key' = key ∧ ∃ ev, (authorizeCommandTrustAt fault key' consumedAt db).1 = .ok ev ∧
      ev.status = status ∧ status.approved = true := by
  simp only [authorizedFor] at h
  split at h
  · rename_i ev hreply
    split at h
    · rename_i hcond
      cases h
      exact ⟨hcond.1, ev, hreply, rfl, hcond.2⟩
    · cases h
  · cases h

/-- An authorization keeps the account: one that grants consumes a row. -/
theorem Accounted.authorize (hn : n < calls.length) {fault : Fault DevRelayError}
    {key' : CommandKey} {consumedAt : UInt64}
    (h : Accounted db calls key n (trustStoreAt db calls n).commandTrustApprovals)
    (hcall : calls[n] = ⟨fault, .authorize key' consumedAt⟩) :
    Accounted db calls key (n + 1) (authorizeCommandTrustAt fault key' consumedAt
      (trustStoreAt db calls n)).2.commandTrustApprovals := by
  generalize hstore : trustStoreAt db calls n = store at h ⊢
  have hdecisions : decisionsAt db calls key (n + 1) = decisionsAt db calls key n := by
    rw [decisionsAt_succ hn, hcall]
    simp [recordedFor]
  have hgrants : grantsAt db calls key (n + 1) = _ := grantsAt_succ hn
  rw [hcall, hstore] at hgrants
  obtain ⟨p, hrows⟩ := authorize_consumed fault key' consumedAt store
  rw [hrows]
  refine h.consume p consumedAt hdecisions ?_
  have hgranted := h.granted
  by_cases hgrant : authorizedFor key store ⟨fault, .authorize key' consumedAt⟩ =
      some .approvedOnce
  · obtain ⟨hkey, ev, hreply, hstatus, happroved⟩ := authorizedFor_eq_some hgrant
    subst hkey
    obtain ⟨row, decision, hrow, hparse, -, honce⟩ :=
      authorize_approved hreply (by rw [hstatus]; exact happroved)
    obtain ⟨hdecision, hnone, hconsumed⟩ := honce hstatus
    obtain ⟨hmem, hkeyed⟩ := List.mem_filter.mp (mem_of_latestRow hrow)
    have htext : row.decision = CommandTrustDecision.allowOnce.asStr := by
      rw [hdecision] at hparse
      exact CommandTrustDecision.eq_of_parse hparse
    rw [hrows] at hconsumed
    have hlt : store.commandTrustApprovals.countP (spent key') <
        (consumeWhere p consumedAt store.commandTrustApprovals).countP (spent key') := by
      rw [hconsumed]
      apply countP_lt_countP_map (fun r _ hr => spent_consume hr) hmem
      · simp [spent, hnone]
      · have hsel : unconsumed row.approvalId row = true := by simp [unconsumed, hnone]
        rw [if_pos hsel]
        simp only [spent, Bool.and_eq_true, decide_eq_true_eq]
        exact ⟨⟨hkeyed, htext⟩, rfl⟩
    rw [if_pos hgrant] at hgrants
    omega
  · have hle : store.commandTrustApprovals.countP (spent key) ≤
        (consumeWhere p consumedAt store.commandTrustApprovals).countP (spent key) :=
      countP_le_countP_map fun r _ hr => spent_consume hr
    rw [if_neg hgrant] at hgrants
    omega

theorem accountedAt (hnew : db.commandTrustApprovals = [])
    (hsorted : (calls.map TrustCall.time).Pairwise (· ≤ ·))
    (hsides : ∀ n (hn : n < calls.length), ¬Straddles (trustStoreAt db calls n) calls[n])
    (key : CommandKey) (n : Nat) :
    Accounted db calls key n (trustStoreAt db calls n).commandTrustApprovals := by
  induction n with
  | zero => exact Accounted.start hnew
  | succ n ih =>
    by_cases hn : n < calls.length
    · have hside := hsides n hn
      have hdecisions : decisionsAt db calls key (n + 1) = _ := decisionsAt_succ hn
      have hgrants : grantsAt db calls key (n + 1) = _ := grantsAt_succ hn
      rw [trustStoreAt, stateAt_succ hn]
      rcases hcall : calls[n] with ⟨fault, op⟩
      rw [hcall] at hside hdecisions hgrants
      cases op with
      | authorize key' consumedAt => exact ih.authorize hn hcall
      | record key' decision createdAt =>
        have hgrants' : grantsAt db calls key (n + 1) = grantsAt db calls key n := by
          rw [hgrants]
          simp [authorizedFor]
        rcases record_cases fault key' decision createdAt (trustStoreAt db calls n) with
          ⟨e, heq⟩ | ⟨record, db', heq, hrows⟩
        · have hsame : (trustStep (trustStoreAt db calls n)
              ⟨fault, .record key' decision createdAt⟩) = trustStoreAt db calls n :=
            congrArg Prod.snd heq
          rw [hsame]
          apply ih.same _ hgrants'
          rw [hdecisions]
          simp [recordedFor, heq]
        · have hafter : (trustStep (trustStoreAt db calls n)
              ⟨fault, .record key' decision createdAt⟩) = db' := congrArg Prod.snd heq
          rw [hafter, hrows]
          have hbefore : ∀ m (hm : m < calls.length), m < n → calls[m].time ≤ calls[n].time := by
            intro m hm hlt
            exact List.pairwise_iff_getElem.mp (List.pairwise_map.mp hsorted) m n hm hn hlt
          apply ih.record hn hbefore
          · rw [hcall]
            rfl
          · intro hlate r hr hkeyed
            by_contra hneg
            exact hside ⟨hlate, r, hr, hkeyed, Int64.not_lt.mp hneg⟩
          · rw [hdecisions]
            simp [recordedFor, heq]
          · exact hgrants'
    · have hsame : trustStoreAt db calls (n + 1) = trustStoreAt db calls n := by
        rw [trustStoreAt, trustStoreAt, stateAt_of_length_le (by omega),
          stateAt_of_length_le (by omega)]
      rw [hsame]
      exact ih.same (decisionsAt_of_le (by omega)) (grantsAt_of_le (by omega))

end

theorem asStr_injective : Function.Injective CommandTrustDecision.asStr := by
  intro a b h
  have hparse := CommandTrustDecision.parse_asStr a
  rw [h, CommandTrustDecision.parse_asStr] at hparse
  exact (Option.some.inj hparse).symm

theorem Accounted.accounting {db : TrustDb} {calls : List TrustCall} {key : CommandKey}
    {n : Nat} {rows : List CommandTrustRow} (h : Accounted db calls key n rows) :
    grantsAt db calls key n ≤ (decisionsAt db calls key n).count .allowOnce := by
  have hspent : rows.countP (spent key) ≤ ((rows.filter (keyed key)).map
      CommandTrustRow.decision).count CommandTrustDecision.allowOnce.asStr := by
    rw [List.count, List.countP_map, List.countP_filter]
    apply List.countP_mono_left
    intro r _ hr
    simp only [spent, Bool.and_eq_true, decide_eq_true_eq] at hr
    simp [hr.1.1, hr.1.2]
  calc grantsAt db calls key n
      ≤ rows.countP (spent key) := h.granted
    _ ≤ ((rows.filter (keyed key)).map CommandTrustRow.decision).count
          CommandTrustDecision.allowOnce.asStr := hspent
    _ = ((decisionsAt db calls key n).map CommandTrustDecision.asStr).count
          CommandTrustDecision.allowOnce.asStr := by rw [h.decisions]
    _ = (decisionsAt db calls key n).count .allowOnce :=
        List.count_map_of_injective _ _ asStr_injective _

/-- From a store without approvals, the law holds of every run with non-decreasing
times in which no key has decisions on both sides of `2^63`. -/
theorem approval_accounting (db : TrustDb) (calls : List TrustCall)
    (hnew : db.commandTrustApprovals = []) (hsorted : (calls.map TrustCall.time).Pairwise (· ≤ ·))
    (hsides : ∀ n (hn : n < calls.length), ¬Straddles (trustStoreAt db calls n) calls[n]) :
    ApprovalLaw db calls where
  accounting n key := (accountedAt hnew hsorted hsides key n).accounting
  approved n hn key status hstatus := by
    have haccount := accountedAt hnew hsorted hsides key n
    rcases hcall : calls[n] with ⟨fault, op⟩
    rw [hcall] at hstatus
    cases op with
    | record key' decision createdAt => cases hstatus
    | authorize key' consumedAt =>
      obtain ⟨hkey, ev, hreply, hev, happroved⟩ := authorizedFor_eq_some hstatus
      subst hkey
      obtain ⟨row, decision, hrow, hparse, happroval, -⟩ :=
        authorize_approved hreply (by rw [hev]; exact happroved)
      exact ⟨decision, haccount.latest hrow hparse, happroval⟩

/-! ## A run -/

/-- One project, and nothing trusted yet. -/
def demoTrustDb : TrustDb where
  metadata := demoStore
  fabricRoots := .empty
  deviceIdentities := .empty
  pairingSessions := .empty
  commandTrustApprovals := []

def demoKey : CommandKey where
  projectId := "project-1"
  deviceId := "device-a"
  commandScope := "manifest"
  commandHash := "cccccccccccccccccccccccccccccccccccccccccccccccccccccccccccccccc"

/-- An approval for one time, and two attempts to use it. -/
def demoApproval : List TrustCall := [
  ⟨noFault, .record demoKey .allowOnce 100⟩,
  ⟨noFault, .authorize demoKey 101⟩,
  ⟨noFault, .authorize demoKey 102⟩]

/-- An approval, and a rejection at the first time the signed column wraps. -/
def demoStraddling : List TrustCall := [
  ⟨noFault, .record demoKey .allowOnce 100⟩,
  ⟨noFault, .record demoKey .reject 9223372036854775808⟩,
  ⟨noFault, .authorize demoKey 9223372036854775808⟩]

/-- The second attempt is not authorized. -/
theorem approval_accounting_demo :
    ApprovalLaw demoTrustDb demoApproval ∧
    grantsAt demoTrustDb demoApproval demoKey 3 = 1 ∧
    decisionsAt demoTrustDb demoApproval demoKey 3 = [.allowOnce] := by
  refine ⟨approval_accounting demoTrustDb demoApproval rfl ?_ ?_, by decide, by decide⟩
  · decide
  · decide

/-- The rejected command is authorized by the older approval. -/
theorem straddling_unapproved : ¬ApprovalLaw demoTrustDb demoStraddling := by
  intro hlaw
  obtain ⟨decision, hlast, happroval⟩ :=
    hlaw.approved 2 (by decide) demoKey .approvedOnce (by decide)
  have hreject : (decisionsAt demoTrustDb demoStraddling demoKey 2).getLast? =
    some .reject := by decide
  rw [hreject] at hlast
  cases hlast
  cases happroval

end DevRelay.Trust
