import DevRelay.Trust.Schema

/-!
# Command trust

`record_command_trust_decision_at`, `evaluate_command_trust` and
`authorize_command_trust_at`.  A decision is appended; an authorization reads
the latest decision for its hash and marks an allow-once decision as consumed.
-/

namespace DevRelay.Trust

open DevRelay.Lib DevRelay.Core DevRelay.Storage

inductive CommandTrustDecision where
  | allowOnce
  | trustThisVersion
  | reject
  deriving DecidableEq, Repr

namespace CommandTrustDecision

def asStr : CommandTrustDecision → String
  | allowOnce => "allow-once"
  | trustThisVersion => "trust-this-version"
  | reject => "reject"

def parse (value : String) : Option CommandTrustDecision :=
  match value with
  | "allow-once" => some allowOnce
  | "trust-this-version" => some trustThisVersion
  | "reject" => some reject
  | _ => none

@[simp] theorem parse_asStr (decision : CommandTrustDecision) :
    parse decision.asStr = some decision := by
  cases decision <;> rfl

/-- Only the text of a decision reads as that decision. -/
theorem eq_of_parse {value : String} {decision : CommandTrustDecision}
    (h : parse value = some decision) : value = decision.asStr := by
  unfold parse at h
  split at h
  · cases h
    rfl
  · cases h
    rfl
  · cases h
    rfl
  · cases h

def isApproval : CommandTrustDecision → Bool
  | allowOnce => true
  | trustThisVersion => true
  | reject => false

end CommandTrustDecision

inductive CommandTrustStatus where
  | approvedOnce
  | trusted
  | rejected
  | changed
  | unapproved
  deriving DecidableEq, Repr

def CommandTrustStatus.approved : CommandTrustStatus → Bool
  | approvedOnce => true
  | trusted => true
  | _ => false

/-- What a decision is about. -/
structure CommandKey where
  projectId : String
  deviceId : String
  commandScope : String
  commandHash : String
  deriving DecidableEq, Repr

structure CommandTrustRecord where
  approvalId : Nat
  key : CommandKey
  decision : CommandTrustDecision
  consumedAtUnixSeconds : Option UInt64
  createdAtUnixSeconds : UInt64
  deriving DecidableEq, Repr

structure CommandTrustEvaluation where
  status : CommandTrustStatus
  approval : Option CommandTrustRecord
  previousHash : Option String
  deriving DecidableEq, Repr

def isLowerHexDigit (c : Char) : Bool :=
  ('0' ≤ c && c ≤ '9') || ('a' ≤ c && c ≤ 'f')

def validateCommandTrustInput (key : CommandKey) : Except DevRelayError Unit := do
  Storage.validateNonEmpty "project_id" key.projectId
  Storage.validateNonEmpty "device_id" key.deviceId
  Storage.validateNonEmpty "command_scope" key.commandScope
  if key.commandScope.toList.all isSpace then
    .error (.config "command_scope must not be blank")
  else if key.commandHash.utf8ByteSize ≠ 64 ∨
      ¬key.commandHash.toList.all isLowerHexDigit then
    .error (.config "command_hash must be a 64-character lowercase hex digest")
  else
    .ok ()

/-! ## Recording a decision -/

def commandTrustRowOf (key : CommandKey) (decision : CommandTrustDecision)
    (createdAt : UInt64) (approvalId : Nat) : CommandTrustRow where
  approvalId := approvalId
  projectId := key.projectId
  deviceId := key.deviceId
  commandScope := key.commandScope
  commandHash := key.commandHash
  decision := decision.asStr
  consumedAtUnixSeconds := none
  createdAtUnixSeconds := asI64 createdAt

/-- `INSERT INTO command_trust_approvals`; the project has to exist. -/
def insertCommandTrustRow? (key : CommandKey) (decision : CommandTrustDecision)
    (createdAt : UInt64) (db : TrustDb) : Option TrustDb :=
  if (db.metadata.projects.lookup key.projectId).isSome then
    some { db with
      commandTrustApprovals := db.commandTrustApprovals ++
        [commandTrustRowOf key decision createdAt (db.commandTrustApprovals.length + 1)] }
  else
    none

def commandTrustEvent (key : CommandKey) (decision : CommandTrustDecision) : AuditEventInput :=
  let event :=
    if decision.isApproval then
      AuditEventInput.new .commandApproved .succeeded
        ("approved command hash for " ++ key.commandScope)
    else
      AuditEventInput.new .securityBlocked .blocked
        ("rejected command hash for " ++ key.commandScope)
  { event with
    detail := [
      ("command_scope", .text key.commandScope),
      ("command_hash", .text key.commandHash),
      ("decision", .text decision.asStr)]
    projectId := some key.projectId
    actorDeviceId := some key.deviceId }

def recordCommandTrustDecisionBody (key : CommandKey) (decision : CommandTrustDecision)
    (createdAt : UInt64) : TrustSql (Ending (Except DevRelayError CommandTrustRecord)) := do
  Prog.attempt (insertCommandTrustRow? key decision createdAt) constraintError
  let approvalId ← Prog.query fun db => db.commandTrustApprovals.length
  onMetadata (insertAuditEventTx (commandTrustEvent key decision) createdAt)
  Prog.commitWith (.ok {
    approvalId := approvalId
    key := key
    decision := decision
    consumedAtUnixSeconds := none
    createdAtUnixSeconds := createdAt })

def recordCommandTrustDecisionAt (fault : Fault DevRelayError) (key : CommandKey)
    (decision : CommandTrustDecision) (createdAt : UInt64) (db : TrustDb) :
    Except DevRelayError CommandTrustRecord × TrustDb :=
  match validateCommandTrustInput key with
  | .error e => (.error e, db)
  | .ok () => (recordCommandTrustDecisionBody key decision createdAt).transaction fault db

/-! ## Evaluating and authorizing -/

def commandTrustRecordFromRow (row : CommandTrustRow) : Except DevRelayError CommandTrustRecord :=
  match CommandTrustDecision.parse row.decision with
  | none => .error (.sqlite ("unknown command trust decision " ++ row.decision))
  | some decision => .ok {
      approvalId := row.approvalId
      key := ⟨row.projectId, row.deviceId, row.commandScope, row.commandHash⟩
      decision := decision
      consumedAtUnixSeconds := row.consumedAtUnixSeconds.map clampU64
      createdAtUnixSeconds := clampU64 row.createdAtUnixSeconds }

/-- Rows of the scope, or of one hash of it. -/
def commandTrustRow (key : CommandKey) (commandHash : Option String) (r : CommandTrustRow) : Bool :=
  r.projectId = key.projectId && r.deviceId = key.deviceId &&
    r.commandScope = key.commandScope && commandHash.all fun hash => r.commandHash = hash

/-- `ORDER BY created_at_unix_seconds DESC, approval_id DESC` -/
def laterApproval (a b : CommandTrustRow) : CommandTrustRow :=
  if a.createdAtUnixSeconds < b.createdAtUnixSeconds ∨
      (a.createdAtUnixSeconds = b.createdAtUnixSeconds ∧ a.approvalId < b.approvalId) then
    b
  else
    a

/-- The first row in that order. -/
def latestRow (rows : List CommandTrustRow) : Option CommandTrustRow :=
  match rows with
  | [] => none
  | r :: rows => some (rows.foldl laterApproval r)

def latestCommandTrustRecord (key : CommandKey) (commandHash : Option String) :
    TrustSql (Option CommandTrustRecord) := do
  let row ← Prog.query fun db =>
    latestRow (db.commandTrustApprovals.filter (commandTrustRow key commandHash))
  match row with
  | none => pure none
  | some row =>
    let record ← Prog.ofExcept (commandTrustRecordFromRow row)
    pure (some record)

def CommandTrustRecord.status (record : CommandTrustRecord) : Option CommandTrustStatus :=
  match record.decision with
  | .allowOnce => if record.consumedAtUnixSeconds.isNone then some .approvedOnce else none
  | .trustThisVersion => some .trusted
  | .reject => some .rejected

/-- The evaluation when no decision for the hash applies. -/
def withoutDecision (key : CommandKey) (previous : Option CommandTrustRecord) :
    CommandTrustEvaluation :=
  match previous with
  | some previous =>
    if previous.key.commandHash ≠ key.commandHash then
      { status := .changed
        approval := some previous
        previousHash := some previous.key.commandHash }
    else
      { status := .unapproved, approval := none, previousHash := none }
  | none => { status := .unapproved, approval := none, previousHash := none }

def evaluateCommandTrust (key : CommandKey) : TrustSql CommandTrustEvaluation := do
  Prog.ofExcept (validateCommandTrustInput key)
  let record ← latestCommandTrustRecord key (some key.commandHash)
  match record, record.bind CommandTrustRecord.status with
  | some record, some status =>
    pure { status := status, approval := some record, previousHash := none }
  | _, _ =>
    let previous ← latestCommandTrustRecord key none
    pure (withoutDecision key previous)

/-- Rows of the update of an authorization. -/
def unconsumed (approvalId : Nat) (r : CommandTrustRow) : Bool :=
  r.approvalId = approvalId && r.consumedAtUnixSeconds.isNone

/-- Mark the rows that satisfy `p` as consumed. -/
def consumeWhere (p : CommandTrustRow → Bool) (consumedAt : UInt64)
    (rows : List CommandTrustRow) : List CommandTrustRow :=
  rows.map fun r =>
    if p r then { r with consumedAtUnixSeconds := some (asI64 consumedAt) } else r

def authorizeBody (key : CommandKey) (consumedAt : UInt64) : TrustSql CommandTrustEvaluation := do
  let evaluation ← evaluateCommandTrust key
  match evaluation.status, evaluation.approval with
  | .approvedOnce, some record =>
    let changed ← Prog.update
      (fun db => { db with
        commandTrustApprovals :=
          consumeWhere (unconsumed record.approvalId) consumedAt db.commandTrustApprovals })
      fun db => db.commandTrustApprovals.countP (unconsumed record.approvalId)
    if changed = 0 then
      evaluateCommandTrust key
    else
      pure { evaluation with
        approval := some { record with consumedAtUnixSeconds := some consumedAt } }
  | _, _ => pure evaluation

/-- No transaction: the statements stand for themselves. -/
def authorizeCommandTrustAt (fault : Fault DevRelayError) (key : CommandKey)
    (consumedAt : UInt64) (db : TrustDb) :
    Except DevRelayError CommandTrustEvaluation × TrustDb :=
  (authorizeBody key consumedAt).exec fault 0 db

end DevRelay.Trust
