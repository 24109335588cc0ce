import DevRelay.Core.Error
import Mathlib.Data.List.Sort
import Mathlib.Data.Prod.Lex
import Mathlib.Data.String.Basic

/-!
# The log of editor contexts

`editor.context.update` and `editor.context.latest`.  A context is kept as the detail of an audit
event, in the database of its project or of the agent, between the events of everything else, and
is looked for among the newest hundred of them.

A database that is not there has no rows here.  Rows are never deleted, so the next row id is one
more than their number; the seconds of the clock are far from where the column's sign would matter.
-/

namespace DevRelay.Editor

open DevRelay.Lib DevRelay.Core

inductive ContextRpcError where
  | invalidParams (detail : String)
  | internal (detail : String)
  deriving DecidableEq, Repr

/-- What the calls read of an audit event. -/
structure AuditRow (κ : Type) where
  auditId : Nat
  eventType : AuditEventType
  projectId : Option String
  /-- the field `capsule` of the detail -/
  capsule : Option κ
  createdAt : Nat
  deriving DecidableEq

/-- The audit events of each database, in the order in which they were written. -/
abbrev AuditHome (δ κ : Type) := δ → List (AuditRow κ)

structure ContextEnv (δ κ : Type) where
  isObject : κ → Bool
  /-- the length of `serde_json::to_vec` -/
  encodedLength : κ → Nat
  /-- the database of a project, or that of the agent -/
  databaseOf : Option String → δ

structure EditorContextUpdateParams (κ : Type) where
  project : Option String
  workspacePath : Option String
  capsule : κ

structure EditorContextUpdateResult where
  auditId : Nat
  capsuleBytes : Nat
  recordedAtUnixSeconds : Nat
  deriving DecidableEq, Repr

structure EditorContextSnapshot (κ : Type) where
  project : Option String
  auditId : Nat
  capsule : κ
  capturedAtUnixSeconds : Nat
  deriving DecidableEq

def maxEditorContextCapsuleBytes : Nat := 128 * 1024

section

variable {δ κ : Type}

/-! ## Writing -/

/-- `record_audit_event`, with the new row. -/
def recordAuditEvent [DecidableEq δ] (home : AuditHome δ κ) (database : δ)
    (eventType : AuditEventType) (projectId : Option String) (capsule : Option κ)
    (createdAt : Nat) : AuditRow κ × AuditHome δ κ :=
  let row : AuditRow κ :=
    ⟨(home database).length + 1, eventType, projectId, capsule, createdAt⟩
  (row, fun other => if other = database then home database ++ [row] else home other)

/-- `project.trim()` -/
def trimProject (project : String) : String := String.ofList (trim project.toList)

/-- The checks of an update, and the project that it names. -/
def checkContextUpdate (env : ContextEnv δ κ) (params : EditorContextUpdateParams κ) :
    Except ContextRpcError (Option String) :=
  if !env.isObject params.capsule then .error (.invalidParams "capsule must be a JSON object")
  else if maxEditorContextCapsuleBytes < env.encodedLength params.capsule then
    .error (.invalidParams ("editor context capsule exceeds " ++
      toString maxEditorContextCapsuleBytes ++ " bytes"))
  else
    match params.project with
    | none => .ok none
    | some project =>
      if trimProject project = "" then .error (.invalidParams "project must not be empty")
      else .ok (some (trimProject project))

def handleEditorContextUpdate [DecidableEq δ] (env : ContextEnv δ κ)
    (params : EditorContextUpdateParams κ) (now : Nat) (home : AuditHome δ κ) :
    Except ContextRpcError EditorContextUpdateResult × AuditHome δ κ :=
  match checkContextUpdate env params with
  | .error e => (.error e, home)
  | .ok project =>
    let (row, home) := recordAuditEvent home (env.databaseOf project) .editorContextUpdated
      project (some params.capsule) now
    (.ok {
      auditId := row.auditId
      capsuleBytes := env.encodedLength params.capsule
      recordedAtUnixSeconds := row.createdAt }, home)

/-! ## Reading -/

/-- `ORDER BY created_at_unix_seconds DESC, audit_id DESC` -/
def AuditRow.key (row : AuditRow κ) : ℕ ×ₗ ℕ := toLex (row.createdAt, row.auditId)

def EditorContextSnapshot.key (context : EditorContextSnapshot κ) : ℕ ×ₗ ℕ :=
  toLex (context.capturedAtUnixSeconds, context.auditId)

/-- The rows that a query goes over. -/
def selectedRows (projectId : Option String) (rows : List (AuditRow κ)) : List (AuditRow κ) :=
  match projectId with
  | some project => rows.filter fun row => row.projectId = some project
  | none => rows

def sortNewestFirst (rows : List (AuditRow κ)) : List (AuditRow κ) :=
  rows.insertionSort fun left right => right.key ≤ left.key

def listAuditEvents (rows : List (AuditRow κ)) (projectId : Option String) (limit : Nat) :
    List (AuditRow κ) :=
  let limit := min (max limit 1) 1000
  sortNewestFirst ((sortNewestFirst (selectedRows projectId rows)).take limit)

def editorContextFromAudit (record : AuditRow κ) : Option (EditorContextSnapshot κ) :=
  if record.eventType ≠ .editorContextUpdated then none
  else record.capsule.map fun capsule => {
    project := record.projectId
    auditId := record.auditId
    capsule
    capturedAtUnixSeconds := record.createdAt }

/-- The contexts that a database shows of a project, or of all of them. -/
def listedContexts (rows : List (AuditRow κ)) (projectId : Option String) :
    List (EditorContextSnapshot κ) :=
  (listAuditEvents rows projectId 100).filterMap editorContextFromAudit

def registeredProjectIdsForQuery (registered : List String) (project : Option String) :
    Except ContextRpcError (List String) :=
  match project with
  | some project =>
    if project ∈ registered then .ok [project]
    else .error (.internal ("unknown project " ++ project))
  | none => .ok registered

def handleEditorContextLatest (env : ContextEnv δ κ) (registered : List String)
    (project : Option String) (home : AuditHome δ κ) :
    Except ContextRpcError (Option (EditorContextSnapshot κ)) :=
  match registeredProjectIdsForQuery registered project with
  | .error e => .error e
  | .ok projectIds =>
    let shared := if project = none then listedContexts (home (env.databaseOf none)) none else []
    let contexts := shared ++ projectIds.flatMap fun projectId =>
      listedContexts (home (env.databaseOf (some projectId))) (some projectId)
    .ok (contexts.insertionSort fun left right => right.key ≤ left.key).head?

end

end DevRelay.Editor
