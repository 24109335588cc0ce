import DevRelay.Agent.Handlers

/-!
# The edit guard of the editor extension

The functions of `editGuard.ts` that turn an event of the editor into a request
`editor.event.record`, and what of the request the agent reads.
-/

namespace DevRelay.Editor

open DevRelay.Agent

structure MinimalUri where
  scheme : String
  fsPath : Option String
  /-- `toString()` -/
  text : String
  deriving DecidableEq, Repr

structure MinimalDocument where
  uri : MinimalUri
  version : Option Int
  deriving DecidableEq, Repr

structure MinimalWorkspaceFolder where
  uri : MinimalUri
  deriving DecidableEq, Repr

structure EditorEventRecordParams where
  project : Option String
  workspacePath : Option String
  eventKind : EditorEventKind
  documentUri : Option String
  documentPath : Option String
  documentVersion : Option Int
  meaningfulEdit : Bool
  deriving DecidableEq, Repr

structure EditorEventInput where
  eventKind : EditorEventKind
  document : Option MinimalDocument
  workspaceFolders : Option (List MinimalWorkspaceFolder)
  contentChangeCount : Option Nat
  deriving DecidableEq, Repr

/-- `workspaceFolders?.[0]?.uri.fsPath` -/
def firstFolderPath (workspaceFolders : Option (List MinimalWorkspaceFolder)) : Option String := do
  let folders ← workspaceFolders
  let folder ← folders.head?
  folder.uri.fsPath

def editorEventRecordParams (input : EditorEventInput) : EditorEventRecordParams where
  project := none
  workspacePath := firstFolderPath input.workspaceFolders
  eventKind := input.eventKind
  documentUri := input.document.map fun document => document.uri.text
  documentPath := input.document.bind fun document => document.uri.fsPath
  documentVersion := input.document.bind MinimalDocument.version
  meaningfulEdit := input.eventKind = .textDocumentChanged &&
    decide (0 < input.contentChangeCount.getD 0)

def shouldNotifyEditorEvent (params : EditorEventRecordParams) : Bool :=
  if params.eventKind = .textDocumentChanged then params.meaningfulEdit else true

/-- What the handler of the agent uses of the request; it has the uri, the path and the
version of the document too, and looks at none of them. -/
def EditorEventRecordParams.received (params : EditorEventRecordParams) :
    Agent.EditorEventRecordParams where
  project := params.project
  workspacePath := params.workspacePath
  eventKind := params.eventKind
  meaningfulEdit := params.meaningfulEdit

/-- The request that `recordEditorEvent` makes, when it makes one. -/
def recordEditorEvent (params : EditorEventRecordParams) : Option Agent.EditorEventRecordParams :=
  if shouldNotifyEditorEvent params then some params.received else none

/-- What `onDidChangeTextDocument` passes on. -/
def textDocumentChange (document : MinimalDocument)
    (workspaceFolders : Option (List MinimalWorkspaceFolder)) (contentChanges : Nat) :
    EditorEventInput where
  eventKind := .textDocumentChanged
  document := some document
  workspaceFolders := workspaceFolders
  contentChangeCount := some contentChanges

/-- A change of a document is sent under the first folder, whatever the document is. -/
theorem recordEditorEvent_textDocumentChange {contentChanges : Nat} (h : 0 < contentChanges)
    (document : MinimalDocument) (workspaceFolders : Option (List MinimalWorkspaceFolder)) :
    recordEditorEvent (editorEventRecordParams
      (textDocumentChange document workspaceFolders contentChanges)) =
        some ⟨none, firstFolderPath workspaceFolders, .textDocumentChanged, true⟩ := by
  have hmeaningful : (editorEventRecordParams (textDocumentChange document workspaceFolders
      contentChanges)).meaningfulEdit = true := by
    show (true && decide (0 < contentChanges)) = true
    rw [Bool.true_and]
    exact decide_eq_true h
  have hnotify : shouldNotifyEditorEvent (editorEventRecordParams (textDocumentChange document
      workspaceFolders contentChanges)) = true := by
    rw [shouldNotifyEditorEvent, hmeaningful, ite_self]
  rw [recordEditorEvent, if_pos hnotify, EditorEventRecordParams.received, hmeaningful]
  rfl

end DevRelay.Editor
