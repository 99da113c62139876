/-
  HeadlessEditor.Document.Tracking

  A state field that keeps a text document in step with the editor.  The
  document starts at version 0.  A transaction that changes the text or the
  language raises the version by one, whatever else it does; one that
  changes the URI starts over with a new document; any other leaves the very
  same document.
-/

import HeadlessEditor.Document.Basic
import HeadlessEditor.State.Transaction

namespace HeadlessEditor

/-- The fields of a host, and the text document beside them. -/
inductive WithDocument (κ : Type) where
  | document
  | host (kind : κ)
deriving DecidableEq, Repr

variable {κ : Type} [FieldSignature κ]

/-- The document is configured with its URI. -/
instance : FieldSignature (WithDocument κ) where
  Config
    | .document => String
    | .host kind => Config kind
  Value
    | .document => TextDocument
    | .host kind => Value kind

/-- The language id of a document whose language has no name. -/
def fallbackLanguageId : String :=
  "plaintext"

/-- The language id of a state: the name of its language, unless that is missing or empty. -/
def State.languageId {κ : Type} [FieldSignature κ] (s : State κ) : String :=
  match s.language with
  | none => fallbackLanguageId
  | some language => if language.name.isEmpty then fallbackLanguageId else language.name

namespace TextDocument

/-- The document of a state that did not have one before. -/
def createIn {κ : Type} [FieldSignature κ] (uri : String) (s : State κ) : TextDocument :=
  ⟨uri, s.languageId, 0, s.doc⟩

/-- The document after a transaction. -/
def follow {κ : Type} [FieldSignature κ] (uri : String) (d : TextDocument)
    (u : FieldUpdate κ) : TextDocument :=
  if d.uri ≠ uri then createIn uri u.state
  else if u.docChanged ∨ d.languageId ≠ u.state.languageId then
    ⟨uri, u.state.languageId, d.version + 1, u.state.doc⟩
  else d

/-! ## The three ways of a document -/

section

variable {κ : Type} [FieldSignature κ] {d : TextDocument} {uri : String} {u : FieldUpdate κ}

theorem follow_of_uri_ne (h : d.uri ≠ uri) : d.follow uri u = createIn uri u.state :=
  if_pos h

theorem follow_of_revised (h : d.uri = uri)
    (hrevised : u.docChanged = true ∨ d.languageId ≠ u.state.languageId) :
    d.follow uri u = ⟨uri, u.state.languageId, d.version + 1, u.state.doc⟩ := by
  rw [follow, if_neg (not_not_intro h), if_pos hrevised]

theorem follow_of_kept (h : d.uri = uri) (hdoc : u.docChanged = false)
    (hlanguage : d.languageId = u.state.languageId) : d.follow uri u = d := by
  rw [follow, if_neg (not_not_intro h), if_neg (by simp [hdoc, hlanguage])]

@[simp] theorem uri_follow (d : TextDocument) (uri : String) (u : FieldUpdate κ) :
    (d.follow uri u).uri = uri := by
  by_cases h : d.uri = uri
  · rw [follow, if_neg (not_not_intro h)]
    split
    · rfl
    · exact h
  · rw [follow_of_uri_ne h]
    rfl

end

end TextDocument

/-- How the fields of a host compute their values, in states that may have a document too. -/
class HostFields (κ : Type) [FieldSignature κ] where
  create : (kind : κ) → Config kind → State (WithDocument κ) → Value kind
  update : (kind : κ) → Config kind → Value kind → FieldUpdate (WithDocument κ) →
    Value kind

instance [HostFields κ] : StateFields (WithDocument κ) where
  create
    | .document, uri, s => TextDocument.createIn uri s
    | .host kind, config, s => HostFields.create kind config s
  update
    | .document, uri, d, u => TextDocument.follow uri d u
    | .host kind, config, value, u => HostFields.update kind config value u

def Extension.document (uri : String) : Extension (WithDocument κ) :=
  .field ⟨.document, uri⟩

def Extension.host (kind : κ) (config : Config kind) : Extension (WithDocument κ) :=
  .field ⟨.host kind, config⟩

/-- The URI a field is configured with, if it is a document. -/
def Field.uri? : Field (WithDocument κ) → Option String
  | ⟨.document, uri⟩ => some uri
  | ⟨.host _, _⟩ => none

/-- The URI of the last document in a configuration. -/
def Extension.documentUri? (extensions : List (Extension (WithDocument κ))) : Option String :=
  ((Extension.fieldsOfAll extensions).filterMap Field.uri?).getLast?

variable [DecidableEq κ]

/-- The document of a state, if one is installed. -/
def State.document? (s : State (WithDocument κ)) : Option TextDocument :=
  s.value? .document

/-- Whether a transaction replaced the document, installed one or removed it.  A new document
differs from the one before in its URI or its version, so comparing them tells. -/
def Transaction.documentChanged (tr : Transaction (WithDocument κ)) : Bool :=
  tr.startState.document? ≠ tr.state.document?

end HeadlessEditor
