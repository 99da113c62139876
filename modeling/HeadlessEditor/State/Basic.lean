/-
  HeadlessEditor.State.Basic

  The state of an editor, an immutable value: the document, the selection,
  the configuration, the values of the fields the configuration installs,
  and the snippet session if one is active.
-/

import HeadlessEditor.Snippet.Session
import HeadlessEditor.State.Extension

namespace HeadlessEditor

/-- An installed field with its current value. -/
structure Slot (κ : Type) [FieldSignature κ] where
  kind : κ
  config : Config kind
  value : Value kind

/-- A snapshot of the editor. -/
structure State (κ : Type) [FieldSignature κ] where
  doc : Text
  selection : Selection
  extensions : List (Extension κ)
  language : Option Language
  slots : List (Slot κ)
  session : Option Snippet.Session

/-- What a field is told about a transaction.  In `state` everything is final but the values of
the fields, of which it has none. -/
structure FieldUpdate (κ : Type) [FieldSignature κ] where
  startState : State κ
  state : State κ
  changes : ChangeSet

/-- How each kind of field computes its value: at first, and after a transaction from the value
before it.  The configuration is that of the instance installed after the transaction. -/
class StateFields (κ : Type) [FieldSignature κ] where
  create : (kind : κ) → Config kind → State κ → Value kind
  update : (kind : κ) → Config kind → Value kind → FieldUpdate κ → Value kind

variable {κ : Type} [FieldSignature κ]

/-- Whether the transaction changes the document. -/
def FieldUpdate.docChanged (u : FieldUpdate κ) : Bool :=
  !u.changes.isEmpty

def Slot.field (s : Slot κ) : Field κ :=
  ⟨s.kind, s.config⟩

namespace State

/-- The value of a kind of field, if the kind is installed. -/
def value? [DecidableEq κ] (s : State κ) (kind : κ) : Option (Value kind) :=
  s.slots.findSome? fun slot => if h : slot.kind = kind then some (h ▸ slot.value) else none

def slice (s : State κ) (span : Span) : Text :=
  s.doc.within span

/-- The state without the values of its fields. -/
def withoutValues (s : State κ) : State κ :=
  { s with slots := [] }

end State

structure StateConfig (κ : Type) [FieldSignature κ] where
  doc : Text
  selection : Option Selection := none
  extensions : List (Extension κ) := []

/-- The value a newly installed field starts with. -/
def Field.createIn [StateFields κ] (f : Field κ) (s : State κ) : Slot κ :=
  ⟨f.kind, f.config, StateFields.create f.kind f.config s⟩

/-- A state with every field of its configuration at its first value. -/
def State.create [DecidableEq κ] [StateFields κ] (config : StateConfig κ) : State κ :=
  let bare : State κ :=
    { doc := config.doc
      selection := (config.selection.getD (Selection.cursor 0)).clamp config.doc.length
      extensions := config.extensions
      language := Extension.activeLanguage config.extensions
      slots := []
      session := none }
  { bare with slots := (Extension.installed config.extensions).map (·.createIn bare) }

end HeadlessEditor
