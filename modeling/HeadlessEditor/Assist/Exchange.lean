/-
  HeadlessEditor.Assist.Exchange

  Asking a provider about the document of a state.  A provider takes its
  time: before it answers, transactions may be made on the view it was asked
  from.  Its answer is about the document it was given, so it counts only if
  that document is still current then, which its URI and version tell.

  All sources share one policy.  Without a document nothing is asked.  An
  error of the provider is passed on, and so is having no answer, whatever
  happened to the document in the meantime; any other answer is dropped when
  the document has moved on, and is an error when there is none any more.
-/

import HeadlessEditor.Document.Tracking

namespace HeadlessEditor

/-- Why a source fails. -/
inductive ServiceError where
  | documentNotInstalled
  | provider (message : String)
deriving DecidableEq, Repr

def ServiceError.message : ServiceError → String
  | .documentNotInstalled =>
      "no text document is installed on this editor state; " ++
        "add `text_document()` to its extensions"
  | .provider message => message

/-- What a provider does with a request: the transactions made on the view until it answers, and
the answer, if it has one. -/
structure Reply (κ : Type) [FieldSignature κ] (α : Type) where
  dispatched : List (TransactionSpec κ) := []
  answer : Except String (Option α)

/-- One use of a source: the request, if the provider was asked at all, the state of the view
when it is over, and the outcome. -/
structure Exchange (κ : Type) [FieldSignature κ] (ρ β : Type) where
  request : Option ρ
  view : State κ
  outcome : Except ServiceError β

namespace Exchange

variable {κ : Type} [FieldSignature κ] [DecidableEq κ] {ρ α β : Type}

/-- Whether the document of a state is the one that was asked about. -/
def stillCurrent (asked : TextDocument) (s : State (WithDocument κ)) :
    Except ServiceError Bool :=
  match s.document? with
  | none => .error .documentNotInstalled
  | some current => .ok (current.version == asked.version && current.uri == asked.uri)

/-- What becomes of an answer about a document, given the state when it arrives. -/
def deliver (asked : TextDocument) (current : State (WithDocument κ))
    (answer : Except String (Option α)) : Except ServiceError (Option α) :=
  match answer with
  | .error message => .error (.provider message)
  | .ok none => .ok none
  | .ok (some a) =>
      match stillCurrent asked current with
      | .error e => .error e
      | .ok true => .ok (some a)
      | .ok false => .ok none

/-- An exchange that ends before anything is asked. -/
def unasked (view : State κ) (outcome : Except ServiceError β) : Exchange κ ρ β :=
  ⟨none, view, outcome⟩

/-- Asks a provider, and judges its answer in the view as it is then or, if the view is not
followed, in the given state. -/
def ask [HostFields κ] (provider : ρ → Reply (WithDocument κ) α) (request : ρ)
    (asked : TextDocument) (view : State (WithDocument κ))
    (unfollowed : Option (State (WithDocument κ))) :
    Exchange (WithDocument κ) ρ (Option α) :=
  let reply := provider request
  let after := view.replay reply.dispatched
  ⟨some request, after, deliver asked (unfollowed.getD after) reply.answer⟩

/-- The exchange with its outcome, if there is one, put into another form. -/
def map (f : α → β) (e : Exchange κ ρ α) : Exchange κ ρ β :=
  { e with outcome := e.outcome.map f }

end Exchange

end HeadlessEditor
