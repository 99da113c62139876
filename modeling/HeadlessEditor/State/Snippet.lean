/-
  HeadlessEditor.State.Snippet

  Working with snippets and completions in a state: inserting a text or a
  snippet, and moving between the tab stops of an inserted one.
-/

import HeadlessEditor.Snippet.Scanner
import HeadlessEditor.State.Transaction

namespace HeadlessEditor

variable {κ : Type} [FieldSignature κ]

-- ============================================================================
-- Inserting
-- ============================================================================

namespace TransactionSpec

/-- Replaces a span by a text and puts the cursor behind it. -/
def insertText (s : State κ) (text : Text) (span : Span) : TransactionSpec κ :=
  let clamped : Span := ⟨min span.start s.doc.length, min span.stop s.doc.length⟩
  { changes := [⟨clamped.start, clamped.stop, text⟩]
    selection := some (Selection.cursor (min clamped.start clamped.stop + text.length)) }

/-- The session of stops just inserted.  A sole final stop needs none. -/
def sessionOf (stops : List TabStop) : Option Snippet.Session :=
  match stops with
  | [] => none
  | [stop] => if stop.number = 0 then none else some ⟨[stop], 0⟩
  | _ => some ⟨stops, 0⟩

/-- The effect that makes a session the active one, or leaves none. -/
def setSession : Option Snippet.Session → Effect κ
  | some session => .startSnippet session
  | none => .clearSnippet

/-- Replaces a span by a snippet and selects its first tab stop. -/
def insertSnippet (s : State κ) (snippet : Snippet) (span : Span) : TransactionSpec κ :=
  let target := span.clamp s.doc.length
  let stops := snippet.stops.map (·.shift target.start)
  let selection :=
    match stops.head?.bind (·.spans.head?) with
    | some first => ⟨first.start, first.stop⟩
    | none => Selection.cursor (target.start + snippet.text.length)
  { changes := [⟨target.start, target.stop, snippet.text⟩]
    selection := some selection
    effects := [setSession (sessionOf stops)] }

/-- Selects a tab stop of a session. -/
def selectStop (session : Snippet.Session) (index : Nat) : TransactionSpec κ :=
  { selection := some (session.selectionAt index)
    effects := [setSession (session.select index)] }

end TransactionSpec

-- ============================================================================
-- Moving between tab stops
-- ============================================================================

namespace State

def hasNextStop (s : State κ) : Bool :=
  s.session.any (·.hasNext)

def hasPrevStop (s : State κ) : Bool :=
  s.session.any (·.hasPrev)

variable [DecidableEq κ] [StateFields κ]

def nextStop? (s : State κ) : Option (Transaction κ) :=
  match s.session with
  | none => none
  | some session =>
      if session.hasNext then
        some (s.update (TransactionSpec.selectStop session (session.active + 1)))
      else none

def prevStop? (s : State κ) : Option (Transaction κ) :=
  match s.session with
  | none => none
  | some session =>
      if session.hasPrev then
        some (s.update (TransactionSpec.selectStop session (session.active - 1)))
      else none

def clearSnippet? (s : State κ) : Option (Transaction κ) :=
  match s.session with
  | none => none
  | some _ => some (s.update { effects := [.clearSnippet] })

end State

end HeadlessEditor
