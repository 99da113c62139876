/-
  HeadlessEditor.Snippet.Session

  A snippet that has been inserted and not yet left: its tab stops, now in
  offsets of the document, and the one that is selected.  The stops follow
  every edit of the document.
-/

import HeadlessEditor.Snippet.Basic
import HeadlessEditor.Selection

namespace HeadlessEditor.Snippet

/-- The stops of an inserted snippet in visiting order, and the index of the selected one. -/
structure Session where
  stops : List TabStop
  active : Nat
deriving DecidableEq, Repr, Inhabited

namespace Session

/-- A stop's span after changes.  Text inserted at either end becomes part of it. -/
def mapSpan (cs : ChangeSet) (s : Span) : Span :=
  let start := cs.mapPos s.start .before
  ⟨start, max (cs.mapPos s.stop .after) start⟩

/-- The session after changes to the document. -/
def map (session : Session) (cs : ChangeSet) : Session :=
  { session with
    stops := session.stops.map fun stop =>
      { stop with spans := stop.spans.map (mapSpan cs) } }

def hasNext (session : Session) : Bool :=
  session.active + 1 < session.stops.length

def hasPrev (session : Session) : Bool :=
  0 < session.active

/-- What is selected at the stop with the given index. -/
def selectionAt (session : Session) (index : Nat) : Selection :=
  match (session.stops[index]?).bind (·.spans.head?) with
  | some span => ⟨span.start, span.stop⟩
  | none => Selection.cursor 0

/-- The session with another stop selected.  Arriving at the last stop ends it. -/
def select (session : Session) (index : Nat) : Option Session :=
  if index + 1 = session.stops.length then none
  else some { session with active := index }

end Session

end HeadlessEditor.Snippet
