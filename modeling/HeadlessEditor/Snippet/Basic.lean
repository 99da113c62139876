/-
  HeadlessEditor.Snippet.Basic

  Snippets: a text to insert and the tab stops in it.  A tab stop has a
  number and covers any number of spans of the text; stops are visited in
  the order of their numbers, except that number 0 marks where the cursor
  ends up and comes last.
-/

import HeadlessEditor.Text.Basic

namespace HeadlessEditor

/-- The spans that carry one number. -/
structure TabStop where
  number : Nat
  spans : List Span
deriving DecidableEq, Repr, Inhabited

/-- A text with its tab stops in visiting order. -/
structure Snippet where
  text : Text
  stops : List TabStop
deriving DecidableEq, Repr, Inhabited

/-- One numbered span of a template's text. -/
structure Mark where
  number : Nat
  span : Span
deriving DecidableEq, Repr

namespace TabStop

/-- Whether stop `a` is visited no later than stop `b`. -/
def visitedBy (a b : Nat) : Bool :=
  b == 0 || (a != 0 && a ≤ b)

/-- Spans by their starts, equal starts by their ends. -/
def spanOrder (a b : Span) : Bool :=
  a.start < b.start || (a.start == b.start && a.stop ≤ b.stop)

/-- The spans marked with one number. -/
def ofMarks (marks : List Mark) (number : Nat) : TabStop :=
  { number
    spans := ((marks.filter (·.number == number)).map Mark.span).mergeSort spanOrder }

/-- All stops of a list of marks, in visiting order. -/
def allOfMarks (marks : List Mark) : List TabStop :=
  ((marks.map Mark.number).eraseDups.mergeSort visitedBy).map (ofMarks marks)

/-- The stop moved to the right by `distance` characters. -/
def shift (stop : TabStop) (distance : Nat) : TabStop :=
  { stop with spans := stop.spans.map (·.shift distance) }

end TabStop

end HeadlessEditor
