/-
  HeadlessEditor.Position.Offset

  Between positions and offsets.  Neither direction can fail: a line past
  the last one is the end of the text, a character past the end of a line is
  the end of its content (before its break), and an offset past the end is
  the end.  A position inside a surrogate pair is the pair's start.
-/

import HeadlessEditor.Position.Basic
import HeadlessEditor.Text.Line
import HeadlessEditor.Text.Utf16

namespace HeadlessEditor.Text

/-- The offset of a position. -/
def offsetAt (t : Text) (p : Position) : Nat :=
  match t.lines[p.line.toNat]? with
  | none => t.length
  | some line =>
      t.lineStart p.line.toNat + charsWithin (lineContent line) p.character.toNat

/-- The position of an offset.  The offset between the two characters of a carriage return and
line feed is still on the line they end. -/
def positionAt (t : Text) (offset : Nat) : Position :=
  let (line, column) := locate (min offset t.length) t.lines
  { line := UInt32.ofNat line
    character := UInt32.ofNat (unitLength ((t.lines.getD line []).take column)) }

/-- The offsets of a range, the smaller one first. -/
def offsetsOf (t : Text) (r : Range) : Span :=
  ⟨min (t.offsetAt r.start) (t.offsetAt r.stop), max (t.offsetAt r.start) (t.offsetAt r.stop)⟩

/-- The text a range covers. -/
def inRange (t : Text) (r : Range) : Text :=
  t.slice (t.offsetsOf r).start (t.offsetsOf r).stop

/-- Whether an offset lies strictly between the two characters of a carriage return and line
feed. -/
def InsideCrLf (t : Text) (offset : Nat) : Prop :=
  0 < offset ∧ t[offset - 1]? = some '\r' ∧ t[offset]? = some '\n'

instance (t : Text) (offset : Nat) : Decidable (t.InsideCrLf offset) :=
  inferInstanceAs (Decidable (_ ∧ _ ∧ _))

end HeadlessEditor.Text
