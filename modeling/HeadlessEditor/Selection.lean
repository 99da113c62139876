/-
  HeadlessEditor.Selection

  The selection: a fixed end, the anchor, and a moving one, the head, where
  the cursor is drawn.  The two are equal when nothing is selected.
-/

import HeadlessEditor.Change.Mapping

namespace HeadlessEditor

/-- A selection by the offsets of its two ends. -/
structure Selection where
  anchor : Nat
  head : Nat
deriving DecidableEq, Repr, Inhabited

namespace Selection

/-- Nothing selected, the cursor at `pos`. -/
def cursor (pos : Nat) : Selection :=
  ⟨pos, pos⟩

def start (s : Selection) : Nat :=
  min s.anchor s.head

def stop (s : Selection) : Nat :=
  max s.anchor s.head

def isEmpty (s : Selection) : Bool :=
  s.anchor == s.head

/-- The selection after changes: an end at which text is inserted moves behind it. -/
def map (s : Selection) (cs : ChangeSet) : Selection :=
  ⟨cs.mapPos s.anchor .after, cs.mapPos s.head .after⟩

/-- The selection within a document of `length` characters. -/
def clamp (s : Selection) (length : Nat) : Selection :=
  ⟨min s.anchor length, min s.head length⟩

end Selection

end HeadlessEditor
