/-
  HeadlessEditor.Change.Merge

  What a list of changes asks for, said of each place in the document by
  itself: the texts of the changes that start there come first, in the order
  of the changes, and then the character of the document unless one of the
  changes covers it.  Nothing is sorted or clipped here.
-/

import HeadlessEditor.Change.Basic

namespace HeadlessEditor.Change

/-- Whether a change to a document of `length` characters removes the one at `offset`. -/
def covers (length offset : Nat) (c : Change) : Bool :=
  (c.clamp length).start ≤ offset && offset < (c.clamp length).stop

/-- The texts that changes to a document of `length` characters insert at `offset`. -/
def insertedAt (length offset : Nat) (specs : List Change) : Text :=
  (specs.filter fun c => (c.clamp length).start == offset).flatMap Change.text

/-- What becomes of one place of a document. -/
def mergedAt (specs : List Change) (t : Text) (offset : Nat) : Text :=
  insertedAt t.length offset specs ++
    if specs.any (covers t.length offset) then [] else (t[offset]?).toList

/-- The document after the changes, place by place; the end is a place too. -/
def merge (specs : List Change) (t : Text) : Text :=
  (List.range (t.length + 1)).flatMap (mergedAt specs t)

end HeadlessEditor.Change
