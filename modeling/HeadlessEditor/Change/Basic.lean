/-
  HeadlessEditor.Change.Basic

  Changes to a document.  A change replaces the characters between two
  offsets by a text; the changes of one set all address the same document,
  in any order, and may overlap, be reversed or lie past its end.

  A set is put into a normal form first: offsets clamped and ordered,
  changes in the order of their starts (equal starts keep the order they
  came in), each start moved past the end of the ones before it, and changes
  that do nothing left out.  A character is so removed once however many
  changes cover it, and every text is inserted.
-/

import HeadlessEditor.Text.Basic

namespace HeadlessEditor

/-- Replaces the characters from `start` up to `stop` by `text`. -/
structure Change where
  start : Nat
  stop : Nat
  text : Text
deriving DecidableEq, Repr, Inhabited

namespace Change

def insertion (pos : Nat) (text : Text) : Change :=
  ⟨pos, pos, text⟩

def deletion (start stop : Nat) : Change :=
  ⟨start, stop, []⟩

/-- The change within a document of `length` characters, its offsets in order. -/
def clamp (length : Nat) (c : Change) : Change :=
  let span := Span.clamp ⟨c.start, c.stop⟩ length
  ⟨span.start, span.stop, c.text⟩

/-- The change without what lies before `covered`. -/
def clip (covered : Nat) (c : Change) : Change :=
  { c with start := max c.start covered, stop := max c.stop covered }

/-- Whether a change starts no later than another. -/
def startsBy (c d : Change) : Bool :=
  c.start ≤ d.start

/-- Whether the change neither removes nor inserts anything. -/
def isVoid (c : Change) : Bool :=
  c.start == c.stop && c.text.isEmpty

/-- By how much the change lengthens a document. -/
def gain (c : Change) : Int :=
  (c.text.length : Int) - (c.stop - c.start : Nat)

def apply (c : Change) (t : Text) : Text :=
  t.splice c.start c.stop c.text

end Change

/-- Changes in normal form, for a document of `beforeLength` characters. -/
structure ChangeSet where
  changes : List Change
  beforeLength : Nat
deriving DecidableEq, Repr

namespace ChangeSet

def empty (length : Nat) : ChangeSet :=
  ⟨[], length⟩

/-- Clips each change by the end of the one before it. -/
def clipFrom (covered : Nat) : List Change → List Change
  | [] => []
  | c :: rest =>
      let clipped := c.clip covered
      clipped :: clipFrom clipped.stop rest

/-- The normal form of changes to a document of `length` characters. -/
def of (specs : List Change) (length : Nat) : ChangeSet :=
  let ordered := (specs.map (Change.clamp length)).mergeSort Change.startsBy
  ⟨(clipFrom 0 ordered).filter fun c => !c.isVoid, length⟩

def isEmpty (cs : ChangeSet) : Bool :=
  cs.changes.isEmpty

/-- Whether a change removes the character at an offset. -/
def removes (cs : ChangeSet) (offset : Nat) : Bool :=
  cs.changes.any fun c => c.start ≤ offset && offset < c.stop

def afterLength (cs : ChangeSet) : Nat :=
  cs.changes.foldl (fun length c => length - (c.stop - c.start) + c.text.length) cs.beforeLength

/-- The document after the changes.  The last change is made first, so that the offsets of the
others stay right. -/
def apply (cs : ChangeSet) (t : Text) : Text :=
  cs.changes.foldr Change.apply t

theorem of_nil (length : Nat) : of [] length = empty length := by
  rw [of, List.map_nil, List.mergeSort_nil]
  rfl

theorem apply_of_isEmpty {cs : ChangeSet} (h : cs.isEmpty = true) (t : Text) : cs.apply t = t := by
  rw [apply, List.isEmpty_iff.mp h]
  rfl

end ChangeSet

end HeadlessEditor
