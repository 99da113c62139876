/-
  HeadlessEditor.Change.Mapping

  Where an offset of the old document lies in the new one.  An offset that a
  change touches goes to one side of the inserted text.

  Offsets are 64-bit words here: the shift is summed up as a signed number,
  and an offset in the upper half of the range stands for a negative one.
-/

import HeadlessEditor.Change.Basic

namespace HeadlessEditor

/-- The side of an insertion on which an offset stays. -/
inductive Assoc where
  | before
  | after
deriving DecidableEq, Repr

namespace Change

def wordCount : Nat :=
  18446744073709551616

/-- A 64-bit word as a signed number. -/
def signed (n : Nat) : Int :=
  Int.bmod n wordCount

/-- A signed number as a 64-bit word. -/
def word (i : Int) : Nat :=
  (i % wordCount).toNat

/-- By how much a change lengthens the document. -/
def growth (c : Change) : Int :=
  signed c.text.length - signed (c.stop - c.start)

/-- Where an offset that the change touches goes, once the document before it has grown by
`shift`.  The end of what is replaced goes behind the replacement on either side. -/
def land (c : Change) (shift : Int) (pos : Nat) (side : Assoc) : Nat :=
  let start := word (signed c.start + shift)
  match side with
  | .after => start + c.text.length
  | .before =>
      if pos = c.stop ∧ c.start ≠ c.stop then start + c.text.length else start

end Change

namespace ChangeSet

open Change

/-- Maps an offset through changes, after `shift` characters of growth before them. -/
def mapFrom (shift : Int) (pos : Nat) (side : Assoc) : List Change → Nat
  | [] => (signed pos + shift).toNat
  | c :: rest =>
      if pos < c.start then (signed pos + shift).toNat
      else if c.stop < pos then mapFrom (shift + c.growth) pos side rest
      else c.land shift pos side

/-- The offset of the new document for an offset of the old one.  The first change that touches
the offset decides. -/
def mapPos (cs : ChangeSet) (pos : Nat) (side : Assoc) : Nat :=
  mapFrom 0 pos side cs.changes

end ChangeSet

end HeadlessEditor
