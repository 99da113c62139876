/-
  HeadlessEditor.Protocol.Edit

  Text edits of the Language Server Protocol: a range and the text to put in
  its place.  The edit of a completion may name two ranges, one for
  inserting and one for replacing.
-/

import HeadlessEditor.Protocol.Range

namespace HeadlessEditor.Protocol

open Json

/-- Replaces a range by a text. -/
structure TextEdit where
  range : Range
  newText : String
deriving DecidableEq, Repr, Inhabited

/-- Replaces one range when inserting and another when replacing. -/
structure InsertReplaceEdit where
  newText : String
  insert : Range
  replace : Range
deriving DecidableEq, Repr, Inhabited

/-- The edit of a completion. -/
inductive CompletionEdit where
  | edit (edit : TextEdit)
  | insertReplace (edit : InsertReplaceEdit)
deriving DecidableEq, Repr, Inhabited

namespace CompletionEdit

/-- The new text. -/
def newText : CompletionEdit → String
  | .edit e => e.newText
  | .insertReplace e => e.newText

/-- The range to edit; of two, the one for inserting. -/
def range : CompletionEdit → Range
  | .edit e => e.range
  | .insertReplace e => e.insert

end CompletionEdit

-- ============================================================================
-- JSON
-- ============================================================================

instance : Wire TextEdit where
  encode e := record [member "range" e.range, member "newText" e.newText]
  decode j := do
    let m ← members? ["range", "newText"] j
    return ⟨← m.required "range", ← m.required "newText"⟩

instance : Wire InsertReplaceEdit where
  encode e :=
    record [member "newText" e.newText, member "insert" e.insert, member "replace" e.replace]
  decode j := do
    let m ← members? ["newText", "insert", "replace"] j
    return ⟨← m.required "newText", ← m.required "insert", ← m.required "replace"⟩

/-- An edit of one range is tried first. -/
instance : Wire CompletionEdit where
  encode
    | .edit e => encode e
    | .insertReplace e => encode e
  decode j :=
    (decode j).map CompletionEdit.edit <|> (decode j).map CompletionEdit.insertReplace

end HeadlessEditor.Protocol
