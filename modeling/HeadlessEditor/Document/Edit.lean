/-
  HeadlessEditor.Document.Edit

  Text edits of a language server as one transaction.  All edits address the
  document as it is, in any order.
-/

import HeadlessEditor.Position.Offset
import HeadlessEditor.Protocol.Edit
import HeadlessEditor.State.Transaction

namespace HeadlessEditor

open Protocol (TextEdit)

/-- An edit of a text as a change to it. -/
def Change.ofEdit (t : Text) (e : TextEdit) : Change :=
  ⟨t.offsetAt e.range.start, t.offsetAt e.range.stop, e.newText.toList⟩

def TransactionSpec.textEdits {κ : Type} [FieldSignature κ] (s : State κ)
    (edits : List TextEdit) : TransactionSpec κ :=
  { changes := edits.map (Change.ofEdit s.doc) }

end HeadlessEditor
