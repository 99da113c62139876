/-
  HeadlessEditor.Document.Basic

  A text document in the sense of the Language Server Protocol: a text with
  a URI, a language and a version.
-/

import HeadlessEditor.Position.Offset
import HeadlessEditor.Protocol.Document

namespace HeadlessEditor

/-- An immutable snapshot of a document. -/
structure TextDocument where
  uri : String
  languageId : String
  version : Int32
  text : Text
deriving DecidableEq, Repr, Inhabited

namespace TextDocument

def offsetAt (d : TextDocument) (p : Position) : Nat :=
  d.text.offsetAt p

def positionAt (d : TextDocument) (offset : Nat) : Position :=
  d.text.positionAt offset

def inRange (d : TextDocument) (r : Range) : Text :=
  d.text.inRange r

/-- The number of lines; an empty document has one. -/
def lineCount (d : TextDocument) : Nat :=
  d.text.lineCount

/-- The document as it is sent to a language server. -/
def item (d : TextDocument) : Protocol.TextDocumentItem :=
  ⟨d.uri, d.languageId, d.version, String.ofList d.text⟩

end TextDocument

end HeadlessEditor
