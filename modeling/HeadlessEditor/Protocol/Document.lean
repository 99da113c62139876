/-
  HeadlessEditor.Protocol.Document

  A whole document, as a client hands it to a language server.
-/

import HeadlessEditor.Json.Wire

namespace HeadlessEditor.Protocol

open Json

/-- A document with its language and version. -/
structure TextDocumentItem where
  uri : String
  languageId : String
  version : Int32
  text : String
deriving DecidableEq, Repr, Inhabited

instance : Wire TextDocumentItem where
  encode d :=
    record
      [member "uri" d.uri, member "languageId" d.languageId, member "version" d.version,
       member "text" d.text]
  decode j := do
    let m ← members? ["uri", "languageId", "version", "text"] j
    return ⟨← m.required "uri", ← m.required "languageId", ← m.required "version",
      ← m.required "text"⟩

end HeadlessEditor.Protocol
