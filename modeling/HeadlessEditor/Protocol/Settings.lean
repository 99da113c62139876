/-
  HeadlessEditor.Protocol.Settings

  Settings a host may keep as JSON.  What a setting leaves out stays as it
  is, so every member may be absent.
-/

import HeadlessEditor.Json.Wire

namespace HeadlessEditor.Protocol

open Json

/-- Settings of the document: its URI. -/
structure DocumentSettings where
  uri : Option String := none
deriving DecidableEq, Repr, Inhabited

structure CompletionSettings where
  sectionName : Option String := none
  triggerCharacters : Option String := none
deriving DecidableEq, Repr, Inhabited

structure LintSettings where
  markClass : Option String := none
deriving DecidableEq, Repr, Inhabited

structure LanguageServiceSettings where
  document : DocumentSettings := {}
  completion : CompletionSettings := {}
  lint : LintSettings := {}
deriving DecidableEq, Repr, Inhabited

-- ============================================================================
-- JSON
-- ============================================================================

instance : Wire DocumentSettings where
  encode s := record [member? "uri" s.uri]
  decode j := do
    let m ← members? ["uri"] j
    return ⟨← m.optional "uri"⟩

instance : Wire CompletionSettings where
  encode s :=
    record [member? "section" s.sectionName, member? "triggerCharacters" s.triggerCharacters]
  decode j := do
    let m ← members? ["section", "triggerCharacters"] j
    return ⟨← m.optional "section", ← m.optional "triggerCharacters"⟩

instance : Wire LintSettings where
  encode s := record [member? "markClass" s.markClass]
  decode j := do
    let m ← members? ["markClass"] j
    return ⟨← m.optional "markClass"⟩

/-- The sections are written even when they are empty, and may be absent but not null. -/
instance : Wire LanguageServiceSettings where
  encode s :=
    record [member "document" s.document, member "completion" s.completion,
      member "lint" s.lint]
  decode j := do
    let m ← members? ["document", "completion", "lint"] j
    return ⟨← m.withDefault "document" {}, ← m.withDefault "completion" {},
      ← m.withDefault "lint" {}⟩

end HeadlessEditor.Protocol
