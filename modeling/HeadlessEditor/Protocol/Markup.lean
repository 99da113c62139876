/-
  HeadlessEditor.Protocol.Markup

  Markup of the Language Server Protocol: what documentation and hovers are
  written in.  Markup content says whether it is markdown; a marked string
  is markdown, or code in a language.
-/

import HeadlessEditor.Protocol.Range

namespace HeadlessEditor.Protocol

open Json

/-- What markup content is written in. -/
inductive MarkupKind where
  | plainText
  | markdown
deriving DecidableEq, Repr, Inhabited

/-- A text and what it is written in. -/
structure MarkupContent where
  kind : MarkupKind
  value : String
deriving DecidableEq, Repr, Inhabited

structure CodeBlock where
  language : String
  value : String
deriving DecidableEq, Repr, Inhabited

inductive MarkedString where
  | markdown (value : String)
  | code (block : CodeBlock)
deriving DecidableEq, Repr, Inhabited

inductive HoverContents where
  | markup (content : MarkupContent)
  | array (parts : List MarkedString)
  | scalar (part : MarkedString)
deriving DecidableEq, Repr, Inhabited

/-- The documentation of a completion item; a bare string is markdown. -/
inductive Documentation where
  | markdown (value : String)
  | markup (content : MarkupContent)
deriving DecidableEq, Repr, Inhabited

/-- Documentation as what a hover shows. -/
def Documentation.contents : Documentation → HoverContents
  | .markdown value => .scalar (.markdown value)
  | .markup content => .markup content

structure Hover where
  contents : HoverContents
  range : Option Range := none
deriving DecidableEq, Repr, Inhabited

-- ============================================================================
-- JSON
-- ============================================================================

def MarkupKind.name : MarkupKind → String
  | .plainText => "plaintext"
  | .markdown => "markdown"

def MarkupKind.ofName? (name : String) : Option MarkupKind :=
  if name = "plaintext" then some .plainText
  else if name = "markdown" then some .markdown
  else none

/-- A kind is its name.  An object whose only member has that name and is null is read too. -/
instance : Wire MarkupKind where
  encode kind := .str kind.name
  decode
    | .str name => MarkupKind.ofName? name
    | .obj [(name, .null)] => MarkupKind.ofName? name
    | _ => none

instance : Wire MarkupContent where
  encode c := record [member "kind" c.kind, member "value" c.value]
  decode j := do
    let m ← members? ["kind", "value"] j
    return ⟨← m.required "kind", ← m.required "value"⟩

instance : Wire CodeBlock where
  encode c := record [member "language" c.language, member "value" c.value]
  decode j := do
    let m ← members? ["language", "value"] j
    return ⟨← m.required "language", ← m.required "value"⟩

instance : Wire MarkedString where
  encode
    | .markdown value => encode value
    | .code block => encode block
  decode j := (decode j).map MarkedString.markdown <|> (decode j).map MarkedString.code

/-- Markup content is tried first, then several parts, then a single one. -/
instance : Wire HoverContents where
  encode
    | .markup content => encode content
    | .array parts => encode parts
    | .scalar part => encode part
  decode j :=
    (decode j).map HoverContents.markup
      <|> (decode j).map HoverContents.array
      <|> (decode j).map HoverContents.scalar

instance : Wire Documentation where
  encode
    | .markdown value => encode value
    | .markup content => encode content
  decode j := (decode j).map Documentation.markdown <|> (decode j).map Documentation.markup

instance : Wire Hover where
  encode h := record [member "contents" h.contents, member? "range" h.range]
  decode j := do
    let m ← members? ["contents", "range"] j
    return ⟨← m.required "contents", ← m.optional "range"⟩

end HeadlessEditor.Protocol
