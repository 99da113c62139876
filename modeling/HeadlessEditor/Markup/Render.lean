/-
  HeadlessEditor.Markup.Render

  Markup as presentation trees.  Markdown is left to a renderer that the
  host provides, which may have effects of its own; plain text becomes a
  paragraph, and code a preformatted block that names its language.
-/

import HeadlessEditor.Markup.Node
import HeadlessEditor.Protocol.Markup

namespace HeadlessEditor.Markup

open Protocol

/-- Turns markdown into trees. -/
abbrev Renderer (m : Type → Type) := String → m Fragment

variable {m : Type → Type} [Monad m]

def paragraph (text : String) : Node :=
  .element "p" [] [.text text]

def codeBlock (block : CodeBlock) : Node :=
  .element "pre" []
    [.element "code" [("class", "language-" ++ block.language)] [.text block.value]]

def renderContent (renderer : Renderer m) (content : MarkupContent) : m Fragment :=
  match content.kind with
  | .markdown => renderer content.value
  | .plainText => pure [paragraph content.value]

def renderMarked (renderer : Renderer m) : MarkedString → m Fragment
  | .markdown value => renderer value
  | .code block => pure [codeBlock block]

/-- The trees of several marked strings, in order. -/
def renderParts (renderer : Renderer m) : List MarkedString → m Fragment
  | [] => pure []
  | part :: rest => do
      let first ← renderMarked renderer part
      let others ← renderParts renderer rest
      pure (first ++ others)

/-- The trees of what a hover shows. -/
def render (renderer : Renderer m) : HoverContents → m Fragment
  | .markup content => renderContent renderer content
  | .array parts => renderParts renderer parts
  | .scalar part => renderMarked renderer part

/-- Appends the trees of what a hover shows. -/
def renderInto {π : Type} [Parent π] (renderer : Renderer m) (contents : HoverContents)
    (parent : π) : m π := do
  let nodes ← render renderer contents
  pure (Parent.append parent nodes)

end HeadlessEditor.Markup
