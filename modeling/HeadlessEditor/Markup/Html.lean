/-
  HeadlessEditor.Markup.Html

  Presentation trees as HTML.  Text and attribute values are escaped; names
  are written as they are.  A void element has neither content nor a closing
  tag.
-/

import HeadlessEditor.Markup.Node
import HeadlessEditor.Text.Basic

namespace HeadlessEditor.Markup

/-- The tags of elements without content. -/
def voidTags : List String :=
  ["br", "hr", "img", "input", "meta", "link"]

def escapeChar (c : Char) : Text :=
  if c = '&' then ['&', 'a', 'm', 'p', ';']
  else if c = '<' then ['&', 'l', 't', ';']
  else if c = '>' then ['&', 'g', 't', ';']
  else [c]

def escapeQuotedChar (c : Char) : Text :=
  if c = '"' then ['&', 'q', 'u', 'o', 't', ';'] else escapeChar c

def escape (s : String) : Text :=
  s.toList.flatMap escapeChar

/-- An attribute with the blank in front of it. -/
def Attribute.html (a : Attribute) : Text :=
  ' ' :: a.1.toList ++ '=' :: '"' :: a.2.toList.flatMap escapeQuotedChar ++ ['"']

def openingTag (tag : String) (attributes : List Attribute) : Text :=
  '<' :: tag.toList ++ attributes.flatMap Attribute.html ++ ['>']

def closingTag (tag : String) : Text :=
  '<' :: '/' :: tag.toList ++ ['>']

namespace Node

mutual

def html : Node → Text
  | .text content => escape content
  | .element tag attributes children =>
      openingTag tag attributes ++
        if tag ∈ voidTags then [] else htmlOfAll children ++ closingTag tag

def htmlOfAll : List Node → Text
  | [] => []
  | node :: rest => html node ++ htmlOfAll rest

end

end Node

def Element.html (e : Element) : String :=
  String.ofList e.node.html

def Fragment.html (f : Fragment) : String :=
  String.ofList (Node.htmlOfAll f)

end HeadlessEditor.Markup
