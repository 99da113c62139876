/-
  HeadlessEditor.Markup.NormalForm

  Presentation trees in normal form: what HTML can tell apart.  Empty texts
  and neighbouring texts leave no trace in HTML, nor do children of void
  elements; and names are written as they are, so they have to be words.
-/

import HeadlessEditor.Markup.Html

namespace HeadlessEditor.Markup

/-- Whether a name consists of ASCII letters, digits and hyphens, and of at least one. -/
def isWord (name : String) : Bool :=
  !name.isEmpty && name.toList.all fun c => c.isAlphanum || c == '-'

def Node.isText : Node → Bool
  | .text _ => true
  | .element _ _ _ => false

def startsWithText : List Node → Bool
  | [] => false
  | node :: _ => node.isText

namespace Node

mutual

/-- Whether a tree is in normal form. -/
def isNormal : Node → Bool
  | .text content => !content.isEmpty
  | .element tag attributes children =>
      isWord tag && attributes.all (fun a => isWord a.1)
        && (children.isEmpty || !voidTags.contains tag) && areNormal children

def areNormal : List Node → Bool
  | [] => true
  | node :: rest => isNormal node && !(node.isText && startsWithText rest) && areNormal rest

end

end Node

end HeadlessEditor.Markup
