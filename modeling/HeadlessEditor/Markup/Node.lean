/-
  HeadlessEditor.Markup.Node

  Presentation trees: what hosts show in tooltips and panels.  A tree is a
  text or an element with attributes and children; a fragment is a list of
  trees without an element around them.
-/

namespace HeadlessEditor.Markup

/-- An attribute: its name and its value. -/
abbrev Attribute := String × String

inductive Node where
  | text (content : String)
  | element (tag : String) (attributes : List Attribute) (children : List Node)
deriving Repr, Inhabited

/-- An element by its parts. -/
structure Element where
  tag : String
  attributes : List Attribute := []
  children : List Node := []
deriving Repr, Inhabited

/-- Trees side by side. -/
abbrev Fragment := List Node

/-- Gives an attribute a value, in its place if it is there already and else at the end. -/
def setAttribute (name value : String) : List Attribute → List Attribute
  | [] => [(name, value)]
  | (n, v) :: rest =>
      if n = name then (n, value) :: rest else (n, v) :: setAttribute name value rest

namespace Node

mutual

/-- All text of a tree, concatenated. -/
def textContent : Node → String
  | .text content => content
  | .element _ _ children => textContentOfAll children

def textContentOfAll : List Node → String
  | [] => ""
  | node :: rest => textContent node ++ textContentOfAll rest

end

end Node

namespace Element

def node (e : Element) : Node :=
  .element e.tag e.attributes e.children

def attribute? (e : Element) (name : String) : Option String :=
  e.attributes.lookup name

def set (e : Element) (name value : String) : Element :=
  { e with attributes := setAttribute name value e.attributes }

end Element

/-- What trees can be appended to. -/
class Parent (π : Type) where
  append : π → List Node → π

/-- Trees appended to an element become its last children. -/
instance : Parent Element :=
  ⟨fun e nodes => { e with children := e.children ++ nodes }⟩

/-- Trees appended to a fragment come last in it. -/
instance : Parent Fragment :=
  ⟨fun f nodes => f ++ nodes⟩

end HeadlessEditor.Markup
