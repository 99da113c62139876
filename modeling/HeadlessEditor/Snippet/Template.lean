/-
  HeadlessEditor.Snippet.Template

  Snippet templates as trees, how they are written, and the text and the
  marks they stand for.

  In writing, a backslash makes a character literal that would mean
  something else where it stands: a dollar sign, a closing brace or a
  backslash anywhere, a comma, a bar or a backslash among choices, and a
  digit behind a tab stop without braces.
-/

import HeadlessEditor.Snippet.Scanner

namespace HeadlessEditor.Snippet

/-- A piece of a template. -/
inductive Template where
  | literal (c : Char)
  /-- An empty tab stop, `$n`. -/
  | bare (number : Nat)
  /-- An empty tab stop, `${n}`. -/
  | braced (number : Nat)
  /-- A tab stop with a default, `${n:…}`. -/
  | field (number : Nat) (default : List Template)
  /-- A tab stop with choices, `${n|a,b|}`. -/
  | choice (number : Nat) (first : Text) (others : List Text)
  | variable (name : Text)
  /-- A variable with a default, `${NAME:…}`. -/
  | variableOr (name : Text) (default : List Template)
deriving Repr

namespace Template

-- ============================================================================
-- What a template stands for
-- ============================================================================

mutual

/-- The text of a piece.  A tab stop inserts its default or its first choice, a variable its
default. -/
def expand : Template → Text
  | .literal c => [c]
  | .bare _ | .braced _ | .variable _ => []
  | .field _ default => expandAll default
  | .choice _ first _ => first
  | .variableOr _ default => expandAll default

def expandAll : List Template → Text
  | [] => []
  | t :: rest => expand t ++ expandAll rest

end

mutual

/-- The marks of a piece whose text begins at `offset`. -/
def marks (offset : Nat) : Template → List Mark
  | .literal _ | .variable _ => []
  | .bare number | .braced number => [⟨number, ⟨offset, offset⟩⟩]
  | .field number default =>
      ⟨number, ⟨offset, offset + (expandAll default).length⟩⟩ :: marksOfAll offset default
  | .choice number first _ => [⟨number, ⟨offset, offset + first.length⟩⟩]
  | .variableOr _ default => marksOfAll offset default

def marksOfAll (offset : Nat) : List Template → List Mark
  | [] => []
  | t :: rest => marks offset t ++ marksOfAll (offset + (expand t).length) rest

end

-- ============================================================================
-- How a template is written
-- ============================================================================

def digits (number : Nat) : Text :=
  Nat.toDigits 10 number

/-- A literal character; `afterBare` tells that a tab stop without braces stands before it. -/
def writeLiteral (afterBare : Bool) (c : Char) : Text :=
  if c = '$' ∨ c = '\x7d' ∨ c = '\\' ∨ (afterBare ∧ c.isDigit) then ['\\', c] else [c]

def writeChoiceChar (c : Char) : Text :=
  if c = ',' ∨ c = '|' ∨ c = '\\' then ['\\', c] else [c]

/-- Choices with commas between them. -/
def writeChoices (first : Text) (others : List Text) : Text :=
  first.flatMap writeChoiceChar ++
    others.flatMap fun other => ',' :: other.flatMap writeChoiceChar

/-- Whether a piece is a tab stop without braces. -/
def isBare : Template → Bool
  | .bare _ => true
  | _ => false

mutual

/-- A piece in writing. -/
def write (afterBare : Bool) : Template → Text
  | .literal c => writeLiteral afterBare c
  | .bare number => '$' :: digits number
  | .braced number => '$' :: '\x7b' :: digits number ++ ['\x7d']
  | .field number default =>
      '$' :: '\x7b' :: digits number ++ ':' :: writeAll false default ++ ['\x7d']
  | .choice number first others =>
      '$' :: '\x7b' :: digits number ++ '|' :: writeChoices first others ++ ['|', '\x7d']
  | .variable name => '$' :: '\x7b' :: name ++ ['\x7d']
  | .variableOr name default =>
      '$' :: '\x7b' :: name ++ ':' :: writeAll false default ++ ['\x7d']

def writeAll (afterBare : Bool) : List Template → Text
  | [] => []
  | t :: rest => write afterBare t ++ writeAll (isBare t) rest

end

/-- Whether a text is the name of a variable. -/
def isName : Text → Bool
  | [] => false
  | c :: rest => (c == '_' || c.isAlpha) && rest.all isNameChar

mutual

/-- Whether the numbers of a piece can be read back and its variables have names. -/
def isValid : Template → Bool
  | .literal _ => true
  | .bare number | .braced number | .choice number _ _ => number ≤ maxNumber
  | .field number default => number ≤ maxNumber && areValid default
  | .variable name => isName name
  | .variableOr name default => isName name && areValid default

def areValid : List Template → Bool
  | [] => true
  | t :: rest => isValid t && areValid rest

end

end Template

end HeadlessEditor.Snippet
