/-
  HeadlessEditor.Text.Quoted

  Text as a quoted literal for people to read.  Quotes, backslashes and the
  common control characters are escaped by a backslash.  Other characters
  that cannot be told by sight are written as their number in hexadecimal:
  those that are not graphic, fillers, and those that extend the one before
  but for the voicing marks, which stand beside it.
-/

import HeadlessEditor.Text.Extending
import HeadlessEditor.Text.Graphic

namespace HeadlessEditor.Text

/-- The letters that show nothing: they fill the place of a letter in a Hangul syllable.  All other
characters that Unicode lets a display ignore are not graphic or extend the one before. -/
def fillers : List Char :=
  ['\u115F', '\u1160', '\u3164', '\uFFA0']

/-- The letters among the characters that extend the one before: the halfwidth voicing marks of
Japanese, which stand in a cell of their own and so can be told by sight. -/
def voicingMarks : List Char :=
  ['\uFF9E', '\uFF9F']

/-- Whether a character is shown as it is. -/
def isVisible (c : Char) : Bool :=
  isGraphic c && !fillers.contains c && (!isExtending c || voicingMarks.contains c)

/-- A character within a quoted literal. -/
def quotedChar (c : Char) : Text :=
  match c with
  | '"' => ['\\', '"']
  | '\\' => ['\\', '\\']
  | '\n' => ['\\', 'n']
  | '\r' => ['\\', 'r']
  | '\t' => ['\\', 't']
  | '\x00' => ['\\', '0']
  | _ =>
      if isVisible c then [c]
      else '\\' :: 'u' :: '\x7b' :: Nat.toDigits 16 c.toNat ++ ['\x7d']

def quoted (t : Text) : Text :=
  '"' :: t.flatMap quotedChar ++ ['"']

end HeadlessEditor.Text
