/-
  HeadlessEditor.Snippet.Placeholder

  Bracing bare placeholders: a dollar sign with decimal digits of any script
  behind it becomes a dollar sign with the same digits in braces.  All the
  digits that follow belong to the placeholder, and nothing else changes.
-/

import HeadlessEditor.Text.DecimalDigit

namespace HeadlessEditor.Snippet

open Text (isDecimalDigit)

/-- Whether a text starts with a decimal digit. -/
def startsWithDigit : Text → Bool
  | [] => false
  | c :: _ => isDecimalDigit c

/-- What ends a placeholder whose digits have been read. -/
def closing (inDigits : Bool) : Text :=
  if inDigits then ['\x7d'] else []

/-- Braces the placeholders of a text; `inDigits` tells that it begins among the digits of one. -/
def braceFrom (inDigits : Bool) : Text → Text
  | [] => closing inDigits
  | c :: rest =>
      if inDigits && isDecimalDigit c then c :: braceFrom true rest
      else if c == '$' && startsWithDigit rest then
        closing inDigits ++ '$' :: '\x7b' :: braceFrom true rest
      else closing inDigits ++ c :: braceFrom false rest

/-- Writes every bare placeholder of a template in braces. -/
def normalize (template : Text) : Text :=
  braceFrom false template

end HeadlessEditor.Snippet
