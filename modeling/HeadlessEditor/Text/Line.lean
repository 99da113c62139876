/-
  HeadlessEditor.Text.Line

  Lines.  A line ends after a line feed, after a carriage return, or after
  the two together, and keeps its break; nothing else breaks a line.  The
  last line has no break, so a text that ends in one has an empty last line
  and the empty text has one line.
-/

import HeadlessEditor.Text.Basic

namespace HeadlessEditor.Text

/-- Puts a character in front of the first line. -/
def prepend (c : Char) : List Text → List Text
  | [] => [[c]]
  | line :: rest => (c :: line) :: rest

/-- The lines of a text in order, each with its break. -/
def lines : Text → List Text
  | [] => [[]]
  | '\r' :: '\n' :: rest => ['\r', '\n'] :: lines rest
  | c :: rest =>
      if c = '\n' ∨ c = '\r' then [c] :: lines rest else prepend c (lines rest)

/-- The number of lines, one more than the number of breaks. -/
def lineCount (t : Text) : Nat :=
  (lines t).length

/-- The line break at the end of a line: empty only on the last line of a text. -/
def lineBreak (line : Text) : Text :=
  match line.reverse with
  | '\n' :: '\r' :: _ => ['\r', '\n']
  | '\n' :: _ => ['\n']
  | '\r' :: _ => ['\r']
  | _ => []

/-- A line without its break. -/
def lineContent (line : Text) : Text :=
  line.take (line.length - (lineBreak line).length)

/-- The offset at which line `n` starts. -/
def lineStart (t : Text) (n : Nat) : Nat :=
  ((lines t).take n).flatten.length

/-- Finds an offset among lines: the index of its line and the offset within it.  An offset at
the very end belongs to the last line. -/
def locate (offset : Nat) : List Text → Nat × Nat
  | [] => (0, offset)
  | [_] => (0, offset)
  | line :: rest =>
      if offset < line.length then (0, offset)
      else
        let found := locate (offset - line.length) rest
        (found.1 + 1, found.2)

/-! ## The lines of a text make up the text -/

theorem prepend_ne_nil (c : Char) (ls : List Text) : prepend c ls ≠ [] := by
  cases ls <;> simp [prepend]

theorem flatten_prepend (c : Char) (ls : List Text) :
    (prepend c ls).flatten = c :: ls.flatten := by
  cases ls <;> simp [prepend]

theorem lines_ne_nil (t : Text) : lines t ≠ [] := by
  fun_cases lines t with
  | case1 => simp
  | case2 => simp
  | case3 => simp
  | case4 => exact prepend_ne_nil _ _

theorem flatten_lines (t : Text) : (lines t).flatten = t := by
  fun_induction lines t with
  | case1 => rfl
  | case2 rest ih => simp [ih]
  | case3 c rest _ _ ih => simp [ih]
  | case4 c rest _ _ ih => simp [flatten_prepend, ih]

end HeadlessEditor.Text
