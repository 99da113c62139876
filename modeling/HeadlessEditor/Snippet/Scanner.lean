/-
  HeadlessEditor.Snippet.Scanner

  Reading a snippet template.  The template is scanned once, a character at
  a time:

    * a backslash makes the next character literal;
    * `$n` is an empty tab stop, and so is `${n}`;
    * `${n:…}` is a tab stop over its default, a template of its own;
    * `${n|a,b|}` is a tab stop over the first choice;
    * `${NAME}` is nothing and `${NAME:…}` its default, a template too;
    * any other character stands for itself.

  Every text is a template.  What is left open at its end is closed there.
  After `${`, a character that fits none of the forms is dropped: behind a
  number it starts a default, behind a name it ends the construct.
-/

import HeadlessEditor.Snippet.Basic

namespace HeadlessEditor.Snippet

/-- A construct whose default is being read. -/
inductive Frame where
  /-- A variable, which leaves no mark. -/
  | variable
  /-- A tab stop whose text began at `start`. -/
  | field (number start : Nat)
deriving DecidableEq, Repr

/-- A list of choices.  Only the first one is kept, as long as `first` holds. -/
structure Choice where
  number : Nat
  start : Nat
  first : Bool
deriving DecidableEq, Repr

/-- What the scanner is in the middle of. -/
inductive Mode where
  | plain
  | escape
  | dollar
  /-- In the number of `$n`. -/
  | bare (number : Nat)
  /-- Behind `${`. -/
  | opened
  /-- In the number of `${n`. -/
  | numbered (number : Nat)
  /-- In the name of `${NAME`. -/
  | named
  /-- Among choices. -/
  | choice (choice : Choice)
  | choiceEscape (choice : Choice)
  /-- Behind a bar among choices, which ends them if a brace follows. -/
  | choiceBar (choice : Choice)
deriving DecidableEq, Repr

/-- What has been read: the text so far, the spans marked in it, the open constructs with the
innermost first, and what the next character belongs to. -/
structure Scanner where
  text : Array Char
  marks : List Mark
  frames : List Frame
  mode : Mode
deriving DecidableEq, Repr

/-- The largest number of a tab stop; larger ones are read as this one. -/
def maxNumber : Nat :=
  4294967295

def appendDigit (number : Nat) (digit : Char) : Nat :=
  min (10 * number + (digit.toNat - '0'.toNat)) maxNumber

/-- The characters a variable's name consists of. -/
def isNameChar (c : Char) : Bool :=
  c == '_' || c.isAlphanum

/-- The letters among them are those of ASCII. -/
theorem isAlpha_iff {c : Char} :
    c.isAlpha = true ↔ 'A'.val ≤ c.val ∧ c.val ≤ 'Z'.val ∨ 'a'.val ≤ c.val ∧ c.val ≤ 'z'.val := by
  show (decide ('A'.val ≤ c.val ∧ c.val ≤ 'Z'.val)
    || decide ('a'.val ≤ c.val) && decide (c.val ≤ 'z'.val)) = true ↔ _
  simp only [Bool.or_eq_true, Bool.and_eq_true, decide_eq_true_eq]

namespace Scanner

def start : Scanner :=
  ⟨#[], [], [], .plain⟩

def enter (s : Scanner) (mode : Mode) : Scanner :=
  { s with mode }

def push (s : Scanner) (c : Char) : Scanner :=
  { s with text := s.text.push c }

/-- Marks the text from `start` to here. -/
def mark (s : Scanner) (number start : Nat) : Scanner :=
  { s with marks := ⟨number, ⟨start, s.text.size⟩⟩ :: s.marks }

def nest (s : Scanner) (frame : Frame) : Scanner :=
  { s with frames := frame :: s.frames, mode := .plain }

/-- Marks what a construct covers when it ends here. -/
def leave (s : Scanner) : Frame → Scanner
  | .variable => s
  | .field number start => s.mark number start

/-- One character of plain text. -/
def stepPlain (s : Scanner) (c : Char) : Scanner :=
  if c = '\\' then s.enter .escape
  else if c = '$' then s.enter .dollar
  else if c = '\x7d' then
    match s.frames with
    | [] => (s.push c).enter .plain
    | frame :: outer => ({ s with frames := outer }.leave frame).enter .plain
  else (s.push c).enter .plain

/-- One character among choices; the bar and the escape are pending until the next one. -/
def stepChoice (s : Scanner) (choice : Choice) (c : Char) : Scanner :=
  if c = '|' then s.enter (.choiceBar choice)
  else if c = ',' then s.enter (.choice { choice with first := false })
  else if c = '\\' then s.enter (.choiceEscape choice)
  else (if choice.first then s.push c else s).enter (.choice choice)

def step (s : Scanner) (c : Char) : Scanner :=
  match s.mode with
  | .plain => s.stepPlain c
  | .escape => (s.push c).enter .plain
  | .dollar =>
      if c = '\x7b' then s.enter .opened
      else if c.isDigit then s.enter (.bare (appendDigit 0 c))
      else (s.push '$').stepPlain c
  | .bare number =>
      if c.isDigit then s.enter (.bare (appendDigit number c))
      else (s.mark number s.text.size).stepPlain c
  | .opened =>
      if c.isDigit then s.enter (.numbered (appendDigit 0 c))
      else if isNameChar c then s.enter .named
      else if c = ':' then s.nest .variable
      else s.enter .plain
  | .numbered number =>
      if c.isDigit then s.enter (.numbered (appendDigit number c))
      else if c = '|' then s.enter (.choice ⟨number, s.text.size, true⟩)
      else if c = '\x7d' then (s.mark number s.text.size).enter .plain
      else s.nest (.field number s.text.size)
  | .named =>
      if isNameChar c then s
      else if c = ':' then s.nest .variable
      else s.enter .plain
  | .choice choice => s.stepChoice choice c
  | .choiceEscape choice =>
      (if choice.first then s.push c else s).enter (.choice choice)
  | .choiceBar choice =>
      if c = '\x7d' then (s.mark choice.number choice.start).enter .plain
      else (if choice.first then s.push '|' else s).stepChoice choice c

/-- Closes what the current mode has begun, at the end of the template. -/
def settle (s : Scanner) : Scanner :=
  match s.mode with
  | .dollar => s.push '$'
  | .bare number | .numbered number => s.mark number s.text.size
  | .choice choice | .choiceEscape choice => s.mark choice.number choice.start
  | .choiceBar choice =>
      (if choice.first then s.push '|' else s).mark choice.number choice.start
  | .plain | .escape | .opened | .named => s

/-- Closes everything, innermost first. -/
def finish (s : Scanner) : Scanner :=
  s.frames.foldl leave s.settle

def snippet (s : Scanner) : Snippet :=
  ⟨s.text.toList, TabStop.allOfMarks s.marks⟩

end Scanner

/-- Scans a piece of a template. -/
def scan (s : Scanner) (template : Text) : Scanner :=
  template.foldl Scanner.step s

/-- Reads a template. -/
def parse (template : Text) : Snippet :=
  (scan Scanner.start template).finish.snippet

theorem scan_append (s : Scanner) (a b : Text) :
    scan s (a ++ b) = scan (scan s a) b := by
  simp [scan]

end HeadlessEditor.Snippet
