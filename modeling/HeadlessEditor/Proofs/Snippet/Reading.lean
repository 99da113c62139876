/-
  HeadlessEditor.Proofs.Snippet.Reading

  Reading back a template in writing.  Scanning the writing of a piece takes
  its text and its marks (`Scanner.Took`) and leaves all else as it was, in
  any construct and behind any text.  A tab stop without braces is the
  exception: its number ends only with what follows, so its mark is still to
  come (`Scanner.closed`), and what follows must be no digit.

  From there `parse_writeAll` is an induction over the tree: a template is
  read as the text it stands for, and its tab stops gather its marks.
-/

import HeadlessEditor.Proofs.Snippet.Grouping
import HeadlessEditor.Snippet.Template

namespace HeadlessEditor.Snippet

namespace Scanner

variable {s s' s'' : Scanner} {a b text more : Text} {marks others : List Mark} {c : Char}
  {number start : Nat} {frame : Frame} {outer : List Frame}

-- ============================================================================
-- Numbers that have not ended
-- ============================================================================

/-- The scanner with a number ended that could have gone on. -/
def closed (s : Scanner) : Scanner :=
  match s.mode with
  | .bare number => (s.mark number s.text.size).enter .plain
  | _ => s

theorem closed_of_plain (h : s.mode = .plain) : s.closed = s := by
  rw [closed, h]

/-- Whether a text starts with an ASCII digit. -/
def digitFirst (template : Text) : Bool :=
  template.head?.any Char.isDigit

theorem stepPlain_enter (s : Scanner) (mode : Mode) (c : Char) :
    (s.enter mode).stepPlain c = s.stepPlain c := by
  obtain ⟨text, marks, frames, old⟩ := s
  unfold stepPlain
  cases frames with
  | nil => rfl
  | cons frame outer => cases frame <;> rfl

/-- A character that is no digit ends a number. -/
theorem step_closed (s : Scanner) (hc : c.isDigit = false) : s.closed.step c = s.step c := by
  obtain ⟨text, marks, frames, mode⟩ := s
  cases mode with
  | bare number =>
    have hdigit : ¬ c.isDigit = true := by
      rw [hc]
      exact Bool.false_ne_true
    show ((mark ⟨text, marks, frames, .bare number⟩ number text.size).enter .plain).stepPlain c
      = if c.isDigit then _
        else (mark ⟨text, marks, frames, .bare number⟩ number text.size).stepPlain c
    rw [stepPlain_enter, if_neg hdigit]
  | _ => rfl

theorem scan_closed (s : Scanner) (hdigit : digitFirst a = false) :
    (scan s.closed a).closed = (scan s a).closed := by
  cases a with
  | nil =>
    show s.closed.closed = s.closed
    obtain ⟨text, marks, frames, mode⟩ := s
    cases mode <;> rfl
  | cons c rest =>
    show (scan (s.closed.step c) rest).closed = (scan (s.step c) rest).closed
    rw [step_closed s hdigit]

-- ============================================================================
-- What has been taken
-- ============================================================================

/-- The second scanner has read a text and marks, and all that was opened for them is closed. -/
structure Took (s : Scanner) (text : Text) (marks : List Mark) (s' : Scanner) : Prop where
  text_eq : s'.text.toList = s.text.toList ++ text
  marks_perm : s'.marks.Perm (marks ++ s.marks)
  frames_eq : s'.frames = s.frames
  mode_eq : s'.mode = .plain

theorem Took.size_eq (h : Took s text marks s') : s'.text.size = s.text.size + text.length := by
  rw [← Array.length_toList, h.text_eq, List.length_append, Array.length_toList]

theorem took_nil (h : s.mode = .plain) : Took s [] [] s where
  text_eq := (List.append_nil _).symm
  marks_perm := .refl _
  frames_eq := rfl
  mode_eq := h

theorem Took.trans (h : Took s text marks s') (h' : Took s' more others s'') :
    Took s (text ++ more) (marks ++ others) s'' where
  text_eq := by rw [h'.text_eq, h.text_eq, List.append_assoc]
  marks_perm := by
    have hmarks : (others ++ s'.marks).Perm (others ++ (marks ++ s.marks)) :=
      h.marks_perm.append_left others
    have hswap : (others ++ (marks ++ s.marks)).Perm (marks ++ others ++ s.marks) := by
      rw [← List.append_assoc]
      exact List.perm_append_comm.append_right _
    exact (h'.marks_perm.trans hmarks).trans hswap
  frames_eq := h'.frames_eq.trans h.frames_eq
  mode_eq := h'.mode_eq

/-- A character that stands for itself. -/
theorem took_push (s : Scanner) (c : Char) : Took s [c] [] ((s.push c).enter .plain) where
  text_eq := Array.toList_push
  marks_perm := .refl _
  frames_eq := rfl
  mode_eq := rfl

/-- A tab stop that has ended where it began. -/
theorem took_mark (s : Scanner) (number : Nat) :
    Took s [] [⟨number, ⟨s.text.size, s.text.size⟩⟩]
      ((s.mark number s.text.size).enter .plain) where
  text_eq := (List.append_nil _).symm
  marks_perm := .refl _
  frames_eq := rfl
  mode_eq := rfl

/-- A closing brace ends the innermost construct. -/
theorem step_brace (hmode : s.mode = .plain) (hframes : s.frames = frame :: outer) :
    s.step '\x7d' = ({ s with frames := outer }.leave frame).enter .plain := by
  obtain ⟨text, marks, frames, mode⟩ := s
  obtain rfl : mode = .plain := hmode
  obtain rfl : frames = frame :: outer := hframes
  rfl

/-- The default of a tab stop is marked when it ends. -/
theorem Took.field (h : Took (s.nest (.field number s.text.size)) text marks s') :
    Took s text (⟨number, ⟨s.text.size, s.text.size + text.length⟩⟩ :: marks) (s'.step '\x7d') := by
  have hsize := h.size_eq
  rw [step_brace h.mode_eq h.frames_eq]
  refine ⟨h.text_eq, ?_, rfl, rfl⟩
  have hmark : (⟨number, ⟨s.text.size, s'.text.size⟩⟩ : Mark)
      = ⟨number, ⟨s.text.size, s.text.size + text.length⟩⟩ := by
    rw [hsize]
    rfl
  rw [← hmark]
  exact h.marks_perm.cons _

/-- The default of a variable is not. -/
theorem Took.variable (h : Took (s.nest .variable) text marks s') :
    Took s text marks (s'.step '\x7d') := by
  rw [step_brace h.mode_eq h.frames_eq]
  exact ⟨h.text_eq, h.marks_perm, rfl, rfl⟩

-- ============================================================================
-- Numbers and names
-- ============================================================================

/-- Digits are read into a number, once one of them has begun it. -/
theorem scan_number (opening : Mode) (mode : Nat → Mode)
    (hopening : ∀ (s : Scanner) (c : Char), c.isDigit = true →
      (s.enter opening).step c = s.enter (mode (appendDigit 0 c)))
    (hstep : ∀ (s : Scanner) (number : Nat) (c : Char), c.isDigit = true →
      (s.enter (mode number)).step c = s.enter (mode (appendDigit number c)))
    (s : Scanner) {ds : Text} (hds : ∀ c ∈ ds, c.isDigit = true) (hne : ds ≠ []) :
    scan (s.enter opening) ds = s.enter (mode (ds.foldl appendDigit 0)) := by
  have hscan : ∀ (rest : Text) (number : Nat), (∀ c ∈ rest, c.isDigit = true) →
      scan (s.enter (mode number)) rest = s.enter (mode (rest.foldl appendDigit number)) := by
    intro rest number hrest
    induction rest generalizing number with
    | nil => rfl
    | cons d rest ih =>
      rw [List.forall_mem_cons] at hrest
      show scan ((s.enter (mode number)).step d) rest = _
      rw [hstep s number d hrest.1, ih _ hrest.2, List.foldl_cons]
  cases ds with
  | nil => exact absurd rfl hne
  | cons d rest =>
    rw [List.forall_mem_cons] at hds
    show scan ((s.enter opening).step d) rest = _
    rw [hopening s d hds.1, hscan rest _ hds.2, List.foldl_cons]

/-- The number behind a dollar sign. -/
theorem scan_bare (s : Scanner) {ds : Text} (hds : ∀ c ∈ ds, c.isDigit = true) (hne : ds ≠ []) :
    scan (s.enter .dollar) ds = s.enter (.bare (ds.foldl appendDigit 0)) := by
  refine scan_number .dollar .bare ?_ (fun s number c hc => if_pos hc) s hds hne
  intro s c hc
  have hbrace : c ≠ '\x7b' := by
    rintro rfl
    exact absurd hc (by decide)
  show (if c = '\x7b' then _ else if c.isDigit then _ else _) = _
  rw [if_neg hbrace, if_pos hc]
  rfl

/-- The number behind an opening brace. -/
theorem scan_numbered (s : Scanner) {ds : Text} (hds : ∀ c ∈ ds, c.isDigit = true)
    (hne : ds ≠ []) :
    scan (s.enter .opened) ds = s.enter (.numbered (ds.foldl appendDigit 0)) :=
  scan_number .opened .numbered (fun _ _ hc => if_pos hc) (fun _ _ _ hc => if_pos hc) s hds hne

/-- Reading digits keeps to the largest number. -/
theorem foldl_appendDigit (ds : Text) (number : Nat) :
    ds.foldl appendDigit (min number maxNumber)
      = min (Nat.ofDigitChars 10 ds number) maxNumber := by
  induction ds generalizing number with
  | nil => rfl
  | cons d rest ih =>
    have hdigit : appendDigit (min number maxNumber) d
        = min (10 * number + (d.toNat - '0'.toNat)) maxNumber := by
      simp only [appendDigit, maxNumber]
      omega
    rw [List.foldl_cons, hdigit, ih, Nat.ofDigitChars_cons]

/-- A number in writing is read back. -/
theorem foldl_appendDigit_digits (h : number ≤ maxNumber) :
    (Template.digits number).foldl appendDigit 0 = number := by
  have hzero : min 0 maxNumber = 0 := Nat.zero_min _
  rw [← hzero, foldl_appendDigit, Template.digits, Nat.ofDigitChars_ten_toDigits,
    Nat.min_eq_left h]

theorem isDigit_of_mem_digits : ∀ c ∈ Template.digits number, c.isDigit = true :=
  fun _ hc => Nat.isDigit_of_mem_toDigits (by decide) (by decide) hc

theorem digits_ne_nil : Template.digits number ≠ [] :=
  Nat.toDigits_ne_nil

theorem isDigit_eq_false_of_isAlpha (h : c.isAlpha = true) : c.isDigit = false := by
  rw [Bool.eq_false_iff]
  intro hdigit
  simp only [Char.isDigit, Bool.and_eq_true, decide_eq_true_eq] at hdigit
  obtain ⟨hupper, -⟩ | ⟨hlower, -⟩ := isAlpha_iff.mp h
  · exact absurd (UInt32.le_trans hupper hdigit.2) (by decide)
  · exact absurd (UInt32.le_trans hlower hdigit.2) (by decide)

theorem isNameChar_of_isName {name : Text} (hname : Template.isName name = true) :
    ∀ c ∈ name, isNameChar c = true := by
  cases name with
  | nil => cases hname
  | cons c rest =>
    rw [Template.isName, Bool.and_eq_true, Bool.or_eq_true, beq_iff_eq, List.all_eq_true] at hname
    have hchar : isNameChar c = true := by
      rw [isNameChar, Bool.or_eq_true, beq_iff_eq, Char.isAlphanum, Bool.or_eq_true]
      exact hname.1.imp_right Or.inl
    exact List.forall_mem_cons.mpr ⟨hchar, hname.2⟩

/-- The name of a variable. -/
theorem scan_name (s : Scanner) {name : Text} (hname : Template.isName name = true) :
    scan (s.enter .opened) name = s.enter .named := by
  have hrest : ∀ rest : Text, (∀ c ∈ rest, isNameChar c = true) →
      scan (s.enter .named) rest = s.enter .named := by
    intro rest hrest
    induction rest with
    | nil => rfl
    | cons c rest ih =>
      rw [List.forall_mem_cons] at hrest
      have hstep : (s.enter .named).step c = s.enter .named := if_pos hrest.1
      show scan ((s.enter .named).step c) rest = _
      rw [hstep, ih hrest.2]
  have hchars := isNameChar_of_isName hname
  cases name with
  | nil => cases hname
  | cons c rest =>
    rw [Template.isName, Bool.and_eq_true, Bool.or_eq_true, beq_iff_eq] at hname
    rw [List.forall_mem_cons] at hchars
    have hdigit : ¬ c.isDigit = true := by
      rw [Bool.not_eq_true]
      obtain rfl | halpha := hname.1
      · decide
      · exact isDigit_eq_false_of_isAlpha halpha
    have hstep : (s.enter .opened).step c = s.enter .named := by
      show (if c.isDigit then _ else if isNameChar c then _ else _) = _
      rw [if_neg hdigit, if_pos hchars.1]
      rfl
    show scan ((s.enter .opened).step c) rest = _
    rw [hstep, hrest rest hchars.2]

-- ============================================================================
-- Choices
-- ============================================================================

/-- A character among choices is literal; in the first choice it is kept. -/
theorem scan_writeChoiceChar (s : Scanner) (choice : Choice) (c : Char) :
    scan (s.enter (.choice choice)) (Template.writeChoiceChar c)
      = (if choice.first then s.push c else s).enter (.choice choice) := by
  rw [Template.writeChoiceChar]
  by_cases hc : c = ',' ∨ c = '|' ∨ c = '\\'
  · rw [if_pos hc]
    show (if choice.first then (s.enter (.choiceEscape choice)).push c
      else s.enter (.choiceEscape choice)).enter (.choice choice) = _
    split <;> rfl
  · obtain ⟨hcomma, hbar, hescape⟩ : c ≠ ',' ∧ c ≠ '|' ∧ c ≠ '\\' := by
      simpa only [not_or] using hc
    rw [if_neg hc]
    show (s.enter (.choice choice)).stepChoice choice c = _
    rw [stepChoice, if_neg hbar, if_neg hcomma, if_neg hescape]
    split <;> rfl

/-- The scanner with a text read that stands for itself. -/
def pushAll (s : Scanner) (w : Text) : Scanner :=
  { s with text := s.text ++ w }

theorem pushAll_nil (s : Scanner) : s.pushAll [] = s := by
  show { s with text := s.text ++ [] } = s
  rw [Array.appendList_nil]

theorem pushAll_cons (s : Scanner) (c : Char) (w : Text) :
    s.pushAll (c :: w) = (s.push c).pushAll w := by
  show { s with text := s.text ++ (c :: w) } = { s with text := s.text.push c ++ w }
  rw [Array.appendList_cons]

theorem scan_firstChoice (s : Scanner) {choice : Choice} (hfirst : choice.first = true) (w : Text) :
    scan (s.enter (.choice choice)) (w.flatMap Template.writeChoiceChar)
      = (s.pushAll w).enter (.choice choice) := by
  induction w generalizing s with
  | nil =>
    rw [pushAll_nil]
    rfl
  | cons c rest ih =>
    rw [List.flatMap_cons, scan_append, scan_writeChoiceChar, if_pos hfirst, ih, pushAll_cons]

theorem scan_laterChoice (s : Scanner) {choice : Choice} (hlater : choice.first = false)
    (w : Text) :
    scan (s.enter (.choice choice)) (w.flatMap Template.writeChoiceChar)
      = s.enter (.choice choice) := by
  induction w with
  | nil => rfl
  | cons c rest ih =>
    have hfirst : ¬ choice.first = true := by
      rw [hlater]
      exact Bool.false_ne_true
    rw [List.flatMap_cons, scan_append, scan_writeChoiceChar, if_neg hfirst, ih]

/-- Of several choices only the first is kept. -/
theorem scan_otherChoices (s : Scanner) (choice : Choice) (others : List Text) :
    ∃ last : Choice, last.number = choice.number ∧ last.start = choice.start ∧
      scan (s.enter (.choice choice))
          (others.flatMap fun other => ',' :: other.flatMap Template.writeChoiceChar)
        = s.enter (.choice last) := by
  induction others generalizing choice with
  | nil => exact ⟨choice, rfl, rfl, rfl⟩
  | cons other rest ih =>
    obtain ⟨last, hnumber, hstart, hscan⟩ := ih { choice with first := false }
    have hcomma : (s.enter (.choice choice)).step ','
        = s.enter (.choice { choice with first := false }) :=
      rfl
    refine ⟨last, hnumber, hstart, ?_⟩
    rw [List.flatMap_cons, scan_append]
    show scan (scan ((s.enter (.choice choice)).step ',') _) _ = _
    rw [hcomma, scan_laterChoice s rfl, hscan]

/-- A tab stop with choices, behind its number. -/
theorem took_choice (s : Scanner) (number : Nat) (first : Text) (others : List Text) :
    Took s first [⟨number, ⟨s.text.size, s.text.size + first.length⟩⟩]
      (scan (s.enter (.choice ⟨number, s.text.size, true⟩))
        (Template.writeChoices first others ++ ['|', '\x7d'])) := by
  obtain ⟨last, hnumber, hstart, hothers⟩ :=
    scan_otherChoices (s.pushAll first) ⟨number, s.text.size, true⟩ others
  rw [Template.writeChoices, scan_append, scan_append, scan_firstChoice s rfl, hothers]
  show Took s _ _ (((s.pushAll first).mark last.number last.start).enter .plain)
  rw [hnumber, hstart]
  have hsize : (s.text ++ first).size = s.text.size + first.length := by
    rw [← Array.length_toList, Array.toList_appendList, List.length_append, Array.length_toList]
  refine ⟨Array.toList_appendList, ?_, rfl, rfl⟩
  show (⟨number, ⟨s.text.size, (s.text ++ first).size⟩⟩ :: s.marks).Perm _
  rw [hsize]
  exact .refl _

-- ============================================================================
-- Pieces
-- ============================================================================

/-- Behind a tab stop without braces, a piece is not written with a digit first. -/
theorem digitFirst_writeAll (ts : List Template) :
    digitFirst (Template.writeAll true ts) = false := by
  cases ts with
  | nil => rfl
  | cons t rest =>
    cases t with
    | literal c =>
      show digitFirst (Template.writeLiteral true c ++ _) = false
      rw [Template.writeLiteral]
      split
      · rfl
      · next hc =>
        have hdigit : ¬ c.isDigit = true := fun h => hc (Or.inr (Or.inr (Or.inr ⟨rfl, h⟩)))
        exact Bool.eq_false_iff.mpr hdigit
    | _ => rfl

theorem step_plain (hplain : s.mode = .plain) (c : Char) : s.step c = s.stepPlain c := by
  rw [step, hplain]

theorem took_literal (hplain : s.mode = .plain) (afterBare : Bool) (c : Char) :
    Took s [c] [] (scan s (Template.writeLiteral afterBare c)) := by
  rw [Template.writeLiteral]
  split
  · have hscan : scan s ['\\', c] = (s.push c).enter .plain := by
      show (s.step '\\').step c = _
      rw [step_plain hplain]
      rfl
    rw [hscan]
    exact took_push s c
  · next hc =>
    obtain ⟨hdollar, hbrace, hescape, -⟩ :
        c ≠ '$' ∧ c ≠ '\x7d' ∧ c ≠ '\\' ∧ ¬ (afterBare = true ∧ c.isDigit = true) := by
      simpa only [not_or] using hc
    have hscan : scan s [c] = (s.push c).enter .plain := by
      show s.step c = _
      rw [step_plain hplain, stepPlain, if_neg hescape, if_neg hdollar, if_neg hbrace]
    rw [hscan]
    exact took_push s c

/-- Behind a dollar sign in plain text. -/
theorem scan_dollar (hplain : s.mode = .plain) (w : Text) :
    scan s ('$' :: w) = scan (s.enter .dollar) w := by
  show scan (s.step '$') w = _
  rw [step_plain hplain]
  rfl

theorem took_bare (hplain : s.mode = .plain) (hnumber : number ≤ maxNumber) :
    Took s [] [⟨number, ⟨s.text.size, s.text.size⟩⟩]
      (scan s ('$' :: Template.digits number)).closed := by
  rw [scan_dollar hplain, scan_bare s isDigit_of_mem_digits digits_ne_nil,
    foldl_appendDigit_digits hnumber]
  exact took_mark s number

/-- Behind the number of a tab stop with braces. -/
theorem scan_braced (hplain : s.mode = .plain) (hnumber : number ≤ maxNumber) (w : Text) :
    scan s ('$' :: '\x7b' :: Template.digits number ++ w)
      = scan (s.enter (.numbered number)) w := by
  show scan s ('$' :: '\x7b' :: (Template.digits number ++ w)) = _
  rw [scan_dollar hplain]
  show scan (s.enter .opened) (Template.digits number ++ w) = _
  rw [scan_append, scan_numbered s isDigit_of_mem_digits digits_ne_nil,
    foldl_appendDigit_digits hnumber]

/-- Behind the name of a variable. -/
theorem scan_variable (hplain : s.mode = .plain) {name : Text}
    (hname : Template.isName name = true) (w : Text) :
    scan s ('$' :: '\x7b' :: name ++ w) = scan (s.enter .named) w := by
  show scan s ('$' :: '\x7b' :: (name ++ w)) = _
  rw [scan_dollar hplain]
  show scan (s.enter .opened) (name ++ w) = _
  rw [scan_append, scan_name s hname]

/-- A default ends with a closing brace, even if a number has not ended before that. -/
theorem scan_brace (s : Scanner) (w : Text) :
    scan s (w ++ ['\x7d']) = (scan s w).closed.step '\x7d' := by
  have hdigit : Char.isDigit '\x7d' = false := by decide
  rw [scan_append, step_closed _ hdigit]
  rfl

theorem took_field (hplain : s.mode = .plain) (hnumber : number ≤ maxNumber) {w : Text}
    (hw : Took (s.nest (.field number s.text.size)) text marks
      (scan (s.nest (.field number s.text.size)) w).closed) :
    Took s text (⟨number, ⟨s.text.size, s.text.size + text.length⟩⟩ :: marks)
      (scan s ('$' :: '\x7b' :: Template.digits number ++ ':' :: w ++ ['\x7d'])) := by
  rw [List.append_assoc, scan_braced hplain hnumber]
  show Took s _ _ (scan (s.nest (.field number s.text.size)) (w ++ ['\x7d']))
  rw [scan_brace]
  exact hw.field

theorem took_variableOr (hplain : s.mode = .plain) {name w : Text}
    (hname : Template.isName name = true)
    (hw : Took (s.nest .variable) text marks (scan (s.nest .variable) w).closed) :
    Took s text marks (scan s ('$' :: '\x7b' :: name ++ ':' :: w ++ ['\x7d'])) := by
  rw [List.append_assoc, scan_variable hplain hname]
  show Took s _ _ (scan (s.nest .variable) (w ++ ['\x7d']))
  rw [scan_brace]
  exact hw.variable

/-- All but tab stops without braces have ended with their writing. -/
theorem Took.ended (h : Took s text marks (scan s a)) {p : Prop} :
    Took s text marks (scan s a).closed ∧ (p → (scan s a).mode = .plain) := by
  refine ⟨?_, fun _ => h.mode_eq⟩
  rw [closed_of_plain h.mode_eq]
  exact h

end Scanner

open Scanner Template

mutual

/-- Scanning the writing of a piece. -/
theorem took_write (t : Template) (hvalid : isValid t = true) (afterBare : Bool) {s : Scanner}
    (hplain : s.mode = .plain) :
    Took s (expand t) (marks s.text.size t) (scan s (write afterBare t)).closed ∧
      (isBare t = false → (scan s (write afterBare t)).mode = .plain) := by
  match t with
  | .literal c => exact (took_literal hplain afterBare c).ended
  | .bare number =>
    have hnumber : number ≤ maxNumber := of_decide_eq_true hvalid
    exact ⟨took_bare hplain hnumber, nofun⟩
  | .braced number =>
    have hnumber : number ≤ maxNumber := of_decide_eq_true hvalid
    have htook : Took s [] [⟨number, ⟨s.text.size, s.text.size⟩⟩]
        (scan s (write afterBare (.braced number))) := by
      rw [write, scan_braced hplain hnumber]
      exact took_mark s number
    exact htook.ended
  | .field number default =>
    rw [isValid, Bool.and_eq_true, decide_eq_true_eq] at hvalid
    have hdefault := took_writeAll default hvalid.2 false
      (show (s.nest (.field number s.text.size)).mode = .plain from rfl)
    exact (took_field hplain hvalid.1 hdefault).ended
  | .choice number first others =>
    have hnumber : number ≤ maxNumber := of_decide_eq_true hvalid
    have htook : Took s first [⟨number, ⟨s.text.size, s.text.size + first.length⟩⟩]
        (scan s (write afterBare (.choice number first others))) := by
      rw [write, List.append_assoc, scan_braced hplain hnumber]
      exact took_choice s number first others
    exact htook.ended
  | .variable name =>
    have htook : Took s [] [] (scan s (write afterBare (.variable name))) := by
      rw [write, scan_variable hplain hvalid]
      exact ⟨(List.append_nil _).symm, .refl _, rfl, rfl⟩
    exact htook.ended
  | .variableOr name default =>
    rw [isValid, Bool.and_eq_true] at hvalid
    have hdefault := took_writeAll default hvalid.2 false
      (show (s.nest .variable).mode = .plain from rfl)
    exact (took_variableOr hplain hvalid.1 hdefault).ended

/-- Scanning the writing of pieces. -/
theorem took_writeAll (ts : List Template) (hvalid : areValid ts = true) (afterBare : Bool)
    {s : Scanner} (hplain : s.mode = .plain) :
    Took s (expandAll ts) (marksOfAll s.text.size ts) (scan s (writeAll afterBare ts)).closed := by
  match ts with
  | [] =>
    show Took s [] [] s.closed
    rw [closed_of_plain hplain]
    exact took_nil hplain
  | t :: rest =>
    rw [areValid, Bool.and_eq_true] at hvalid
    obtain ⟨hfirst, hended⟩ := took_write t hvalid.1 afterBare hplain
    have hrest := took_writeAll rest hvalid.2 (isBare t) hfirst.mode_eq
    rw [hfirst.size_eq] at hrest
    have hscan : (scan (scan s (write afterBare t)).closed (writeAll (isBare t) rest)).closed
        = (scan s (writeAll afterBare (t :: rest))).closed := by
      rw [writeAll, scan_append]
      cases hbare : isBare t with
      | false => rw [closed_of_plain (hended hbare)]
      | true => exact scan_closed _ (digitFirst_writeAll rest)
    rw [← hscan]
    exact hfirst.trans hrest

end

theorem frames_closed (s : Scanner) : s.closed.frames = s.frames := by
  obtain ⟨text, marks, frames, mode⟩ := s
  cases mode <;> rfl

/-- The end of a template ends a number. -/
theorem settle_closed (s : Scanner) (h : s.closed.mode = .plain) :
    s.settle.text = s.closed.text ∧ s.settle.marks = s.closed.marks := by
  obtain ⟨text, marks, frames, mode⟩ := s
  cases mode with
  | plain => exact ⟨rfl, rfl⟩
  | bare number => exact ⟨rfl, rfl⟩
  | _ => cases h

/-- What has been read of a template at its end is the snippet. -/
theorem parse_of_took {t text : Text} {marks : List Mark}
    (htook : Took start text marks (scan start t).closed) :
    (parse t).text = text ∧ TabStop.Groups marks (parse t).stops := by
  obtain ⟨htext, hmarks⟩ := settle_closed _ htook.mode_eq
  have hopen : (scan start t).frames = [] := by
    rw [← frames_closed]
    exact htook.frames_eq
  have hfinish : (scan start t).finish = (scan start t).settle := by
    rw [finish, hopen, List.foldl_nil]
  constructor
  · show (scan start t).finish.text.toList = text
    rw [hfinish, htext, htook.text_eq]
    rfl
  · show TabStop.Groups _ (TabStop.allOfMarks (scan start t).finish.marks)
    have hperm : (scan start t).closed.marks.Perm (marks ++ []) := htook.marks_perm
    rw [List.append_nil] at hperm
    rw [hfinish, hmarks]
    exact (TabStop.groups_allOfMarks _).of_perm hperm

/-- A template in writing is read as the text it stands for, and its tab stops gather the marks
of that text. -/
theorem parse_writeAll (ts : List Template) (hvalid : areValid ts = true) :
    (parse (writeAll false ts)).text = expandAll ts ∧
      TabStop.Groups (marksOfAll 0 ts) (parse (writeAll false ts)).stops := by
  have hplain : start.mode = .plain := rfl
  exact parse_of_took (took_writeAll ts hvalid false hplain)

/-- A default with an escaped brace, a tab stop before a digit and choices, and a variable. -/
def nestedSample : List Template :=
  [.field 2 [.literal '\x7d', .bare 1, .literal '3', .choice 1 ['a', ','] [['b']]],
    .variableOr ['X'] [.braced 0]]

theorem parse_writeAll_nestedSample :
    areValid nestedSample = true ∧
      (parse (writeAll false nestedSample)).text = ['\x7d', '3', 'a', ','] ∧
      TabStop.Groups [⟨2, ⟨0, 4⟩⟩, ⟨1, ⟨1, 1⟩⟩, ⟨1, ⟨2, 4⟩⟩, ⟨0, ⟨4, 4⟩⟩]
        (parse (writeAll false nestedSample)).stops := by
  have hvalid : areValid nestedSample = true := by decide
  exact ⟨hvalid, parse_writeAll nestedSample hvalid⟩

end HeadlessEditor.Snippet
