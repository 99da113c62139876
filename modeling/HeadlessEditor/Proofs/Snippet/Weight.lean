/-
  HeadlessEditor.Proofs.Snippet.Weight

  Weighing what the scanner has read.  An opening brace weighs less than
  nothing, a closing brace nothing and any other character one, so a text gets
  lighter by an opening brace that comes to be literal and by a character that
  comes to be dropped.

  What a further text adds to the weight depends neither on the number or the
  place of a tab stop nor on the constructs that are open: two scanners in the
  middle of the same (`Mode.Alike`) keep their distance
  (`Scanner.Outweighs.scan`).  The constructs only decide about closing
  braces, and that is why these weigh nothing.
-/

import HeadlessEditor.Proofs.Snippet.Reading

namespace HeadlessEditor.Snippet

def charWeight (c : Char) : Int :=
  if c = '\x7b' then -1 else if c = '\x7d' then 0 else 1

def weight : Text → Int
  | [] => 0
  | c :: rest => charWeight c + weight rest

theorem weight_append (a b : Text) : weight (a ++ b) = weight a + weight b := by
  induction a with
  | nil => exact (Int.zero_add _).symm
  | cons c rest ih => rw [List.cons_append, weight, weight, ih, Int.add_assoc]

/-- Being in the middle of the same, up to numbers and places. -/
inductive Mode.Alike : Mode → Mode → Prop where
  | plain : Alike .plain .plain
  | escape : Alike .escape .escape
  | dollar : Alike .dollar .dollar
  | bare (m n : Nat) : Alike (.bare m) (.bare n)
  | opened : Alike .opened .opened
  | numbered (m n : Nat) : Alike (.numbered m) (.numbered n)
  | named : Alike .named .named
  | choice {a b : Choice} (h : a.first = b.first) : Alike (.choice a) (.choice b)
  | choiceEscape {a b : Choice} (h : a.first = b.first) : Alike (.choiceEscape a) (.choiceEscape b)
  | choiceBar {a b : Choice} (h : a.first = b.first) : Alike (.choiceBar a) (.choiceBar b)

theorem Mode.Alike.refl (mode : Mode) : Mode.Alike mode mode := by
  cases mode <;> constructor
  all_goals rfl

theorem Mode.Alike.trans {a b c : Mode} (hab : Mode.Alike a b) (hbc : Mode.Alike b c) :
    Mode.Alike a c := by
  cases hab <;> cases hbc <;> constructor
  all_goals exact Eq.trans ‹_› ‹_›

namespace Scanner

variable {s s' s'' : Scanner} {a : Text} {c : Char} {v w : Int} {choice choice' : Choice}

def weight (s : Scanner) : Int :=
  Snippet.weight s.text.toList

theorem weight_push (s : Scanner) (c : Char) : (s.push c).weight = s.weight + charWeight c := by
  show Snippet.weight (s.text.push c).toList = _
  rw [Array.toList_push, weight_append]
  show _ + (charWeight c + 0) = _
  rw [Int.add_zero]
  rfl

theorem weight_pushAll (s : Scanner) (a : Text) :
    (s.pushAll a).weight = s.weight + Snippet.weight a := by
  show Snippet.weight (s.text ++ a).toList = _
  rw [Array.toList_appendList, weight_append]
  rfl

theorem weight_leave (s : Scanner) (frame : Frame) : (s.leave frame).weight = s.weight := by
  cases frame <;> rfl

/-- The first scanner is in the middle of the same as the second, and its text weighs more
by `w`. -/
structure Outweighs (w : Int) (s s' : Scanner) : Prop where
  alike : s.mode.Alike s'.mode
  weight_eq : s.weight = w + s'.weight

theorem Outweighs.refl (s : Scanner) : Outweighs 0 s s where
  alike := .refl _
  weight_eq := (Int.zero_add _).symm

theorem Outweighs.trans (h : Outweighs v s s') (h' : Outweighs w s' s'') :
    Outweighs (v + w) s s'' where
  alike := h.alike.trans h'.alike
  weight_eq := by rw [h.weight_eq, h'.weight_eq, Int.add_assoc]

-- ============================================================================
-- One character
-- ============================================================================

theorem weight_push_closing (s : Scanner) : (s.push '\x7d').weight = s.weight := by
  rw [weight_push]
  exact Int.add_zero _

/-- A closing brace ends a construct or, where none is open, is literal; it weighs nothing. -/
theorem stepPlain_closing (s : Scanner) :
    (s.stepPlain '\x7d').mode = .plain ∧ (s.stepPlain '\x7d').weight = s.weight := by
  obtain ⟨text, marks, frames, mode⟩ := s
  cases frames with
  | nil => exact ⟨rfl, weight_push_closing _⟩
  | cons frame outer => exact ⟨rfl, weight_leave _ frame⟩

theorem stepPlain_other (s : Scanner) (hescape : c ≠ '\\') (hdollar : c ≠ '$')
    (hbrace : c ≠ '\x7d') : s.stepPlain c = (s.push c).enter .plain := by
  rw [stepPlain, if_neg hescape, if_neg hdollar, if_neg hbrace]

theorem Outweighs.push (h : s.weight = w + s'.weight) (c : Char) :
    (s.push c).weight = w + (s'.push c).weight := by
  rw [weight_push, weight_push, h, Int.add_assoc]

theorem Outweighs.stepPlain (h : s.weight = w + s'.weight) (c : Char) :
    Outweighs w (s.stepPlain c) (s'.stepPlain c) := by
  by_cases hescape : c = '\\'
  · subst hescape
    exact ⟨.escape, h⟩
  by_cases hdollar : c = '$'
  · subst hdollar
    exact ⟨.dollar, h⟩
  by_cases hbrace : c = '\x7d'
  · subst hbrace
    obtain ⟨hmode, hweight⟩ := stepPlain_closing s
    obtain ⟨hmode', hweight'⟩ := stepPlain_closing s'
    constructor
    · rw [hmode, hmode']
      exact .plain
    · rw [hweight, hweight', h]
  · rw [stepPlain_other s hescape hdollar hbrace, stepPlain_other s' hescape hdollar hbrace]
    exact ⟨.plain, push h c⟩

/-- What is read of a choice: nothing, if it is not the first one. -/
theorem Outweighs.kept (h : s.weight = w + s'.weight) (c : Char) (first : Bool) :
    (if first then s.push c else s).weight = w + (if first then s'.push c else s').weight := by
  cases first with
  | true => exact push h c
  | false => exact h

theorem Outweighs.stepChoice (h : s.weight = w + s'.weight)
    (hfirst : choice.first = choice'.first) (c : Char) :
    Outweighs w (s.stepChoice choice c) (s'.stepChoice choice' c) := by
  rw [Scanner.stepChoice, Scanner.stepChoice, hfirst]
  by_cases hbar : c = '|'
  · rw [if_pos hbar, if_pos hbar]
    exact ⟨.choiceBar hfirst, h⟩
  rw [if_neg hbar, if_neg hbar]
  by_cases hcomma : c = ','
  · rw [if_pos hcomma, if_pos hcomma]
    exact ⟨.choice rfl, h⟩
  rw [if_neg hcomma, if_neg hcomma]
  by_cases hescape : c = '\\'
  · rw [if_pos hescape, if_pos hescape]
    exact ⟨.choiceEscape hfirst, h⟩
  · rw [if_neg hescape, if_neg hescape]
    exact ⟨.choice hfirst, kept h c choice'.first⟩

/-- Scanners in the middle of the same keep their distance with one character. -/
theorem Outweighs.step (h : Outweighs w s s') (c : Char) :
    Outweighs w (s.step c) (s'.step c) := by
  obtain ⟨halike, hweight⟩ := h
  obtain ⟨text, marks, frames, mode⟩ := s
  obtain ⟨text', marks', frames', mode'⟩ := s'
  cases halike with
  | plain => exact stepPlain hweight c
  | escape => exact ⟨.plain, push hweight c⟩
  | dollar =>
    simp only [Scanner.step]
    split
    · exact ⟨.opened, hweight⟩
    split
    · exact ⟨.bare _ _, hweight⟩
    · exact stepPlain (push hweight '$') c
  | bare m n =>
    simp only [Scanner.step]
    split
    · exact ⟨.bare _ _, hweight⟩
    · apply stepPlain
      exact hweight
  | opened =>
    simp only [Scanner.step]
    split
    · exact ⟨.numbered _ _, hweight⟩
    split
    · exact ⟨.named, hweight⟩
    split
    · exact ⟨.plain, hweight⟩
    · exact ⟨.plain, hweight⟩
  | numbered m n =>
    simp only [Scanner.step]
    split
    · exact ⟨.numbered _ _, hweight⟩
    split
    · exact ⟨.choice rfl, hweight⟩
    split
    · exact ⟨.plain, hweight⟩
    · exact ⟨.plain, hweight⟩
  | named =>
    simp only [Scanner.step]
    split
    · exact ⟨.named, hweight⟩
    split
    · exact ⟨.plain, hweight⟩
    · exact ⟨.plain, hweight⟩
  | choice hfirst => exact stepChoice hweight hfirst c
  | @choiceEscape choice choice' hfirst =>
    simp only [Scanner.step]
    rw [hfirst]
    exact ⟨.choice hfirst, kept hweight c choice'.first⟩
  | @choiceBar choice choice' hfirst =>
    simp only [Scanner.step]
    split
    · exact ⟨.plain, hweight⟩
    · rw [hfirst]
      exact stepChoice (kept hweight '|' choice'.first) hfirst c

-- ============================================================================
-- A whole text
-- ============================================================================

theorem Outweighs.scan (h : Outweighs w s s') (a : Text) :
    Outweighs w (scan s a) (scan s' a) := by
  induction a generalizing s s' with
  | nil => exact h
  | cons c rest ih => exact ih (h.step c)

/-- Ending a number leaves the text as it is. -/
theorem Outweighs.closed (h : Outweighs w s s') : Outweighs w s.closed s'.closed := by
  obtain ⟨halike, hweight⟩ := h
  obtain ⟨text, marks, frames, mode⟩ := s
  obtain ⟨text', marks', frames', mode'⟩ := s'
  cases halike with
  | bare m n => exact ⟨.plain, hweight⟩
  | choice hfirst => exact ⟨.choice hfirst, hweight⟩
  | choiceEscape hfirst => exact ⟨.choiceEscape hfirst, hweight⟩
  | choiceBar hfirst => exact ⟨.choiceBar hfirst, hweight⟩
  | numbered m n => exact ⟨.numbered m n, hweight⟩
  | _ => exact ⟨.refl _, hweight⟩

/-- The end of the template is one more character. -/
theorem Outweighs.weight_settle (h : Outweighs w s s') :
    s.settle.weight = w + s'.settle.weight := by
  obtain ⟨halike, hweight⟩ := h
  obtain ⟨text, marks, frames, mode⟩ := s
  obtain ⟨text', marks', frames', mode'⟩ := s'
  cases halike with
  | dollar => exact push hweight '$'
  | @choiceBar choice choice' hfirst =>
    simp only [Scanner.settle]
    rw [hfirst]
    exact kept hweight '|' choice'.first
  | _ => exact hweight

theorem weight_finish (s : Scanner) : s.finish.weight = s.settle.weight := by
  have hleave : ∀ (frames : List Frame) (s : Scanner),
      (frames.foldl leave s).weight = s.weight := by
    intro frames
    induction frames with
    | nil => exact fun _ => rfl
    | cons frame outer ih =>
      intro s
      rw [List.foldl_cons, ih, weight_leave]
  exact hleave s.frames s.settle

end Scanner

end HeadlessEditor.Snippet
