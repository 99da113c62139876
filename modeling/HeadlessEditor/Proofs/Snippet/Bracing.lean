/-
  HeadlessEditor.Proofs.Snippet.Bracing

  What bracing the placeholders of a template does to its meaning.  It is
  made to turn tab stops without braces into ones with braces, and then it
  changes nothing.  But it takes every dollar sign before a decimal digit for
  one, also an escaped one, one in a choice, or one before a digit that is no
  ASCII digit.  A template is `Scanner.Braceable` if this comes up only in
  choices that are dropped.

  Braceable templates are read alike before and after
  (`closed_scan_normalize`).  All others lose weight (`outweighs_normalize`):
  opening braces come to be literal, or dollar signs and digits are dropped,
  and nothing that bracing does makes up for it.
-/

import HeadlessEditor.Proofs.Snippet.Placeholder
import HeadlessEditor.Proofs.Snippet.Weight

namespace HeadlessEditor.Snippet

open Text (isDecimalDigit)

-- ============================================================================
-- Templates that bracing does not change
-- ============================================================================

/-- Whether a placeholder may be braced whose dollar sign has led to the given mode, with `rest`
behind it: it is read as a tab stop without braces, by all its digits, or it is dropped with the
choice it is in. -/
def Mode.Braceable (rest : Text) : Mode → Prop
  | .dollar => ∀ d ∈ rest.takeWhile isDecimalDigit, d.isDigit = true
  | .choice choices => choices.first = false
  | _ => False

namespace Scanner

variable {s s' : Scanner} {a b after rest digits : Text} {c : Char}

/-- Whether all placeholders of a text, scanned from `s` on and with `after` behind it, may be
braced. -/
def Braceable (after : Text) (s : Scanner) : Text → Prop
  | [] => True
  | c :: rest =>
      (c = '$' → startsWithDigit (rest ++ after) = true →
        (s.step c).mode.Braceable (rest ++ after)) ∧
      Braceable after (s.step c) rest

/-- Only dollar signs matter. -/
theorem braceable_cons (hc : c ≠ '$') :
    Braceable after s (c :: rest) ↔ Braceable after (s.step c) rest := by
  rw [Braceable]
  exact ⟨fun h => h.2, fun h => ⟨fun hdollar => absurd hdollar hc, h⟩⟩

theorem braceable_append :
    Braceable after s (a ++ b) ↔ Braceable (b ++ after) s a ∧ Braceable after (scan s a) b := by
  induction a generalizing s with
  | nil => exact ⟨fun h => ⟨trivial, h⟩, fun h => h.2⟩
  | cons c rest ih =>
    rw [List.cons_append, Braceable, Braceable, ih, List.append_assoc, and_assoc]
    rfl

theorem braceable_of_not_mem (h : '$' ∉ a) : Braceable after s a := by
  induction a generalizing s with
  | nil => exact trivial
  | cons c rest ih =>
    rw [List.mem_cons, not_or] at h
    rw [braceable_cons (Ne.symm h.1)]
    exact ih h.2

/-- A number that ends before a placeholder does not matter to it. -/
theorem braceable_closed (hdigit : digitFirst a = false) :
    Braceable after s.closed a ↔ Braceable after s a := by
  cases a with
  | nil => exact Iff.rfl
  | cons c rest =>
    rw [Braceable, Braceable, step_closed s hdigit]

theorem digitFirst_of_startsWithDigit (h : startsWithDigit a = false) : digitFirst a = false := by
  cases a with
  | nil => rfl
  | cons c rest =>
    rw [Bool.eq_false_iff]
    intro hdigit
    have := Text.isDecimalDigit_of_isDigit hdigit
    rw [← startsWithDigit_cons c rest, h] at this
    cases this

-- ============================================================================
-- Bracing them
-- ============================================================================

/-- A tab stop reads the same with braces. -/
theorem closed_scan_bare (s : Scanner) (hdigits : ∀ d ∈ digits, d.isDigit = true)
    (hne : digits ≠ []) :
    scan (s.enter .dollar) ('\x7b' :: (digits ++ ['\x7d']))
      = (scan (s.enter .dollar) digits).closed := by
  show scan (s.enter .opened) (digits ++ ['\x7d']) = _
  rw [scan_append, scan_numbered s hdigits hne, scan_bare s hdigits hne]
  rfl

theorem takeWhile_digits (hdigits : ∀ d ∈ digits, isDecimalDigit d = true)
    (hrest : startsWithDigit rest = false) :
    (digits ++ rest).takeWhile isDecimalDigit = digits :=
  Text.takeWhile_append_of_stops hdigits (stops_of_startsWithDigit hrest)

theorem ne_of_isDecimalDigit (h : isDecimalDigit c = true) {other : Char}
    (hother : isDecimalDigit other = false) : c ≠ other := by
  rintro rfl
  rw [h] at hother
  cases hother

/-- Digits are written among choices as they are. -/
theorem flatMap_digits (hdigits : ∀ d ∈ digits, isDecimalDigit d = true) :
    digits.flatMap Template.writeChoiceChar = digits := by
  induction digits with
  | nil => rfl
  | cons d more ih =>
    rw [List.forall_mem_cons] at hdigits
    have hd : ¬ (d = ',' ∨ d = '|' ∨ d = '\\') := by
      rintro (rfl | rfl | rfl) <;> exact absurd hdigits.1 (by decide)
    rw [List.flatMap_cons, ih hdigits.2, Template.writeChoiceChar, if_neg hd]
    rfl

theorem flatMap_braced (hdigits : ∀ d ∈ digits, isDecimalDigit d = true) :
    ('\x7b' :: (digits ++ ['\x7d'])).flatMap Template.writeChoiceChar
      = '\x7b' :: (digits ++ ['\x7d']) := by
  rw [List.flatMap_cons, List.flatMap_append, flatMap_digits hdigits]
  rfl

/-- A placeholder that may be braced leads, with braces, to where it leads without. -/
theorem scan_braced_placeholder (hne : digits ≠ [])
    (hdigits : ∀ d ∈ digits, isDecimalDigit d = true) (hrest : startsWithDigit rest = false)
    (h : s.mode.Braceable (digits ++ rest)) :
    scan s ('\x7b' :: (digits ++ ['\x7d'])) = (scan s digits).closed := by
  cases hmode : s.mode with
  | dollar =>
    have hs : s = s.enter .dollar := by
      rw [← hmode]
      rfl
    have hascii : ∀ d ∈ digits, d.isDigit = true := by
      rw [hmode, Mode.Braceable, takeWhile_digits hdigits hrest] at h
      exact h
    rw [hs]
    exact closed_scan_bare s hascii hne
  | choice choices =>
    have hlater : choices.first = false := by
      rw [hmode] at h
      exact h
    have hs : s = s.enter (.choice choices) := by
      rw [← hmode]
      rfl
    have hdropped := scan_laterChoice s hlater digits
    have hbraced := scan_laterChoice s hlater ('\x7b' :: (digits ++ ['\x7d']))
    rw [flatMap_digits hdigits] at hdropped
    rw [flatMap_braced hdigits] at hbraced
    rw [hs, hdropped, hbraced]
    rfl
  | _ =>
    rw [hmode] at h
    exact h.elim

theorem scan_normalize_placeholder (s : Scanner) (hne : digits ≠ [])
    (hdigits : ∀ d ∈ digits, isDecimalDigit d = true) (hrest : startsWithDigit rest = false) :
    scan s (normalize ('$' :: (digits ++ rest)))
      = scan (scan (s.step '$') ('\x7b' :: (digits ++ ['\x7d']))) (normalize rest) := by
  have hsplit : normalize ('$' :: (digits ++ rest))
      = '$' :: (('\x7b' :: (digits ++ ['\x7d'])) ++ normalize rest) := by
    rw [normalize_placeholder hne hdigits hrest, List.cons_append, List.append_assoc]
    rfl
  rw [hsplit, ← scan_append]
  rfl

theorem scan_placeholder (s : Scanner) (hrest : startsWithDigit rest = false) :
    (scan s ('$' :: (digits ++ rest))).closed
      = (scan (scan (s.step '$') digits).closed rest).closed := by
  rw [scan_closed _ (digitFirst_of_startsWithDigit hrest), ← scan_append]
  rfl

theorem braceable_placeholder (hne : digits ≠ [])
    (hdigits : ∀ d ∈ digits, isDecimalDigit d = true) (hrest : startsWithDigit rest = false) :
    Braceable [] s ('$' :: (digits ++ rest)) ↔
      (s.step '$').mode.Braceable (digits ++ rest) ∧
        Braceable [] (scan (s.step '$') digits).closed rest := by
  rw [Braceable, List.append_nil, braceable_append,
    braceable_closed (digitFirst_of_startsWithDigit hrest)]
  constructor
  · rintro ⟨hplaceholder, -, hafter⟩
    exact ⟨hplaceholder rfl (startsWithDigit_append hne hdigits), hafter⟩
  · rintro ⟨hplaceholder, hafter⟩
    exact ⟨fun _ _ => hplaceholder,
      braceable_of_not_mem (dollar_not_mem_of_digits hdigits), hafter⟩

/-- Behind a braceable text the scanner stands where it stands behind the braced text. -/
theorem closed_scan_normalize (t : Text) (s : Scanner) (h : Braceable [] s t) :
    (scan s (normalize t)).closed = (scan s t).closed := by
  induction t using placeholderInduction generalizing s with
  | nil => rfl
  | char c rest hc ih =>
    rw [normalize_cons hc]
    exact ih (s.step c) h.2
  | placeholder digits rest hne hdigits hrest ih =>
    obtain ⟨hplaceholder, hafter⟩ := (braceable_placeholder hne hdigits hrest).mp h
    rw [scan_normalize_placeholder s hne hdigits hrest,
      scan_braced_placeholder hne hdigits hrest hplaceholder, ih _ hafter, scan_placeholder s hrest]

-- ============================================================================
-- Bracing others
-- ============================================================================

theorem charWeight_decimalDigit (h : isDecimalDigit c = true) : charWeight c = 1 := by
  rw [charWeight, if_neg (ne_of_isDecimalDigit h (by decide)),
    if_neg (ne_of_isDecimalDigit h (by decide))]

/-- In plain text a digit is literal. -/
theorem stepPlain_decimalDigit (s : Scanner) (h : isDecimalDigit c = true) :
    s.stepPlain c = (s.push c).enter .plain :=
  stepPlain_other s (ne_of_isDecimalDigit h (by decide)) (ne_of_isDecimalDigit h (by decide))
    (ne_of_isDecimalDigit h (by decide))

theorem scan_plain_digits (hplain : s.mode = .plain)
    (hdigits : ∀ d ∈ digits, isDecimalDigit d = true) : (scan s digits).mode = .plain := by
  induction digits generalizing s with
  | nil => exact hplain
  | cons d more ih =>
    rw [List.forall_mem_cons] at hdigits
    have hstep : s.step d = (s.push d).enter .plain := by
      rw [step_plain hplain, stepPlain_decimalDigit s hdigits.1]
    refine ih ?_ hdigits.2
    rw [hstep]
    rfl

/-- Where a placeholder has come to be plain text, its closing brace does not matter to what it
weighs. -/
theorem outweighs_closing {w : Int} (h : Outweighs w s s') (hplain : s.mode = .plain)
    (hplain' : s'.mode = .plain) (hdigits : ∀ d ∈ digits, isDecimalDigit d = true) :
    Outweighs w (scan s (digits ++ ['\x7d'])) (scan s' digits).closed := by
  have hdigits' := scan_plain_digits hplain' hdigits
  have hstep : scan s (digits ++ ['\x7d']) = (scan s digits).stepPlain '\x7d' := by
    rw [scan_append, ← step_plain (scan_plain_digits hplain hdigits)]
    rfl
  obtain ⟨hmode, hweight⟩ := stepPlain_closing (scan s digits)
  rw [hstep, closed_of_plain hdigits']
  constructor
  · rw [hmode, hdigits']
    exact .plain
  · rw [hweight, (h.scan digits).weight_eq]

/-- In plain text the opening brace comes to be literal. -/
theorem outweighs_plain (hplain : s.mode = .plain)
    (hdigits : ∀ d ∈ digits, isDecimalDigit d = true) :
    Outweighs (-1) (scan s ('\x7b' :: (digits ++ ['\x7d']))) (scan s digits).closed := by
  have hstep : s.step '\x7b' = (s.push '\x7b').enter .plain := by
    rw [step_plain hplain]
    rfl
  show Outweighs (-1) (scan (s.step '\x7b') (digits ++ ['\x7d'])) _
  rw [hstep]
  refine outweighs_closing ⟨?_, ?_⟩ rfl hplain hdigits
  · rw [hplain]
    exact .plain
  · show (s.push '\x7b').weight = -1 + s.weight
    rw [weight_push, Int.add_comm]
    rfl

/-- So it does in the first choice. -/
theorem outweighs_firstChoice (s : Scanner) {choice : Choice} (hfirst : choice.first = true)
    (hdigits : ∀ d ∈ digits, isDecimalDigit d = true) :
    Outweighs (-1) (scan (s.enter (.choice choice)) ('\x7b' :: (digits ++ ['\x7d'])))
      (scan (s.enter (.choice choice)) digits).closed := by
  have hbare := scan_firstChoice s hfirst digits
  have hbraced := scan_firstChoice s hfirst ('\x7b' :: (digits ++ ['\x7d']))
  rw [flatMap_digits hdigits] at hbare
  rw [flatMap_braced hdigits] at hbraced
  rw [hbare, hbraced]
  refine ⟨.refl _, ?_⟩
  have hweight : Snippet.weight ('\x7b' :: (digits ++ ['\x7d'])) = -1 + Snippet.weight digits := by
    have hclosing : Snippet.weight ['\x7d'] = 0 := rfl
    rw [Snippet.weight, weight_append, hclosing, Int.add_zero]
    rfl
  show (s.pushAll ('\x7b' :: (digits ++ ['\x7d']))).weight = -1 + (s.pushAll digits).weight
  rw [weight_pushAll, weight_pushAll, hweight]
  omega

/-- A digit that is no ASCII digit ends what a dollar sign and a brace have opened, and is not
read. -/
theorem scan_opened_other (s : Scanner) {d : Char} (hascii : ∀ c ∈ digits, c.isDigit = true)
    (hd : isDecimalDigit d = true) (hother : d.isDigit = false) :
    (scan (s.enter .opened) (digits ++ [d])).mode = .plain ∧
      (scan (s.enter .opened) (digits ++ [d])).weight = s.weight := by
  have hdigit : ¬ d.isDigit = true := Bool.eq_false_iff.mp hother
  have hbar : d ≠ '|' := ne_of_isDecimalDigit hd (by decide)
  have hbrace : d ≠ '\x7d' := ne_of_isDecimalDigit hd (by decide)
  have hcolon : d ≠ ':' := ne_of_isDecimalDigit hd (by decide)
  have hname : ¬ isNameChar d = true := fun h =>
    hdigit (isDigit_of_isDecimalDigit hd (toNat_lt_of_isNameChar h))
  rw [scan_append]
  by_cases hne : digits = []
  · subst hne
    show ((s.enter .opened).step d).mode = _ ∧ ((s.enter .opened).step d).weight = _
    have hstep : (s.enter .opened).step d = s.enter .plain := by
      show (if d.isDigit then _ else if isNameChar d then _ else if d = ':' then _ else _) = _
      rw [if_neg hdigit, if_neg hname, if_neg hcolon]
      rfl
    rw [hstep]
    exact ⟨rfl, rfl⟩
  · rw [scan_numbered s hascii hne]
    show ((s.enter (.numbered _)).step d).mode = _ ∧ ((s.enter (.numbered _)).step d).weight = _
    have hstep : ∀ number, (s.enter (.numbered number)).step d
        = s.nest (.field number s.text.size) := by
      intro number
      show (if d.isDigit then _ else if d = '|' then _ else if d = '\x7d' then _ else _) = _
      rw [if_neg hdigit, if_neg hbar, if_neg hbrace]
      rfl
    rw [hstep]
    exact ⟨rfl, rfl⟩

/-- Behind a dollar sign alone it is, and so is the dollar sign if no number stands between. -/
theorem scan_dollar_other (s : Scanner) {d : Char} (hascii : ∀ c ∈ digits, c.isDigit = true)
    (hd : isDecimalDigit d = true) (hother : d.isDigit = false) :
    (scan (s.enter .dollar) (digits ++ [d])).mode = .plain ∧
      s.weight < (scan (s.enter .dollar) (digits ++ [d])).weight := by
  have hdigit : ¬ d.isDigit = true := Bool.eq_false_iff.mp hother
  have hbrace : d ≠ '\x7b' := ne_of_isDecimalDigit hd (by decide)
  rw [scan_append]
  by_cases hne : digits = []
  · subst hne
    show ((s.enter .dollar).step d).mode = _ ∧ _ < ((s.enter .dollar).step d).weight
    have hstep : (s.enter .dollar).step d = ((s.push '$').push d).enter .plain := by
      show (if d = '\x7b' then _ else if d.isDigit then _ else
        ((s.push '$').enter .dollar).stepPlain d) = _
      rw [if_neg hbrace, if_neg hdigit, stepPlain_enter, stepPlain_decimalDigit _ hd]
    rw [hstep]
    refine ⟨rfl, ?_⟩
    show s.weight < ((s.push '$').push d).weight
    rw [weight_push, weight_push, charWeight_decimalDigit hd]
    show s.weight < s.weight + 1 + 1
    omega
  · rw [scan_bare s hascii hne]
    show ((s.enter (.bare _)).step d).mode = _ ∧ _ < ((s.enter (.bare _)).step d).weight
    have hstep : ∀ number, (s.enter (.bare number)).step d
        = ((s.mark number s.text.size).push d).enter .plain := by
      intro number
      show (if d.isDigit then _ else ((s.mark number s.text.size).enter _).stepPlain d) = _
      rw [if_neg hdigit, stepPlain_enter, stepPlain_decimalDigit _ hd]
    rw [hstep]
    refine ⟨rfl, ?_⟩
    show s.weight < (s.push d).weight
    rw [weight_push, charWeight_decimalDigit hd]
    omega

/-- A dollar sign leads into a construct, into plain text or into choices. -/
theorem mode_step_dollar (s : Scanner) :
    (s.step '$').mode = .dollar ∨ (s.step '$').mode = .plain ∨
      ∃ choice, (s.step '$').mode = .choice choice := by
  obtain ⟨text, marks, frames, mode⟩ := s
  cases mode with
  | plain | dollar | bare number => exact .inl rfl
  | escape | opened | numbered number | named => exact .inr (.inl rfl)
  | choice choices | choiceEscape choices | choiceBar choices => exact .inr (.inr ⟨choices, rfl⟩)

/-- Behind a dollar sign, digits that are not all ASCII digits lose weight when they are braced. -/
theorem outweighs_dollar (s : Scanner) (hdigits : ∀ d ∈ digits, isDecimalDigit d = true)
    (hother : ¬ ∀ d ∈ digits, d.isDigit = true) :
    ∃ w < 0, Outweighs w (scan (s.enter .opened) (digits ++ ['\x7d']))
      (scan (s.enter .dollar) digits).closed := by
  have hsome : (digits.find? (!·.isDigit)).isSome = true := by
    rw [List.find?_isSome]
    simpa using hother
  obtain ⟨d, hfind⟩ := Option.isSome_iff_exists.mp hsome
  obtain ⟨hfound, ascii, more, rfl, hbefore⟩ := List.find?_eq_some_iff_append.mp hfind
  have hd : d.isDigit = false := by simpa using hfound
  have hascii : ∀ c ∈ ascii, c.isDigit = true := by simpa using hbefore
  have hsplit : ascii ++ d :: more = ascii ++ [d] ++ more := by simp
  have hdecimal : isDecimalDigit d = true := hdigits d (by simp)
  have hmore : ∀ c ∈ more, isDecimalDigit c = true := fun c hc => hdigits c (by simp [hc])
  -- up to that digit both readings differ, and behind it both are in plain text
  obtain ⟨hopened, hlost⟩ := scan_opened_other s hascii hdecimal hd
  obtain ⟨hdollar, hread⟩ := scan_dollar_other s hascii hdecimal hd
  refine ⟨s.weight - (scan (s.enter .dollar) (ascii ++ [d])).weight, Int.sub_neg_of_lt hread, ?_⟩
  rw [hsplit, List.append_assoc (ascii ++ [d]), scan_append _ (ascii ++ [d]),
    scan_append _ (ascii ++ [d])]
  refine outweighs_closing ⟨?_, ?_⟩ hopened hdollar hmore
  · rw [hopened, hdollar]
    exact .plain
  · rw [hlost, Int.sub_add_cancel]

/-- A placeholder that may not be braced loses weight when it is. -/
theorem outweighs_unbraceable (hmode : s.mode = .dollar ∨ s.mode = .plain ∨
      ∃ choice, s.mode = .choice choice)
    (hdigits : ∀ d ∈ digits, isDecimalDigit d = true) (hrest : startsWithDigit rest = false)
    (h : ¬ s.mode.Braceable (digits ++ rest)) :
    ∃ w < 0, Outweighs w (scan s ('\x7b' :: (digits ++ ['\x7d']))) (scan s digits).closed := by
  have hs : s = s.enter s.mode := rfl
  obtain hmode | hmode | ⟨choice, hmode⟩ := hmode
  · have hother : ¬ ∀ d ∈ digits, d.isDigit = true := by
      rw [hmode, Mode.Braceable, takeWhile_digits hdigits hrest] at h
      exact h
    rw [hs, hmode]
    exact outweighs_dollar s hdigits hother
  · exact ⟨-1, by decide, outweighs_plain hmode hdigits⟩
  · have hfirst : choice.first = true := by
      rw [hmode] at h
      exact eq_true_of_ne_false h
    rw [hs, hmode]
    exact ⟨-1, by decide, outweighs_firstChoice s hfirst hdigits⟩

/-- With or without braces, a placeholder leads into the middle of the same. -/
theorem outweighs_placeholder (s : Scanner) (hne : digits ≠ [])
    (hdigits : ∀ d ∈ digits, isDecimalDigit d = true) (hrest : startsWithDigit rest = false) :
    ∃ w ≤ 0,
      Outweighs w (scan (s.step '$') ('\x7b' :: (digits ++ ['\x7d'])))
        (scan (s.step '$') digits).closed ∧
      (w = 0 → (s.step '$').mode.Braceable (digits ++ rest)) := by
  by_cases h : (s.step '$').mode.Braceable (digits ++ rest)
  · refine ⟨0, Int.le_refl 0, ?_, fun _ => h⟩
    rw [scan_braced_placeholder hne hdigits hrest h]
    exact .refl _
  · obtain ⟨w, hw, hbraced⟩ := outweighs_unbraceable (mode_step_dollar s) hdigits hrest h
    exact ⟨w, Int.le_of_lt hw, hbraced, fun hzero => absurd hzero (Int.ne_of_lt hw)⟩

/-- Behind a braced text the scanner is in the middle of the same as behind the text itself, and
what it has read weighs no more.  It weighs as much only if the text is braceable. -/
theorem outweighs_normalize (t : Text) (s : Scanner) :
    ∃ w ≤ 0, Outweighs w (scan s (normalize t)).closed (scan s t).closed ∧
      (w = 0 → Braceable [] s t) := by
  induction t using placeholderInduction generalizing s with
  | nil => exact ⟨0, Int.le_refl 0, .refl _, fun _ => trivial⟩
  | char c rest hc ih =>
    obtain ⟨w, hw, houtweighs, hbraceable⟩ := ih (s.step c)
    rw [normalize_cons hc]
    refine ⟨w, hw, houtweighs, fun hzero => ⟨?_, hbraceable hzero⟩⟩
    intro hdollar hstarts
    rw [List.append_nil, hc hdollar] at hstarts
    cases hstarts
  | placeholder digits rest hne hdigits hrest ih =>
    obtain ⟨v, hv, hbraced, hplaceholder⟩ := outweighs_placeholder s hne hdigits hrest
    obtain ⟨w, hw, hnormal, hafter⟩ := ih (scan (s.step '$') digits).closed
    rw [scan_normalize_placeholder s hne hdigits hrest, scan_placeholder s hrest]
    refine ⟨v + w, by omega, (hbraced.scan (normalize rest)).closed.trans hnormal, ?_⟩
    -- neither part gains weight, so if nothing is lost in all, nothing is lost in either
    intro hzero
    rw [braceable_placeholder hne hdigits hrest]
    exact ⟨hplaceholder (by omega), hafter (by omega)⟩

-- ============================================================================
-- Reading a braced template
-- ============================================================================

/-- The end of the template ends a number. -/
theorem snippet_finish_closed (s : Scanner) : s.closed.finish.snippet = s.finish.snippet := by
  have hleave : ∀ (frames : List Frame) (s : Scanner) (mode : Mode),
      (frames.foldl leave (s.enter mode)).snippet = (frames.foldl leave s).snippet := by
    intro frames
    induction frames with
    | nil => exact fun _ _ => rfl
    | cons frame outer ih =>
      intro s mode
      have hframe : (s.enter mode).leave frame = (s.leave frame).enter mode := by
        cases frame <;> rfl
      rw [List.foldl_cons, List.foldl_cons, hframe, ih]
  obtain ⟨text, marks, frames, mode⟩ := s
  cases mode with
  | bare number => exact hleave frames _ .plain
  | _ => rfl

end Scanner

/-- Bracing the placeholders of a template leaves its meaning alone exactly if it is braceable. -/
theorem parse_normalize_iff (t : Text) :
    parse (normalize t) = parse t ↔ Scanner.Braceable [] .start t := by
  constructor
  · intro h
    obtain ⟨w, -, houtweighs, hbraceable⟩ := Scanner.outweighs_normalize t .start
    have htext : (scan .start (normalize t)).closed.finish.weight
        = (scan .start t).closed.finish.weight := by
      rw [parse, parse, ← Scanner.snippet_finish_closed,
        ← Scanner.snippet_finish_closed (scan _ t)] at h
      exact congrArg (fun snippet => weight snippet.text) h
    rw [Scanner.weight_finish, Scanner.weight_finish, houtweighs.weight_settle] at htext
    exact hbraceable (by omega)
  · intro h
    rw [parse, parse, ← Scanner.snippet_finish_closed, Scanner.closed_scan_normalize t .start h,
      Scanner.snippet_finish_closed]

end HeadlessEditor.Snippet
