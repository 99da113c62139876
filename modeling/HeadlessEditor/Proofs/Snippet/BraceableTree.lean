/-
  HeadlessEditor.Proofs.Snippet.BraceableTree

  Which templates bracing leaves alone, told by their trees.  In the writing
  of a tree a dollar sign comes to stand before a decimal digit in three ways:
  as a literal with a literal digit next to it, among choices, and with a
  tab stop without braces.  The last is as it should be, unless a literal
  digit follows that is no ASCII digit: it is not escaped, as it does not
  continue the number, but bracing takes it in.  Choices but the first do not
  matter.

  From there `braceable_writeAll` is an induction over the tree:
  the writing is braceable if no two pieces and no first choice bring about
  such a place.
-/

import HeadlessEditor.Proofs.Snippet.Bracing

namespace HeadlessEditor.Snippet

open Text (isDecimalDigit)

/-- Whether a text has a dollar sign before a decimal digit in it. -/
def hasPlaceholder : Text → Bool
  | [] => false
  | c :: rest => (c == '$' && startsWithDigit rest) || hasPlaceholder rest

namespace Template

/-- Whether the first piece makes no placeholder of a literal digit next to it. -/
def isApart : Template → List Template → Bool
  | .literal c, .literal d :: _ => c != '$' || !isDecimalDigit d
  | .bare _, .literal d :: _ => d.isDigit || !isDecimalDigit d
  | _, _ => true

/-- Whether a digit next to the piece would make a placeholder. -/
def endsInDollar : Template → Bool
  | .literal c => c == '$'
  | .bare _ => true
  | _ => false

mutual

/-- Whether the placeholders that come about within a piece may be braced. -/
def isBraceable : Template → Bool
  | .literal _ | .bare _ | .braced _ | .variable _ => true
  | .field _ default | .variableOr _ default => areBraceable default
  | .choice _ first _ => !hasPlaceholder first

def areBraceable : List Template → Bool
  | [] => true
  | t :: rest => isBraceable t && isApart t rest && areBraceable rest

end

end Template

namespace Scanner

variable {s : Scanner} {after a : Text} {choice : Choice}

-- ============================================================================
-- Choices
-- ============================================================================

theorem isDecimalDigit_escape : isDecimalDigit '\\' = false := by decide

theorem isDecimalDigit_comma : isDecimalDigit ',' = false := by decide

theorem isDecimalDigit_closing : isDecimalDigit '\x7d' = false := by decide

theorem startsWithDigit_writeChoice (hafter : startsWithDigit after = false) (w : Text) :
    startsWithDigit (w.flatMap Template.writeChoiceChar ++ after) = startsWithDigit w := by
  cases w with
  | nil => exact hafter
  | cons c rest =>
    rw [List.flatMap_cons, List.append_assoc, Template.writeChoiceChar, startsWithDigit_cons]
    by_cases hc : c = ',' ∨ c = '|' ∨ c = '\\'
    · have hdigit : isDecimalDigit c = false := by
        obtain rfl | rfl | rfl := hc <;> decide
      rw [if_pos hc, hdigit]
      exact isDecimalDigit_escape
    · rw [if_neg hc]
      rfl

theorem startsWithDigit_otherChoices (hafter : startsWithDigit after = false)
    (others : List Text) :
    startsWithDigit
        (others.flatMap (fun other => ',' :: other.flatMap Template.writeChoiceChar) ++ after)
      = false := by
  cases others with
  | nil => exact hafter
  | cons _ _ => exact isDecimalDigit_comma

/-- A single character among choices. -/
theorem braceable_writeChoiceChar (s : Scanner) (choice : Choice) (c : Char) :
    Braceable after (s.enter (.choice choice)) (Template.writeChoiceChar c) ↔
      (choice.first = true → (c == '$' && startsWithDigit after) = false) := by
  by_cases hdollar : c = '$'
  · subst hdollar
    have hwrite : Template.writeChoiceChar '$' = ['$'] := by decide
    rw [hwrite, beq_self_eq_true, Bool.true_and]
    show ('$' = '$' → startsWithDigit after = true → choice.first = false) ∧ True ↔ _
    cases choice.first <;> cases startsWithDigit after <;> simp
  · have hmem : '$' ∉ Template.writeChoiceChar c := by
      rw [Template.writeChoiceChar]
      split <;> simp [Ne.symm hdollar]
    rw [beq_eq_false_iff_ne.mpr hdollar, Bool.false_and]
    exact ⟨fun _ _ => rfl, fun _ => braceable_of_not_mem hmem⟩

/-- A choice may be braced if it is dropped or has no placeholder in it. -/
theorem braceable_choice (hafter : startsWithDigit after = false) (s : Scanner) (choice : Choice)
    (w : Text) :
    Braceable after (s.enter (.choice choice)) (w.flatMap Template.writeChoiceChar) ↔
      (choice.first = true → hasPlaceholder w = false) := by
  induction w generalizing s with
  | nil => exact ⟨fun _ _ => rfl, fun _ => trivial⟩
  | cons c rest ih =>
    rw [List.flatMap_cons, braceable_append, scan_writeChoiceChar, ih, braceable_writeChoiceChar,
      startsWithDigit_writeChoice hafter, hasPlaceholder, Bool.or_eq_false_iff, forall_and]

/-- Choices that are dropped may be braced. -/
theorem braceable_otherChoices (hafter : startsWithDigit after = false) (s : Scanner)
    (choice : Choice) (others : List Text) :
    Braceable after (s.enter (.choice choice))
      (others.flatMap fun other => ',' :: other.flatMap Template.writeChoiceChar) := by
  induction others generalizing choice with
  | nil => exact trivial
  | cons other rest ih =>
    have hstep : (s.enter (.choice choice)).step ','
        = s.enter (.choice { choice with first := false }) :=
      rfl
    rw [List.flatMap_cons, List.cons_append, braceable_cons (by decide), hstep, braceable_append,
      scan_laterChoice s rfl, braceable_choice (startsWithDigit_otherChoices hafter rest)]
    exact ⟨fun h => absurd h Bool.false_ne_true, ih _⟩

/-- The choices of a tab stop. -/
theorem braceable_writeChoices (hafter : startsWithDigit after = false) (s : Scanner)
    (number start : Nat) (first : Text) (others : List Text) :
    Braceable after (s.enter (.choice ⟨number, start, true⟩))
        (Template.writeChoices first others) ↔
      hasPlaceholder first = false := by
  rw [Template.writeChoices, braceable_append,
    braceable_choice (startsWithDigit_otherChoices hafter others), scan_firstChoice s rfl]
  exact ⟨fun h => h.1 rfl, fun h => ⟨fun _ => h, braceable_otherChoices hafter _ _ others⟩⟩

-- ============================================================================
-- Pieces
-- ============================================================================

theorem braceable_literal (hplain : s.mode = .plain) (afterBare : Bool) (c : Char) :
    Braceable after s (Template.writeLiteral afterBare c) ↔
      ((c == '$') = true → startsWithDigit after = false) := by
  rw [beq_iff_eq]
  by_cases hdollar : c = '$'
  · subst hdollar
    have hwrite : Template.writeLiteral afterBare '$' = ['\\', '$'] := if_pos (.inl rfl)
    have hmode : ((s.step '\\').step '$').mode = .plain := by
      rw [step_plain hplain]
      rfl
    rw [hwrite, braceable_cons (by decide)]
    show ('$' = '$' → startsWithDigit after = true →
      ((s.step '\\').step '$').mode.Braceable after) ∧ True ↔ _
    rw [hmode]
    constructor
    · rintro ⟨h, -⟩ -
      exact Bool.eq_false_iff.mpr (h rfl)
    · intro h
      refine ⟨fun _ hstarts => ?_, trivial⟩
      rw [h rfl] at hstarts
      cases hstarts
  · have hmem : '$' ∉ Template.writeLiteral afterBare c := by
      rw [Template.writeLiteral]
      split <;> simp [Ne.symm hdollar]
    exact ⟨fun _ h => absurd h hdollar, fun _ => braceable_of_not_mem hmem⟩

theorem isDecimalDigit_of_mem_digits {number : Nat} :
    ∀ d ∈ Template.digits number, isDecimalDigit d = true := by
  intro d hd
  exact Text.isDecimalDigit_of_isDigit (isDigit_of_mem_digits d hd)

/-- A tab stop without braces may get braces if no digit follows, ASCII digits left aside. -/
theorem braceable_bare (hplain : s.mode = .plain) (number : Nat)
    (hdigit : digitFirst after = false) :
    Braceable after s ('$' :: Template.digits number) ↔ startsWithDigit after = false := by
  have hmode : (s.step '$').mode = .dollar := by
    rw [step_plain hplain]
    rfl
  have hdigits : ∀ d ∈ Template.digits number, isDecimalDigit d = true :=
    isDecimalDigit_of_mem_digits
  have hunfold : Braceable after s ('$' :: Template.digits number) ↔
      ∀ d ∈ (Template.digits number ++ after).takeWhile isDecimalDigit, d.isDigit = true := by
    rw [Braceable, hmode]
    constructor
    · rintro ⟨h, -⟩
      exact h rfl (startsWithDigit_append digits_ne_nil hdigits)
    · intro h
      exact ⟨fun _ _ => h, braceable_of_not_mem (dollar_not_mem_of_digits hdigits)⟩
  rw [hunfold]
  constructor
  · intro h
    cases after with
    | nil => rfl
    | cons c rest =>
      rw [startsWithDigit_cons, Bool.eq_false_iff]
      intro hc
      have hmem : c ∈ (Template.digits number ++ c :: rest).takeWhile isDecimalDigit := by
        rw [List.takeWhile_append_of_pos hdigits, List.takeWhile_cons_of_pos hc]
        exact List.mem_append_right _ (List.mem_cons_self ..)
      have hascii : c.isDigit = false := hdigit
      rw [h c hmem] at hascii
      cases hascii
  · intro h
    rw [takeWhile_digits hdigits h]
    exact isDigit_of_mem_digits

/-- Behind a dollar sign and an opening brace. -/
theorem braceable_opened (hplain : s.mode = .plain) :
    Braceable after s ('$' :: '\x7b' :: a) ↔ Braceable after (s.enter .opened) a := by
  have hbrace : isDecimalDigit '\x7b' = false := by decide
  have hstep : (s.step '$').step '\x7b' = s.enter .opened := by
    rw [step_plain hplain]
    rfl
  rw [Braceable, braceable_cons (by decide), hstep]
  constructor
  · rintro ⟨-, h⟩
    exact h
  · intro h
    refine ⟨fun _ hstarts => ?_, h⟩
    rw [List.cons_append, startsWithDigit_cons, hbrace] at hstarts
    cases hstarts

/-- Behind the number of a tab stop with braces. -/
theorem braceable_braced (hplain : s.mode = .plain) {number : Nat} (hnumber : number ≤ maxNumber) :
    Braceable after s ('$' :: '\x7b' :: Template.digits number ++ a) ↔
      Braceable after (s.enter (.numbered number)) a := by
  have hmem : '$' ∉ Template.digits number :=
    dollar_not_mem_of_digits isDecimalDigit_of_mem_digits
  show Braceable after s ('$' :: '\x7b' :: (Template.digits number ++ a)) ↔ _
  rw [braceable_opened hplain, braceable_append,
    scan_numbered s isDigit_of_mem_digits digits_ne_nil, foldl_appendDigit_digits hnumber]
  exact ⟨fun h => h.2, fun h => ⟨braceable_of_not_mem hmem, h⟩⟩

/-- Behind the name of a variable. -/
theorem braceable_variable (hplain : s.mode = .plain) {name : Text}
    (hname : Template.isName name = true) :
    Braceable after s ('$' :: '\x7b' :: name ++ a) ↔ Braceable after (s.enter .named) a := by
  have hmem : '$' ∉ name := fun h => absurd (isNameChar_of_isName hname _ h) (by decide)
  show Braceable after s ('$' :: '\x7b' :: (name ++ a)) ↔ _
  rw [braceable_opened hplain, braceable_append, scan_name s hname]
  exact ⟨fun h => h.2, fun h => ⟨braceable_of_not_mem hmem, h⟩⟩

/-- A default, between a colon and a closing brace. -/
theorem braceable_default :
    Braceable after s (':' :: a ++ ['\x7d']) ↔ Braceable ('\x7d' :: after) (s.step ':') a := by
  have hmem : '$' ∉ ['\x7d'] := by decide
  rw [List.cons_append, braceable_cons (by decide), braceable_append]
  exact ⟨fun h => h.1, fun h => ⟨h, braceable_of_not_mem hmem⟩⟩

end Scanner

open Scanner Template

/-- A digit is escaped behind a tab stop without braces, if it is an ASCII digit. -/
theorem startsWithDigit_writeLiteral (afterBare : Bool) (c : Char) (after : Text) :
    startsWithDigit (writeLiteral afterBare c ++ after)
      = (isDecimalDigit c && !(afterBare && c.isDigit)) := by
  rw [writeLiteral]
  split
  · next hc =>
    have hliteral : (isDecimalDigit c && !(afterBare && c.isDigit)) = false := by
      obtain rfl | rfl | rfl | ⟨rfl, hdigit⟩ := hc
      · rw [isDecimalDigit_dollar, Bool.false_and]
      · rw [isDecimalDigit_closing, Bool.false_and]
      · rw [isDecimalDigit_escape, Bool.false_and]
      · rw [hdigit, Bool.and_self, Bool.not_true, Bool.and_false]
    rw [hliteral]
    exact isDecimalDigit_escape
  · next hc =>
    have hliteral : (afterBare && c.isDigit) = false := by
      rw [Bool.eq_false_iff, ne_eq, Bool.and_eq_true]
      exact fun h => hc (.inr (.inr (.inr h)))
    rw [hliteral, Bool.not_false, Bool.and_true]
    rfl

/-- Pieces are apart unless the first ends in a dollar sign and the writing of what follows begins
with a digit. -/
theorem isApart_iff {after : Text} (hafter : startsWithDigit after = false) (t : Template)
    (rest : List Template) :
    isApart t rest = true ↔
      (endsInDollar t = true → startsWithDigit (writeAll (isBare t) rest ++ after) = false) := by
  cases rest with
  | nil =>
    refine ⟨fun _ _ => hafter, fun _ => ?_⟩
    cases t <;> rfl
  | cons next more =>
    cases next with
    | literal d =>
      rw [writeAll, write, List.append_assoc, startsWithDigit_writeLiteral]
      cases t with
      | literal c =>
        show (c != '$' || !isDecimalDigit d) = true ↔
          ((c == '$') = true → (isDecimalDigit d && !(false && d.isDigit)) = false)
        cases h : c == '$' <;> simp [bne, h]
      | bare number =>
        show (d.isDigit || !isDecimalDigit d) = true ↔
          (true = true → (isDecimalDigit d && !(true && d.isDigit)) = false)
        cases d.isDigit <;> simp
      | _ => exact ⟨fun _ => nofun, fun _ => rfl⟩
    | _ =>
      refine ⟨fun _ _ => isDecimalDigit_dollar, fun _ => ?_⟩
      cases t <;> rfl

theorem digitFirst_append {a after : Text} (ha : digitFirst a = false)
    (hafter : digitFirst after = false) : digitFirst (a ++ after) = false := by
  cases a with
  | nil => exact hafter
  | cons c rest => exact ha

mutual

/-- The writing of a piece is braceable if the piece is and no digit makes a placeholder of its
end. -/
theorem braceable_write (t : Template) (hvalid : isValid t = true) (afterBare : Bool)
    {s : Scanner} {after : Text} (hplain : s.mode = .plain)
    (hdigit : isBare t = true → digitFirst after = false) :
    Braceable after s (write afterBare t) ↔
      isBraceable t = true ∧ (endsInDollar t = true → startsWithDigit after = false) := by
  have hclosing : startsWithDigit ('\x7d' :: after) = false := isDecimalDigit_closing
  match t with
  | .literal c =>
    rw [write, braceable_literal hplain]
    exact ⟨fun h => ⟨rfl, h⟩, fun h => h.2⟩
  | .bare number =>
    rw [write, braceable_bare hplain number (hdigit rfl)]
    exact ⟨fun h => ⟨rfl, fun _ => h⟩, fun h => h.2 rfl⟩
  | .braced number =>
    have hnumber : number ≤ maxNumber := of_decide_eq_true hvalid
    have hmem : '$' ∉ ['\x7d'] := by decide
    rw [write, braceable_braced hplain hnumber]
    exact ⟨fun _ => ⟨rfl, nofun⟩, fun _ => braceable_of_not_mem hmem⟩
  | .field number default =>
    rw [isValid, Bool.and_eq_true, decide_eq_true_eq] at hvalid
    have hnest : ((s.enter (.numbered number)).step ':').mode = .plain := rfl
    have hdefault := braceable_writeAll default hvalid.2 false hnest hclosing
    rw [write, List.append_assoc, braceable_braced hplain hvalid.1, braceable_default, hdefault]
    exact ⟨fun h => ⟨h, nofun⟩, fun h => h.1⟩
  | .choice number first others =>
    have hnumber : number ≤ maxNumber := of_decide_eq_true hvalid
    have hbar : startsWithDigit ('|' :: '\x7d' :: after) = false := by
      rw [startsWithDigit_cons]
      decide
    have hmem : '$' ∉ ['|', '\x7d'] := by decide
    have hchoices := braceable_writeChoices hbar s number s.text.size first others
    rw [write, List.append_assoc, braceable_braced hplain hnumber, List.cons_append,
      braceable_cons (by decide), braceable_append]
    constructor
    · rintro ⟨h, -⟩
      exact ⟨(Bool.not_eq_true' _).mpr (hchoices.mp h), nofun⟩
    · rintro ⟨h, -⟩
      exact ⟨hchoices.mpr ((Bool.not_eq_true' _).mp h), braceable_of_not_mem hmem⟩
  | .variable name =>
    have hmem : '$' ∉ ['\x7d'] := by decide
    rw [write, braceable_variable hplain hvalid]
    exact ⟨fun _ => ⟨rfl, nofun⟩, fun _ => braceable_of_not_mem hmem⟩
  | .variableOr name default =>
    rw [isValid, Bool.and_eq_true] at hvalid
    have hnest : ((s.enter .named).step ':').mode = .plain := rfl
    have hdefault := braceable_writeAll default hvalid.2 false hnest hclosing
    rw [write, List.append_assoc, braceable_variable hplain hvalid.1, braceable_default, hdefault]
    exact ⟨fun h => ⟨h, nofun⟩, fun h => h.1⟩

/-- The writing of pieces is braceable if the pieces are and none makes a placeholder of the one
before it. -/
theorem braceable_writeAll (ts : List Template) (hvalid : areValid ts = true) (afterBare : Bool)
    {s : Scanner} {after : Text} (hplain : s.mode = .plain)
    (hafter : startsWithDigit after = false) :
    Braceable after s (writeAll afterBare ts) ↔ areBraceable ts = true := by
  match ts with
  | [] => exact ⟨fun _ => rfl, fun _ => trivial⟩
  | t :: rest =>
    rw [areValid, Bool.and_eq_true] at hvalid
    obtain ⟨hfirst, hended⟩ := took_write t hvalid.1 afterBare hplain
    have hdigit : isBare t = true → digitFirst (writeAll (isBare t) rest ++ after) = false := by
      intro hbare
      rw [hbare]
      exact digitFirst_append (digitFirst_writeAll rest) (digitFirst_of_startsWithDigit hafter)
    have hrest : Braceable after (scan s (write afterBare t)) (writeAll (isBare t) rest) ↔
        areBraceable rest = true := by
      rw [← braceable_writeAll rest hvalid.2 (isBare t) hfirst.mode_eq hafter]
      cases hbare : isBare t with
      | false => rw [closed_of_plain (hended hbare)]
      | true => rw [braceable_closed (digitFirst_writeAll rest)]
    rw [writeAll, braceable_append, braceable_write t hvalid.1 afterBare hplain hdigit, hrest,
      ← isApart_iff hafter, areBraceable, Bool.and_eq_true, Bool.and_eq_true]

end

/-- Bracing the placeholders of a text leaves its meaning alone exactly if it is braceable.  The
writing of a tree is so exactly if the tree is, and then it is still read as what the tree stands
for. -/
theorem parse_normalize_iff_braceable (t : Text) :
    (parse (normalize t) = parse t ↔ Scanner.Braceable [] .start t) ∧
      ∀ ts : List Template, areValid ts = true → writeAll false ts = t →
        (parse (normalize t) = parse t ↔ areBraceable ts = true) ∧
        (areBraceable ts = true →
          (parse (normalize t)).text = expandAll ts ∧
            TabStop.Groups (marksOfAll 0 ts) (parse (normalize t)).stops) := by
  refine ⟨parse_normalize_iff t, ?_⟩
  rintro ts hvalid rfl
  have hplain : start.mode = .plain := rfl
  have hiff : parse (normalize (writeAll false ts)) = parse (writeAll false ts) ↔
      areBraceable ts = true := by
    rw [parse_normalize_iff]
    exact braceable_writeAll ts hvalid false hplain rfl
  refine ⟨hiff, fun hbraceable => ?_⟩
  rw [hiff.mpr hbraceable]
  exact parse_of_took (took_writeAll ts hvalid false hplain)

/-- Tab stops without braces, one of them in a default, and a placeholder in a choice that is
dropped. -/
def braceableSample : List Template :=
  [.bare 1, .literal '3', .field 2 [.literal '$', .bare 0], .choice 1 ['a'] [['$', '5']]]

theorem parse_normalize_braceableSample :
    areValid braceableSample = true ∧ areBraceable braceableSample = true ∧
      parse (normalize (writeAll false braceableSample)) = parse (writeAll false braceableSample) ∧
      (parse (normalize (writeAll false braceableSample))).text = ['3', '$', 'a'] := by
  have hvalid : areValid braceableSample = true := by decide
  have hbraceable : areBraceable braceableSample = true := by decide
  obtain ⟨hiff, hmeaning⟩ :=
    (parse_normalize_iff_braceable (writeAll false braceableSample)).2 braceableSample hvalid rfl
  exact ⟨hvalid, hbraceable, hiff.mpr hbraceable, (hmeaning hbraceable).1⟩

/-- An escaped dollar sign before a digit is no tab stop, but it gets braces, and these come to be
literal. -/
theorem parse_normalize_escapedDollar :
    areValid [.literal '$', .literal '9'] = true ∧
      writeAll false [.literal '$', .literal '9'] = ['\\', '$', '9'] ∧
      (parse ['\\', '$', '9']).text = ['$', '9'] ∧
      (parse (normalize ['\\', '$', '9'])).text = ['$', '\x7b', '9', '\x7d'] := by
  decide

end HeadlessEditor.Snippet
