/-
  HeadlessEditor.Proofs.Snippet.Normalization

  What bracing leaves of a template.  A template falls apart, in one way
  only, into bare placeholders, each with all the digits behind its dollar
  sign, and other characters (`Maximal`).  Bracing gives every placeholder a
  pair of braces and leaves all else (`Maximal.normalize_eq`).  No bare
  placeholder comes up where the pieces meet (`not_hasBare_normalize`), so
  that bracing again changes nothing.
-/

import HeadlessEditor.Proofs.Snippet.Placeholder

namespace HeadlessEditor.Snippet

open Text (isDecimalDigit)

variable {t a digits rest : Text} {c : Char}

-- ============================================================================
-- Bare placeholders
-- ============================================================================

/-- Whether a dollar sign has a decimal digit right behind it somewhere in a text. -/
def HasBare (t : Text) : Prop :=
  ∃ before digit rest, t = before ++ '$' :: digit :: rest ∧ isDecimalDigit digit = true

theorem not_hasBare_nil : ¬HasBare [] := by
  rintro ⟨before, digit, rest, h, -⟩
  exact absurd h.symm (List.append_ne_nil_of_right_ne_nil before (List.cons_ne_nil _ _))

theorem hasBare_cons :
    HasBare (c :: rest) ↔ (c = '$' ∧ startsWithDigit rest = true) ∨ HasBare rest := by
  constructor
  · rintro ⟨before, digit, after, h, hdigit⟩
    cases before with
    | nil =>
      obtain ⟨rfl, rfl⟩ := List.cons.inj h
      exact .inl ⟨rfl, hdigit⟩
    | cons d before =>
      obtain ⟨-, rfl⟩ := List.cons.inj h
      exact .inr ⟨before, digit, after, rfl, hdigit⟩
  · rintro (⟨rfl, hstarts⟩ | ⟨before, digit, after, rfl, hdigit⟩)
    · cases rest with
      | nil => cases hstarts
      | cons digit after => exact ⟨[], digit, after, rfl, hstarts⟩
    · exact ⟨c :: before, digit, after, rfl, hdigit⟩

theorem hasBare_append (h : '$' ∉ a) : HasBare (a ++ t) ↔ HasBare t := by
  induction a with
  | nil => exact Iff.rfl
  | cons c rest ih =>
    rw [List.mem_cons, not_or] at h
    rw [List.cons_append, hasBare_cons, ih h.2]
    exact or_iff_right fun hdollar => h.1 hdollar.1.symm

theorem startsWithDigit_normalize (t : Text) :
    startsWithDigit (normalize t) = startsWithDigit t := by
  induction t using placeholderInduction with
  | nil => rfl
  | char c rest h _ =>
    rw [normalize_cons h]
    rfl
  | placeholder digits rest hne hdigits hend _ =>
    rw [normalize_placeholder hne hdigits hend]
    rfl

theorem not_hasBare_normalize (t : Text) : ¬HasBare (normalize t) := by
  induction t using placeholderInduction with
  | nil => exact not_hasBare_nil
  | char c rest h ih =>
    rw [normalize_cons h, hasBare_cons, startsWithDigit_normalize]
    rintro (⟨hc, hstarts⟩ | hrest)
    · rw [h hc] at hstarts
      cases hstarts
    · exact ih hrest
  | placeholder digits rest hne hdigits hend ih =>
    have hbraced : '$' ∉ '\x7b' :: (digits ++ ['\x7d']) := by
      simp [dollar_not_mem_of_digits hdigits]
    have hpieces : normalize ('$' :: (digits ++ rest))
        = '$' :: ('\x7b' :: (digits ++ ['\x7d']) ++ normalize rest) := by
      rw [normalize_placeholder hne hdigits hend, List.cons_append, List.append_assoc,
        List.singleton_append]
    rw [hpieces, hasBare_cons, hasBare_append hbraced]
    rintro (⟨-, hstarts⟩ | hrest)
    · -- what follows the dollar sign is the opening brace
      have hbrace : isDecimalDigit '\x7b' = false := by decide
      rw [List.cons_append, startsWithDigit_cons, hbrace] at hstarts
      cases hstarts
    · exact ih hrest

theorem normalize_of_not_hasBare (h : ¬HasBare t) : normalize t = t := by
  induction t with
  | nil => rfl
  | cons c rest ih =>
    rw [hasBare_cons, not_or, not_and] at h
    rw [normalize_cons fun hc => Bool.eq_false_iff.mpr (h.1 hc), ih h.2]

theorem normalize_eq_self_iff : normalize t = t ↔ ¬HasBare t := by
  constructor
  · intro h
    rw [← h]
    exact not_hasBare_normalize t
  · exact normalize_of_not_hasBare

-- ============================================================================
-- Placeholders and other characters
-- ============================================================================

/-- A piece of a template: a bare placeholder by its digits, or another character. -/
inductive Part where
  | char (c : Char)
  | placeholder (digits : Text)

namespace Part

def bare : Part → Text
  | char c => [c]
  | placeholder digits => '$' :: digits

/-- A piece with a pair of braces if it is a placeholder. -/
def braced : Part → Text
  | char c => [c]
  | placeholder digits => '$' :: '\x7b' :: (digits ++ ['\x7d'])

end Part

/-- Pieces that take every dollar sign before a digit for a placeholder, with all its digits. -/
inductive Maximal : List Part → Prop
  | nil : Maximal []
  | char {c : Char} {parts : List Part}
      (h : c = '$' → startsWithDigit (parts.flatMap Part.bare) = false) (hparts : Maximal parts) :
      Maximal (.char c :: parts)
  | placeholder {digits : Text} {parts : List Part} (hne : digits ≠ [])
      (hdigits : ∀ d ∈ digits, isDecimalDigit d = true)
      (hend : startsWithDigit (parts.flatMap Part.bare) = false) (hparts : Maximal parts) :
      Maximal (.placeholder digits :: parts)

variable {parts others : List Part}

theorem exists_maximal (t : Text) : ∃ parts, Maximal parts ∧ parts.flatMap Part.bare = t := by
  induction t using placeholderInduction with
  | nil => exact ⟨[], .nil, rfl⟩
  | char c rest h ih =>
    obtain ⟨parts, hparts, rfl⟩ := ih
    exact ⟨.char c :: parts, .char h hparts, rfl⟩
  | placeholder digits rest hne hdigits hend ih =>
    obtain ⟨parts, hparts, rfl⟩ := ih
    exact ⟨.placeholder digits :: parts, .placeholder hne hdigits hend hparts, rfl⟩

/-- A dollar sign on its own is none that digits follow. -/
theorem bare_char_ne_bare_placeholder
    (hc : c = '$' → startsWithDigit (parts.flatMap Part.bare) = false) (hne : digits ≠ [])
    (hdigits : ∀ d ∈ digits, isDecimalDigit d = true) :
    (Part.char c :: parts).flatMap Part.bare
      ≠ (Part.placeholder digits :: others).flatMap Part.bare := by
  intro h
  obtain ⟨rfl, hrest⟩ : c = '$' ∧ parts.flatMap Part.bare = digits ++ others.flatMap Part.bare :=
    List.cons.inj h
  have hstarts := hc rfl
  rw [hrest, startsWithDigit_append hne hdigits] at hstarts
  cases hstarts

/-- A text is that of one list of pieces only. -/
theorem Maximal.eq_of_bare_eq (h : Maximal parts) (hothers : Maximal others)
    (heq : parts.flatMap Part.bare = others.flatMap Part.bare) : parts = others := by
  induction h generalizing others with
  | nil =>
    cases hothers with
    | nil => rfl
    | char => cases heq
    | placeholder => cases heq
  | char hc hparts ih =>
    cases hothers with
    | nil => cases heq
    | char hc' hothers =>
      obtain ⟨rfl, hrest⟩ := List.cons.inj heq
      rw [ih hothers hrest]
    | placeholder hne hdigits hend hothers =>
      exact absurd heq (bare_char_ne_bare_placeholder hc hne hdigits)
  | placeholder hne hdigits hend hparts ih =>
    cases hothers with
    | nil => cases heq
    | char hc hothers => exact absurd heq.symm (bare_char_ne_bare_placeholder hc hne hdigits)
    | placeholder hne' hdigits' hend' hothers =>
      obtain ⟨rfl, hrest⟩ := Text.append_inj_of_stops hdigits hdigits'
        (stops_of_startsWithDigit hend) (stops_of_startsWithDigit hend') (List.cons.inj heq).2
      rw [ih hothers hrest]

theorem Maximal.normalize_eq (h : Maximal parts) :
    normalize (parts.flatMap Part.bare) = parts.flatMap Part.braced := by
  induction h with
  | nil => rfl
  | char hc hparts ih =>
    rw [List.flatMap_cons, List.flatMap_cons, ← ih]
    exact normalize_cons hc
  | @placeholder digits parts hne hdigits hend hparts ih =>
    rw [List.flatMap_cons, List.flatMap_cons, ← ih, Part.bare, List.cons_append,
      normalize_placeholder hne hdigits hend, Part.braced]
    simp

/-- Bracing leaves no bare placeholder, changes nothing where there is none, least of all a text
that is braced already, and gives each placeholder, with all its digits, a pair of braces: without
these pairs the text is as before. -/
theorem normalize_eq_braced (t : Text) :
    ¬HasBare (normalize t) ∧ normalize (normalize t) = normalize t ∧
      (normalize t = t ↔ ¬HasBare t) ∧
      ∃ parts, parts.flatMap Part.braced = normalize t ∧
        ∀ others, Maximal others ∧ others.flatMap Part.bare = t ↔ others = parts := by
  refine ⟨not_hasBare_normalize t, normalize_of_not_hasBare (not_hasBare_normalize t),
    normalize_eq_self_iff, ?_⟩
  obtain ⟨parts, hparts, rfl⟩ := exists_maximal t
  refine ⟨parts, hparts.normalize_eq.symm, fun others => ?_⟩
  constructor
  · rintro ⟨hothers, heq⟩
    exact hothers.eq_of_bare_eq hparts heq
  · rintro rfl
    exact ⟨hparts, rfl⟩

end HeadlessEditor.Snippet
