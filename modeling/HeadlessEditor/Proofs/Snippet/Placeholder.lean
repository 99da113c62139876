/-
  HeadlessEditor.Proofs.Snippet.Placeholder

  Bracing placeholders, one placeholder at a time.  `normalize` works through
  a text a character at a time and keeps in mind whether it is among digits;
  here a placeholder is its dollar sign and all the digits behind it
  (`normalize_placeholder`), and every text is made up of placeholders and
  other characters (`placeholderInduction`).
-/

import HeadlessEditor.Snippet.Placeholder
import HeadlessEditor.Snippet.Scanner

namespace HeadlessEditor.Snippet

open Text (isDecimalDigit)

variable {c : Char} {digits rest : Text}

theorem startsWithDigit_cons (c : Char) (rest : Text) :
    startsWithDigit (c :: rest) = isDecimalDigit c :=
  rfl

theorem isDecimalDigit_dollar : isDecimalDigit '$' = false := by decide

/-- The ASCII characters among the decimal digits are the ten ASCII digits. -/
theorem isDigit_of_isDecimalDigit (h : isDecimalDigit c = true) (hascii : c.toNat < 128) :
    c.isDigit = true := by
  have hfirst : ∀ first ∈ Text.digitZeros, first = 48 ∨ 128 ≤ first := by decide
  simp only [isDecimalDigit, List.any_eq_true, Bool.and_eq_true, decide_eq_true_eq] at h
  obtain ⟨first, hmem, hle, hlt⟩ := h
  obtain rfl : first = 48 := by
    have := hfirst first hmem
    omega
  have hlower : 48 ≤ c.val.toNat := hle
  have hupper : c.val.toNat ≤ 57 := Nat.le_of_lt_succ hlt
  simp only [Char.isDigit, Bool.and_eq_true, decide_eq_true_eq]
  exact ⟨hlower, hupper⟩

theorem toNat_lt_of_isNameChar (h : isNameChar c = true) : c.toNat < 128 := by
  simp only [isNameChar, Char.isAlphanum, isAlpha_iff, Char.isDigit, Bool.or_eq_true,
    Bool.and_eq_true, beq_iff_eq, decide_eq_true_eq] at h
  have hle : ∀ bound : UInt32, bound.toNat < 128 → c.val ≤ bound → c.toNat < 128 :=
    fun bound hbound h => Nat.lt_of_le_of_lt (UInt32.le_iff_toNat_le.mp h) hbound
  obtain rfl | ((⟨-, h⟩ | ⟨-, h⟩) | ⟨-, h⟩) := h
  · decide
  · exact hle _ (by decide) h
  · exact hle _ (by decide) h
  · exact hle _ (by decide) h

theorem startsWithDigit_append (hne : digits ≠ [])
    (hdigits : ∀ d ∈ digits, isDecimalDigit d = true) :
    startsWithDigit (digits ++ rest) = true := by
  cases digits with
  | nil => exact absurd rfl hne
  | cons d more => exact hdigits d (List.mem_cons_self ..)

theorem dollar_not_mem_of_digits (h : ∀ d ∈ digits, isDecimalDigit d = true) : '$' ∉ digits := by
  intro hmem
  have := h _ hmem
  rw [isDecimalDigit_dollar] at this
  cases this

/-- Where no digit follows, the digits end. -/
theorem stops_of_startsWithDigit (h : startsWithDigit rest = false) :
    Text.Stops isDecimalDigit rest := by
  cases rest with
  | nil => exact Text.stops_nil _
  | cons c rest => exact Text.stops_cons h rest

/-- A character that begins no placeholder is left alone. -/
theorem normalize_cons (h : c = '$' → startsWithDigit rest = false) :
    normalize (c :: rest) = c :: normalize rest := by
  have hno : ¬ (c == '$' && startsWithDigit rest) = true := by
    intro hplaceholder
    rw [Bool.and_eq_true, beq_iff_eq] at hplaceholder
    rw [h hplaceholder.1] at hplaceholder
    exact Bool.false_ne_true hplaceholder.2
  rw [normalize, braceFrom, Bool.false_and, if_neg Bool.false_ne_true, if_neg hno]
  rfl

/-- Where the digits of a placeholder end, it is closed, and all goes on as without it. -/
theorem braceFrom_true (hrest : startsWithDigit rest = false) :
    braceFrom true rest = '\x7d' :: normalize rest := by
  cases rest with
  | nil => rfl
  | cons c rest =>
    rw [startsWithDigit_cons] at hrest
    rw [normalize, braceFrom, braceFrom, hrest]
    by_cases hplaceholder : (c == '$' && startsWithDigit rest) = true
    · rw [if_pos hplaceholder, if_pos hplaceholder]
      rfl
    · rw [if_neg hplaceholder, if_neg hplaceholder]
      rfl

theorem braceFrom_true_append (hdigits : ∀ d ∈ digits, isDecimalDigit d = true)
    (hrest : startsWithDigit rest = false) :
    braceFrom true (digits ++ rest) = digits ++ '\x7d' :: normalize rest := by
  induction digits with
  | nil => exact braceFrom_true hrest
  | cons d more ih =>
    rw [List.forall_mem_cons] at hdigits
    rw [List.cons_append, braceFrom, Bool.true_and, if_pos hdigits.1, ih hdigits.2,
      List.cons_append]

/-- A placeholder is braced with all its digits. -/
theorem normalize_placeholder (hne : digits ≠ []) (hdigits : ∀ d ∈ digits, isDecimalDigit d = true)
    (hrest : startsWithDigit rest = false) :
    normalize ('$' :: (digits ++ rest))
      = '$' :: '\x7b' :: (digits ++ '\x7d' :: normalize rest) := by
  have hplaceholder : ('$' == '$' && startsWithDigit (digits ++ rest)) = true := by
    rw [startsWithDigit_append hne hdigits, beq_self_eq_true, Bool.true_and]
  rw [normalize, braceFrom, Bool.false_and, if_neg Bool.false_ne_true, if_pos hplaceholder,
    braceFrom_true_append hdigits hrest]
  rfl

theorem startsWithDigit_dropWhile (t : Text) :
    startsWithDigit (t.dropWhile isDecimalDigit) = false := by
  induction t with
  | nil => rfl
  | cons c rest ih =>
    rw [List.dropWhile_cons]
    split
    · exact ih
    · next hc => exact Bool.eq_false_iff.mpr hc

/-- A text is worked through by its placeholders and the characters between them. -/
theorem placeholderInduction {motive : Text → Prop} (nil : motive [])
    (char : ∀ (c : Char) (rest : Text), (c = '$' → startsWithDigit rest = false) →
      motive rest → motive (c :: rest))
    (placeholder : ∀ digits rest : Text, digits ≠ [] → (∀ d ∈ digits, isDecimalDigit d = true) →
      startsWithDigit rest = false → motive rest → motive ('$' :: (digits ++ rest)))
    (t : Text) : motive t := by
  match t with
  | [] => exact nil
  | c :: rest =>
    by_cases hplaceholder : c = '$' ∧ startsWithDigit rest = true
    · obtain ⟨rfl, hstarts⟩ := hplaceholder
      have hlength := (List.dropWhile_sublist isDecimalDigit (l := rest)).length_le
      have hne : rest.takeWhile isDecimalDigit ≠ [] := by
        cases rest with
        | nil => cases hstarts
        | cons d more =>
          have hd : isDecimalDigit d = true := hstarts
          rw [List.takeWhile_cons_of_pos hd]
          exact List.cons_ne_nil _ _
      have hdigits : ∀ d ∈ rest.takeWhile isDecimalDigit, isDecimalDigit d = true :=
        List.all_eq_true.mp List.all_takeWhile
      rw [← List.takeWhile_append_dropWhile (p := isDecimalDigit) (l := rest)]
      exact placeholder _ _ hne hdigits (startsWithDigit_dropWhile rest)
        (placeholderInduction nil char placeholder (rest.dropWhile isDecimalDigit))
    · refine char c rest (fun hc => ?_) (placeholderInduction nil char placeholder rest)
      rw [Bool.eq_false_iff]
      exact fun hstarts => hplaceholder ⟨hc, hstarts⟩
  termination_by t.length
  decreasing_by
    · exact Nat.lt_succ_of_le hlength
    · exact Nat.lt_succ_self _

end HeadlessEditor.Snippet
