/-
  HeadlessEditor.Text.Basic

  The text an editor holds: a list of characters, addressed by offsets that
  count characters from the start.  Offsets may be any natural numbers; an
  operation that needs one inside the text clamps it first.
-/

namespace HeadlessEditor

/-- A document, or a piece of one. -/
abbrev Text := List Char

/-- Two offsets.  They delimit what lies between them; unless a definition says so, they need not
be in order. -/
structure Span where
  start : Nat
  stop : Nat
deriving DecidableEq, Repr, Inhabited

namespace Span

/-- The span with its offsets in order, both at most `length`. -/
def clamp (s : Span) (length : Nat) : Span :=
  ⟨min (min s.start length) (min s.stop length), max (min s.start length) (min s.stop length)⟩

/-- The span moved by `distance` characters to the right. -/
def shift (s : Span) (distance : Nat) : Span :=
  ⟨distance + s.start, distance + s.stop⟩

theorem clamp_eq_self {s : Span} {length : Nat} (hle : s.start ≤ s.stop) (hstop : s.stop ≤ length) :
    s.clamp length = s := by
  have hstart := Nat.le_trans hle hstop
  rw [clamp, Nat.min_eq_left hstart, Nat.min_eq_left hstop, Nat.min_eq_left hle,
    Nat.max_eq_right hle]

theorem clamp_bounds (s : Span) (length : Nat) :
    (s.clamp length).start ≤ (s.clamp length).stop ∧ (s.clamp length).stop ≤ length := by
  simp only [clamp]
  omega

theorem clamp_clamp (s : Span) (length : Nat) : (s.clamp length).clamp length = s.clamp length :=
  clamp_eq_self (s.clamp_bounds length).1 (s.clamp_bounds length).2

end Span

namespace Text

/-- The characters from offset `a` up to, but not including, offset `b`. -/
def slice (t : Text) (a b : Nat) : Text :=
  (t.take b).drop a

/-- The text with the characters from `a` up to `b` removed and `inserted` in their place. -/
def splice (t : Text) (a b : Nat) (inserted : Text) : Text :=
  t.take a ++ inserted ++ t.drop b

/-- The characters of a span, whichever order its offsets are in. -/
def within (t : Text) (s : Span) : Text :=
  t.slice (s.clamp t.length).start (s.clamp t.length).stop

theorem within_eq_slice {t : Text} {s : Span} (hle : s.start ≤ s.stop) (hstop : s.stop ≤ t.length) :
    t.within s = t.slice s.start s.stop := by
  rw [within, Span.clamp_eq_self hle hstop]

-- ============================================================================
-- Lengths
-- ============================================================================

theorem length_slice (t : Text) (a b : Nat) :
    (t.slice a b).length = min b t.length - a := by
  simp [slice]

theorem length_splice (t : Text) (a b : Nat) (inserted : Text) :
    (t.splice a b inserted).length
      = min a t.length + inserted.length + (t.length - b) := by
  simp [splice, Nat.add_assoc]

-- ============================================================================
-- Adjoining pieces
-- ============================================================================

theorem take_append_slice {a b : Nat} (h : a ≤ b) (t : Text) :
    t.take a ++ t.slice a b = t.take b := by
  have hta : (t.take b).take a = t.take a := by rw [List.take_take, Nat.min_eq_left h]
  rw [slice, ← hta, List.take_append_drop]

theorem slice_append_slice {a b c : Nat} (hab : a ≤ b) (hbc : b ≤ c) (t : Text) :
    t.slice a b ++ t.slice b c = t.slice a c := by
  have h : t.take a ++ (t.slice a b ++ t.slice b c) = t.take a ++ t.slice a c := by
    rw [← List.append_assoc, take_append_slice hab, take_append_slice hbc,
      take_append_slice (Nat.le_trans hab hbc)]
  exact List.append_cancel_left h

theorem slice_append_drop {a b : Nat} (h : a ≤ b) (t : Text) :
    t.slice a b ++ t.drop b = t.drop a := by
  have ht : t.take a ++ (t.slice a b ++ t.drop b) = t.take a ++ t.drop a := by
    rw [← List.append_assoc, take_append_slice h, List.take_append_drop, List.take_append_drop]
  exact List.append_cancel_left ht

theorem slice_eq_nil {a b : Nat} (h : b ≤ a) (t : Text) : t.slice a b = [] := by
  rw [slice, List.drop_eq_nil_iff, List.length_take]
  omega

theorem slice_succ (t : Text) (a b : Nat) :
    t.slice a (b + 1) = t.slice a b ++ if b < a then [] else (t[b]?).toList := by
  by_cases hab : b < a
  · rw [if_pos hab, slice_eq_nil (by omega), slice_eq_nil (by omega), List.append_nil]
  · have hone : t.slice b (b + 1) = (t[b]?).toList := by
      rw [slice, List.drop_take, Nat.add_sub_cancel_left, List.take_one, List.head?_drop]
    rw [if_neg hab, ← hone, slice_append_slice (by omega) (by omega)]

/-- A piece of an inserted text, in the text it was inserted in. -/
theorem slice_splice {t inserted : Text} {a p q : Nat} (ha : a ≤ t.length)
    (hq : q ≤ inserted.length) (b : Nat) :
    (t.splice a b inserted).slice (a + p) (a + q) = inserted.slice p q := by
  have hlength : (t.take a).length = a := by
    rw [List.length_take, Nat.min_eq_left ha]
  have hpiece : slice (t.take a ++ (inserted ++ t.drop b)) ((t.take a).length + p)
      ((t.take a).length + q) = inserted.slice p q := by
    rw [slice, List.take_length_add_append, List.drop_length_add_append,
      List.take_append_of_le_length hq, slice]
  rwa [hlength, ← List.append_assoc] at hpiece

theorem slice_max (t : Text) (a b : Nat) : t.slice a (max b a) = t.slice a b := by
  by_cases h : a ≤ b
  · rw [Nat.max_eq_left h]
  · rw [Nat.max_eq_right (by omega), slice_eq_nil (Nat.le_refl a), slice_eq_nil (by omega)]

theorem slice_length_succ (t : Text) (a : Nat) : t.slice a (t.length + 1) = t.drop a := by
  rw [slice, List.take_of_length_le (Nat.le_succ _)]

-- ============================================================================
-- Characters of one sort
-- ============================================================================

/-- Nothing follows, or a character that is not in `p`. -/
def Stops (p : Char → Bool) (t : Text) : Prop :=
  ∀ c ∈ t.head?, p c = false

theorem stops_nil (p : Char → Bool) : Stops p [] :=
  fun _ h => nomatch h

theorem stops_cons {p : Char → Bool} {c : Char} (hc : p c = false) (t : Text) :
    Stops p (c :: t) := by
  intro d hd
  obtain rfl : c = d := by simpa using hd
  exact hc

theorem takeWhile_append_of_stops {p : Char → Bool} {a t : Text} (ha : ∀ c ∈ a, p c = true)
    (ht : Stops p t) : (a ++ t).takeWhile p = a := by
  rw [List.takeWhile_append_of_pos ha]
  cases t with
  | nil => exact List.append_nil a
  | cons c t => rw [List.takeWhile_cons_of_neg (by simp [ht c rfl]), List.append_nil]

/-- Where a text goes from `p` to something else can be told from the text. -/
theorem append_inj_of_stops {p : Char → Bool} {a b t u : Text} (ha : ∀ c ∈ a, p c = true)
    (hb : ∀ c ∈ b, p c = true) (ht : Stops p t) (hu : Stops p u) (h : a ++ t = b ++ u) :
    a = b ∧ t = u := by
  have hab : a = b := by
    rw [← takeWhile_append_of_stops ha ht, h, takeWhile_append_of_stops hb hu]
  subst hab
  exact ⟨rfl, List.append_cancel_left h⟩

end Text

end HeadlessEditor
