/-
  HeadlessEditor.Text.Utf16

  Lengths in UTF-16 code units.  A character of the basic plane is one unit
  and any other is two (a surrogate pair), so a count of units can fall
  inside a character; it is then rounded down to the character's start.
-/

import HeadlessEditor.Text.Basic

namespace HeadlessEditor.Text

/-- The number of code units of one character. -/
def unitWidth (c : Char) : Nat :=
  if c.toNat < 0x10000 then 1 else 2

/-- The number of code units of a text. -/
def unitLength : Text → Nat
  | [] => 0
  | c :: rest => unitWidth c + unitLength rest

/-- How many characters of the text fit, whole, into its first `units` code units. -/
def charsWithin : Text → Nat → Nat
  | [], _ => 0
  | c :: rest, units =>
      if unitWidth c ≤ units then charsWithin rest (units - unitWidth c) + 1 else 0

/-! ## Small laws -/

theorem unitWidth_pos (c : Char) : 0 < unitWidth c := by
  unfold unitWidth
  split <;> omega

theorem unitLength_append (s t : Text) :
    unitLength (s ++ t) = unitLength s + unitLength t := by
  induction s with
  | nil => simp [unitLength]
  | cons c rest ih => simp [unitLength, ih, Nat.add_assoc]

theorem charsWithin_le_length (t : Text) (units : Nat) :
    charsWithin t units ≤ t.length := by
  induction t generalizing units with
  | nil => simp [charsWithin]
  | cons c rest ih =>
    simp only [charsWithin, List.length_cons]
    split
    · have := ih (units - unitWidth c)
      omega
    · omega

/-- A beginning of the text fits exactly if there are units enough for it. -/
theorem le_charsWithin_iff {t : Text} {n units : Nat} (h : n ≤ t.length) :
    n ≤ charsWithin t units ↔ unitLength (t.take n) ≤ units := by
  induction t generalizing n units with
  | nil =>
    obtain rfl : n = 0 := Nat.eq_zero_of_le_zero h
    exact iff_of_true (Nat.zero_le _) (Nat.zero_le _)
  | cons c rest ih =>
    cases n with
    | zero => exact iff_of_true (Nat.zero_le _) (Nat.zero_le _)
    | succ n =>
      rw [charsWithin, List.take_succ_cons, unitLength]
      by_cases hc : unitWidth c ≤ units
      · rw [if_pos hc, Nat.add_le_add_iff_right, ih (Nat.le_of_succ_le_succ h)]
        omega
      · rw [if_neg hc]
        omega

theorem charsWithin_mono (t : Text) {units units' : Nat} (h : units ≤ units') :
    charsWithin t units ≤ charsWithin t units' := by
  have hle := charsWithin_le_length t units
  rw [le_charsWithin_iff hle]
  exact Nat.le_trans ((le_charsWithin_iff hle).mp (Nat.le_refl _)) h

theorem charsWithin_unitLength_take {t : Text} {n : Nat} (h : n ≤ t.length) :
    charsWithin t (unitLength (t.take n)) = n := by
  induction t generalizing n with
  | nil => exact (Nat.eq_zero_of_le_zero h).symm
  | cons c rest ih =>
    cases n with
    | zero =>
      rw [List.take_zero, unitLength, charsWithin, if_neg (Nat.not_le.mpr (unitWidth_pos c))]
    | succ n =>
      rw [List.take_succ_cons, unitLength, charsWithin, if_pos (Nat.le_add_right _ _),
        Nat.add_sub_cancel_left, ih (Nat.le_of_succ_le_succ h)]

theorem charsWithin_of_unitLength_le {t : Text} {units : Nat} (h : unitLength t ≤ units) :
    charsWithin t units = t.length := by
  apply Nat.le_antisymm (charsWithin_le_length t units)
  rw [le_charsWithin_iff (Nat.le_refl _), List.take_length]
  exact h

end HeadlessEditor.Text
