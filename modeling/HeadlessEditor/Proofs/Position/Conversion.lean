/-
  HeadlessEditor.Proofs.Position.Conversion

  Between positions and offsets, where lines and code units can be counted in
  32 bits.  The offset of a position is the last one that stands at the
  position or before it: the two directions are a Galois connection between
  the offsets outside of line breaks and all positions (`le_offsetAt_iff`).
  An offset comes back from its position (`offsetAt_positionAt`), except that
  the one inside a carriage return and line feed goes to the end of the
  content before them.
-/

import HeadlessEditor.Proofs.Text.Line

namespace HeadlessEditor

theorem Position.le_iff {p q : Position} :
    p ≤ q ↔ p.line.toNat < q.line.toNat ∨
      p.line.toNat = q.line.toNat ∧ p.character.toNat ≤ q.character.toNat := by
  rw [UInt32.toNat_inj]
  rfl

namespace Text

variable {t line : Text} {offset n column : Nat} {p : Position}

-- ============================================================================
-- Places in a text
-- ============================================================================

theorem exists_standsAt_lines (h : offset ≤ t.length) :
    ∃ n column line, StandsAt t.lines offset n column line :=
  exists_standsAt (lines_ne_nil t) (by rwa [flatten_lines])

theorem insideCrLf_iff_of_standsAt (h : StandsAt t.lines offset n column line) :
    t.InsideCrLf offset ↔ (lineContent line).length < column := by
  rw [← h.insideCrLf_iff (broken_lines t), flatten_lines]

theorem not_insideCrLf_length (t : Text) : ¬t.InsideCrLf t.length := by
  rintro ⟨-, -, hlf⟩
  rw [List.getElem?_eq_none (Nat.le_refl _)] at hlf
  cases hlf

/-- In a line a column of its content is one of the line. -/
theorem take_lineContent (h : column ≤ (lineContent line).length) :
    (lineContent line).take column = line.take column := by
  have hle := h
  rw [lineContent, List.length_take] at hle
  rw [lineContent, List.take_take, Nat.min_eq_left (by omega)]

theorem unitLength_take_le (s : Text) (n : Nat) : unitLength (s.take n) ≤ unitLength s := by
  calc unitLength (s.take n)
      ≤ unitLength (s.take n) + unitLength (s.drop n) := Nat.le_add_right _ _
    _ = unitLength s := by rw [← unitLength_append, List.take_append_drop]

theorem unitLength_le_of_mem_lines (h : line ∈ t.lines) : unitLength line ≤ unitLength t := by
  obtain ⟨before, after, hlines⟩ := List.append_of_mem h
  have ht : t = before.flatten ++ (line ++ after.flatten) := by
    rw [← flatten_lines t, hlines, List.flatten_append, List.flatten_cons]
  rw [ht, unitLength_append, unitLength_append]
  omega

-- ============================================================================
-- The offset of a position
-- ============================================================================

theorem offsetAt_of_lineCount_le (h : t.lineCount ≤ p.line.toNat) : t.offsetAt p = t.length := by
  rw [offsetAt, List.getElem?_eq_none h]

theorem offsetAt_of_getElem? (h : t.lines[p.line.toNat]? = some line) :
    t.offsetAt p
      = t.lineStart p.line.toNat + charsWithin (lineContent line) p.character.toNat := by
  rw [offsetAt, h]

theorem standsAt_offsetAt (h : t.lines[p.line.toNat]? = some line) :
    StandsAt t.lines (t.offsetAt p) p.line.toNat
      (charsWithin (lineContent line) p.character.toNat) line := by
  rw [offsetAt_of_getElem? h]
  exact (broken_lines t).standsAt h (charsWithin_le_length _ _)

theorem offsetAt_le_length (t : Text) (p : Position) : t.offsetAt p ≤ t.length := by
  cases h : t.lines[p.line.toNat]? with
  | none => exact Nat.le_of_eq (offsetAt_of_lineCount_le (List.getElem?_eq_none_iff.mp h))
  | some line =>
    have := (standsAt_offsetAt h).le_length_flatten
    rwa [flatten_lines] at this

/-- The offsets of a range lie in the text, so that clamping only puts them in order. -/
theorem clamp_offsets (t : Text) (r : Range) :
    Span.clamp ⟨t.offsetAt r.start, t.offsetAt r.stop⟩ t.length = t.offsetsOf r := by
  have hstart := offsetAt_le_length t r.start
  have hstop := offsetAt_le_length t r.stop
  rw [Span.clamp, Nat.min_eq_left hstart, Nat.min_eq_left hstop, offsetsOf]

theorem not_insideCrLf_offsetAt (t : Text) (p : Position) : ¬t.InsideCrLf (t.offsetAt p) := by
  cases h : t.lines[p.line.toNat]? with
  | none =>
    rw [offsetAt_of_lineCount_le (List.getElem?_eq_none_iff.mp h)]
    exact not_insideCrLf_length t
  | some line =>
    rw [insideCrLf_iff_of_standsAt (standsAt_offsetAt h), Nat.not_lt]
    exact charsWithin_le_length _ _

-- ============================================================================
-- The position of an offset
-- ============================================================================

theorem positionAt_min_length (t : Text) (offset : Nat) :
    t.positionAt (min offset t.length) = t.positionAt offset := by
  rw [positionAt, positionAt, Nat.min_assoc, Nat.min_self]

theorem positionAt_of_standsAt (h : StandsAt t.lines offset n column line) :
    t.positionAt offset = ⟨UInt32.ofNat n, UInt32.ofNat (unitLength (line.take column))⟩ := by
  have hle := h.le_length_flatten
  rw [flatten_lines] at hle
  rw [positionAt, Nat.min_eq_left hle, h.locate_eq]
  simp only [List.getD_eq_getElem?_getD, h.getElem?_eq, Option.getD_some]

/-- As long as they can be counted, lines and code units are not mistaken for others. -/
theorem toNat_positionAt (hlines : t.lineCount < UInt32.size)
    (hunits : unitLength t < UInt32.size) (h : StandsAt t.lines offset n column line) :
    (t.positionAt offset).line.toNat = n ∧
      (t.positionAt offset).character.toNat = unitLength (line.take column) := by
  have hn : n < t.lineCount := (List.getElem?_eq_some_iff.mp h.getElem?_eq).1
  have hline := unitLength_le_of_mem_lines (List.mem_of_getElem? h.getElem?_eq)
  have htake := unitLength_take_le line column
  rw [positionAt_of_standsAt h]
  exact ⟨UInt32.toNat_ofNat_of_lt' (by omega), UInt32.toNat_ofNat_of_lt' (by omega)⟩

-- ============================================================================
-- There and back
-- ============================================================================

/-- An offset in a line before that of a position. -/
theorem StandsAt.le_offsetAt (h : StandsAt t.lines offset n column line)
    (hn : n < p.line.toNat) : offset ≤ t.offsetAt p := by
  cases hline : t.lines[p.line.toNat]? with
  | none =>
    have hoffset := h.le_length_flatten
    rw [flatten_lines] at hoffset
    rwa [offsetAt_of_lineCount_le (List.getElem?_eq_none_iff.mp hline)]
  | some other =>
    have hstart := length_flatten_take_add_le h.getElem?_eq hn
    have hcolumn := h.column_le
    rw [h.offset_eq, offsetAt_of_getElem? hline, lineStart]
    omega

/-- An offset in a line behind that of a position: the content of the latter ends before its
break. -/
theorem StandsAt.offsetAt_lt (h : StandsAt t.lines offset n column line)
    (hn : p.line.toNat < n) : t.offsetAt p < offset := by
  have hlast : n < t.lines.length := (List.getElem?_eq_some_iff.mp h.getElem?_eq).1
  have hline := List.getElem?_eq_getElem (Nat.lt_trans hn hlast)
  have hstart := length_flatten_take_add_le hline hn
  have hcontent := (broken_lines t).length_lineContent_lt hline (by omega)
  have hchars := charsWithin_le_length (lineContent t.lines[p.line.toNat]) p.character.toNat
  rw [h.offset_eq, offsetAt_of_getElem? hline, lineStart]
  omega

/-- Positions in order have offsets in order, wherever they lie. -/
theorem offsetAt_mono (t : Text) {p q : Position} (h : p ≤ q) : t.offsetAt p ≤ t.offsetAt q := by
  cases hline : t.lines[p.line.toNat]? with
  | none =>
    have hcount : t.lineCount ≤ p.line.toNat := List.getElem?_eq_none_iff.mp hline
    have hcount' : t.lineCount ≤ q.line.toNat := by
      rw [Position.le_iff] at h
      omega
    exact Nat.le_of_eq
      ((offsetAt_of_lineCount_le hcount).trans (offsetAt_of_lineCount_le hcount').symm)
  | some line =>
    rcases Position.le_iff.mp h with hbefore | ⟨hsame, hcharacter⟩
    · exact (standsAt_offsetAt hline).le_offsetAt hbefore
    · rw [offsetAt_of_getElem? hline, offsetAt_of_getElem? (hsame ▸ hline), hsame]
      exact Nat.add_le_add_left (charsWithin_mono _ hcharacter) _

/-- Whether the ends of a range are in order in a text.  Positions that are not may still be at one
offset, behind the end of a line. -/
def InOrder (t : Text) (r : Range) : Prop :=
  r.start ≤ r.stop ∨ t.offsetAt r.start = t.offsetAt r.stop

instance (t : Text) (r : Range) : Decidable (t.InOrder r) :=
  inferInstanceAs (Decidable (_ ∨ _))

theorem inOrder_iff (t : Text) (r : Range) :
    t.InOrder r ↔ t.offsetAt r.start ≤ t.offsetAt r.stop := by
  constructor
  · rintro (hle | heq)
    · exact offsetAt_mono t hle
    · exact Nat.le_of_eq heq
  · intro hle
    rcases Position.le_total r.start r.stop with hforward | hbackward
    · exact .inl hforward
    · exact .inr (Nat.le_antisymm hle (offsetAt_mono t hbackward))

/-- Outside of line breaks, an offset is at most that of a position exactly if its own position
is at most the given one. -/
theorem le_offsetAt_iff_positionAt_le (hlines : t.lineCount < UInt32.size)
    (hunits : unitLength t < UInt32.size) (p : Position) (hoffset : offset ≤ t.length)
    (houtside : ¬t.InsideCrLf offset) : offset ≤ t.offsetAt p ↔ t.positionAt offset ≤ p := by
  obtain ⟨n, column, line, hplace⟩ := exists_standsAt_lines hoffset
  obtain ⟨hn, hunit⟩ := toNat_positionAt hlines hunits hplace
  rw [insideCrLf_iff_of_standsAt hplace, Nat.not_lt] at houtside
  rw [Position.le_iff, hn, hunit]
  rcases Nat.lt_trichotomy n p.line.toNat with hbefore | rfl | hbehind
  · exact iff_of_true (hplace.le_offsetAt hbefore) (.inl hbefore)
  · -- in one line it is the code units that decide
    rw [hplace.offset_eq, offsetAt_of_getElem? hplace.getElem?_eq, lineStart,
      Nat.add_le_add_iff_left, le_charsWithin_iff houtside, take_lineContent houtside]
    omega
  · exact iff_of_false (Nat.not_le.mpr (hplace.offsetAt_lt hbehind)) (by omega)

/-- What comes back of the column of a line. -/
theorem charsWithin_lineContent (line : Text) (column : Nat) :
    charsWithin (lineContent line) (unitLength (line.take column))
      = min column (lineContent line).length := by
  by_cases h : column ≤ (lineContent line).length
  · rw [Nat.min_eq_left h, ← take_lineContent h, charsWithin_unitLength_take h]
  · rw [Nat.min_eq_right (by omega)]
    have hcontent : (line.take column).take (lineContent line).length = lineContent line := by
      rw [List.take_take, Nat.min_eq_left (by omega), ← take_lineContent (Nat.le_refl _),
        List.take_length]
    apply charsWithin_of_unitLength_le
    calc unitLength (lineContent line)
        = unitLength ((line.take column).take (lineContent line).length) := by rw [hcontent]
      _ ≤ unitLength (line.take column) := unitLength_take_le _ _

theorem offsetAt_positionAt_of_standsAt (hlines : t.lineCount < UInt32.size)
    (hunits : unitLength t < UInt32.size) (h : StandsAt t.lines offset n column line) :
    t.offsetAt (t.positionAt offset) = t.lineStart n + min column (lineContent line).length := by
  obtain ⟨hn, hunit⟩ := toNat_positionAt hlines hunits h
  have hline : t.lines[(t.positionAt offset).line.toNat]? = some line := by
    rw [hn]
    exact h.getElem?_eq
  rw [offsetAt_of_getElem? hline, hn, hunit, charsWithin_lineContent]

/-- The offsets outside of line breaks and the positions are tied by a Galois connection, and the
offset of a position is one of the former. -/
theorem le_offsetAt_iff (hlines : t.lineCount < UInt32.size)
    (hunits : unitLength t < UInt32.size) (p : Position) :
    (∀ offset ≤ t.length, ¬t.InsideCrLf offset →
        (offset ≤ t.offsetAt p ↔ t.positionAt offset ≤ p)) ∧
      t.offsetAt p ≤ t.length ∧ ¬t.InsideCrLf (t.offsetAt p) :=
  ⟨fun _ hoffset houtside => le_offsetAt_iff_positionAt_le hlines hunits p hoffset houtside,
    offsetAt_le_length t p, not_insideCrLf_offsetAt t p⟩

/-- A text with every kind of line break but a lone line feed, and a surrogate pair. -/
def sampleText : Text :=
  ['\r', '😀', '\r', '\n', 'b']

/-- A position inside the surrogate pair: the offset before the pair is at most that of the
position, the one behind it is not. -/
theorem le_offsetAt_iff_insideSurrogates :
    (1 ≤ sampleText.offsetAt ⟨1, 1⟩ ↔ sampleText.positionAt 1 ≤ ⟨1, 1⟩) ∧
      (2 ≤ sampleText.offsetAt ⟨1, 1⟩ ↔ sampleText.positionAt 2 ≤ ⟨1, 1⟩) ∧
      sampleText.offsetAt ⟨1, 1⟩ = 1 := by
  obtain ⟨h, -, -⟩ := le_offsetAt_iff (t := sampleText) (by decide) (by decide) ⟨1, 1⟩
  exact ⟨h 1 (by decide) (by decide), h 2 (by decide) (by decide), by decide⟩

/-- Going to the position of an offset and back ends at the offset, at the end of the text if it
is behind that, and before a carriage return and line feed if it is inside them. -/
theorem offsetAt_positionAt (hlines : t.lineCount < UInt32.size)
    (hunits : unitLength t < UInt32.size) (offset : Nat) :
    t.offsetAt (t.positionAt offset) =
      if t.InsideCrLf (min offset t.length) then min offset t.length - 1
      else min offset t.length := by
  obtain ⟨n, column, line, hplace⟩ := exists_standsAt_lines (Nat.min_le_right offset t.length)
  have hoffset := hplace.offset_eq
  have hcolumn := hplace.column_le_succ (broken_lines t)
  have hinside_iff := insideCrLf_iff_of_standsAt hplace
  rw [← positionAt_min_length, offsetAt_positionAt_of_standsAt hlines hunits hplace, lineStart]
  by_cases hinside : t.InsideCrLf (min offset t.length)
  · have hbehind := hinside_iff.mp hinside
    rw [if_pos hinside, Nat.min_eq_right (Nat.le_of_lt hbehind)]
    omega
  · have hcontent := Nat.not_lt.mp (mt hinside_iff.mpr hinside)
    rw [if_neg hinside, Nat.min_eq_left hcontent]
    exact hoffset.symm

/-- From inside the carriage return and line feed, and from behind the end. -/
theorem offsetAt_positionAt_sampleText :
    sampleText.InsideCrLf 3 ∧ sampleText.offsetAt (sampleText.positionAt 3) = 2 ∧
      sampleText.offsetAt (sampleText.positionAt 9) = 5 := by
  have h := offsetAt_positionAt (t := sampleText) (by decide) (by decide)
  exact ⟨by decide, h 3, h 9⟩

end Text

end HeadlessEditor
