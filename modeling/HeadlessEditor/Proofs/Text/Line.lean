/-
  HeadlessEditor.Proofs.Text.Line

  The lines of a text and the offsets in them.  A line is content, which no
  character of a break stands in, and a break, which only the last line is
  without; no break goes on in the next line (`Broken`).

  An offset stands in one line, at a column (`StandsAt`): behind a break it
  is in the next line already.  So it is behind the content of its line
  exactly if it is inside a carriage return and line feed
  (`StandsAt.insideCrLf_iff`).
-/

import HeadlessEditor.Position.Offset

namespace HeadlessEditor.Text

-- ============================================================================
-- Content and break
-- ============================================================================

/-- What the content of a line is: a text without characters that break lines. -/
def Unbroken (t : Text) : Prop :=
  '\n' ∉ t ∧ '\r' ∉ t

def lineBreaks : List Text :=
  [['\n'], ['\r', '\n'], ['\r']]

theorem mem_lineBreaks_iff {ending : Text} :
    ending ∈ lineBreaks ↔ ending = ['\n'] ∨ ending = ['\r', '\n'] ∨ ending = ['\r'] := by
  rw [lineBreaks, List.mem_cons, List.mem_cons, List.mem_singleton]

theorem ne_nil_of_mem_lineBreaks {ending : Text} (h : ending ∈ lineBreaks) : ending ≠ [] := by
  rintro rfl
  exact absurd h (by decide)

theorem length_le_two_of_mem_lineBreaks {ending : Text} (h : ending ∈ lineBreaks) :
    ending.length ≤ 2 := by
  rcases mem_lineBreaks_iff.mp h with rfl | rfl | rfl <;> decide

theorem lineBreak_append {content ending : Text} (h : Unbroken content)
    (hending : ending = [] ∨ ending ∈ lineBreaks) : lineBreak (content ++ ending) = ending := by
  obtain ⟨hlf, hcr⟩ := h
  have hhead : ∀ c rest, content.reverse = c :: rest → c ≠ '\n' ∧ c ≠ '\r' := by
    intro c rest hreverse
    have hmem : c ∈ content := List.mem_reverse.mp (hreverse ▸ List.mem_cons_self)
    exact ⟨fun hc => hlf (hc ▸ hmem), fun hc => hcr (hc ▸ hmem)⟩
  rw [lineBreak, List.reverse_append]
  rw [mem_lineBreaks_iff] at hending
  cases hreverse : content.reverse with
  | nil => rcases hending with rfl | rfl | rfl | rfl <;> rfl
  | cons c rest =>
    obtain ⟨hc, hc'⟩ := hhead c rest hreverse
    rcases hending with rfl | rfl | rfl | rfl <;> simp [hc, hc']

theorem lineContent_append {content ending : Text} (h : Unbroken content)
    (hending : ending = [] ∨ ending ∈ lineBreaks) : lineContent (content ++ ending) = content := by
  rw [lineContent, lineBreak_append h hending, List.length_append, Nat.add_sub_cancel,
    List.take_left]

theorem lineContent_of_unbroken {content : Text} (h : Unbroken content) :
    lineContent content = content := by
  have := lineContent_append h (.inl rfl)
  rwa [List.append_nil] at this

-- ============================================================================
-- Breaking a text
-- ============================================================================

/-- Lines as a text is broken into them.  A carriage return and line feed stay together. -/
inductive Broken : List Text → Prop where
  | last {content : Text} (h : Unbroken content) : Broken [content]
  | cons {content ending : Text} {rest : List Text} (h : Unbroken content)
      (hending : ending ∈ lineBreaks)
      (hwhole : ending = ['\r'] → rest.flatten.head? ≠ some '\n') (hrest : Broken rest) :
      Broken ((content ++ ending) :: rest)

variable {ls : List Text} {line : Text} {offset n column : Nat}

theorem unbroken_cons {c : Char} {content : Text} (hc : ¬(c = '\n' ∨ c = '\r'))
    (h : Unbroken content) : Unbroken (c :: content) := by
  rw [not_or] at hc
  exact ⟨List.not_mem_cons_of_ne_of_not_mem (Ne.symm hc.1) h.1,
    List.not_mem_cons_of_ne_of_not_mem (Ne.symm hc.2) h.2⟩

theorem Broken.prepend {c : Char} (hc : ¬(c = '\n' ∨ c = '\r')) (h : Broken ls) :
    Broken (prepend c ls) := by
  cases h with
  | last h => exact .last (unbroken_cons hc h)
  | cons h hending hwhole hrest => exact .cons (unbroken_cons hc h) hending hwhole hrest

theorem broken_lines (t : Text) : Broken (lines t) := by
  have hnil : Unbroken [] := ⟨List.not_mem_nil, List.not_mem_nil⟩
  fun_induction lines t with
  | case1 => exact .last hnil
  | case2 rest ih => exact .cons hnil (by decide) (fun h => absurd h (by decide)) ih
  | case3 c rest hnext hc ih =>
    refine .cons hnil ?_ ?_ ih
    · rcases hc with rfl | rfl <;> decide
    · -- a carriage return breaks the line alone only if no line feed follows
      intro hcr hhead
      rw [flatten_lines] at hhead
      obtain ⟨rest', rfl⟩ := List.head?_eq_some_iff.mp hhead
      exact hnext rest' (List.singleton_inj.mp hcr) rfl
  | case4 c rest hnext hc ih => exact ih.prepend hc

theorem Broken.ne_nil (h : Broken ls) : ls ≠ [] := by
  cases h <;> exact List.cons_ne_nil _ _

/-- Any line but the last has a break. -/
theorem Broken.exists_eq_append (h : Broken ls) (hline : ls[n]? = some line) :
    ∃ content ending, line = content ++ ending ∧ Unbroken content ∧
      (ending = [] ∧ n + 1 = ls.length ∨ ending ∈ lineBreaks ∧ n + 1 < ls.length) := by
  induction h generalizing n with
  | last h =>
    obtain ⟨hn, rfl⟩ := List.getElem?_eq_some_iff.mp hline
    obtain rfl : n = 0 := by simpa using hn
    exact ⟨_, [], (List.append_nil _).symm, h, .inl ⟨rfl, rfl⟩⟩
  | @cons content ending rest h hending hwhole hrest ih =>
    have hne := List.length_pos_iff.mpr hrest.ne_nil
    cases n with
    | zero =>
      rw [List.getElem?_cons_zero, Option.some.injEq] at hline
      refine ⟨content, ending, hline.symm, h, .inr ⟨hending, ?_⟩⟩
      rw [List.length_cons]
      omega
    | succ n =>
      rw [List.getElem?_cons_succ] at hline
      obtain ⟨content', ending', hline', h', hlast⟩ := ih hline
      refine ⟨content', ending', hline', h', ?_⟩
      rw [List.length_cons, Nat.add_right_cancel_iff, Nat.add_lt_add_iff_right]
      exact hlast

theorem Broken.length_lineContent_lt (h : Broken ls) (hline : ls[n]? = some line)
    (hn : n + 1 < ls.length) : (lineContent line).length < line.length := by
  obtain ⟨content, ending, rfl, hcontent, hlast | ⟨hending, -⟩⟩ := h.exists_eq_append hline
  · omega
  · have := List.length_pos_iff.mpr (ne_nil_of_mem_lineBreaks hending)
    rw [lineContent_append hcontent (.inr hending), List.length_append]
    omega

-- ============================================================================
-- The place of an offset
-- ============================================================================

/-- An offset stands at a column of line `n`.  The end of a line that another one follows is the
start of that one. -/
structure StandsAt (ls : List Text) (offset n column : Nat) (line : Text) : Prop where
  getElem?_eq : ls[n]? = some line
  offset_eq : offset = (ls.take n).flatten.length + column
  column_le : column ≤ line.length
  column_lt : n + 1 < ls.length → column < line.length

/-- Places in the first line. -/
theorem standsAt_cons_zero_iff {first : Text} :
    StandsAt (first :: ls) offset 0 column line ↔
      first = line ∧ offset = column ∧ column ≤ line.length ∧
        (ls ≠ [] → column < line.length) := by
  have hoffset : (List.take 0 (first :: ls)).flatten.length + column = column := Nat.zero_add _
  have hlast : 0 + 1 < (first :: ls).length ↔ ls ≠ [] := by
    rw [List.length_cons, Nat.add_lt_add_iff_right, List.length_pos_iff]
  constructor
  · rintro ⟨hline, rfl, hle, hlt⟩
    exact ⟨Option.some.inj hline, hoffset, hle, fun hne => hlt (hlast.mpr hne)⟩
  · rintro ⟨rfl, rfl, hle, hlt⟩
    exact ⟨rfl, hoffset.symm, hle, fun hn => hlt (hlast.mp hn)⟩

/-- Places in the lines after the first. -/
theorem standsAt_cons_succ_iff {first : Text} :
    StandsAt (first :: ls) offset (n + 1) column line ↔
      ∃ behind, offset = first.length + behind ∧ StandsAt ls behind n column line := by
  constructor
  · rintro ⟨hline, hoffset, hle, hlt⟩
    rw [List.take_succ_cons, List.flatten_cons, List.length_append, Nat.add_assoc] at hoffset
    rw [List.length_cons, Nat.add_lt_add_iff_right] at hlt
    exact ⟨_, hoffset, hline, rfl, hle, hlt⟩
  · rintro ⟨behind, rfl, hline, rfl, hle, hlt⟩
    refine ⟨hline, ?_, hle, ?_⟩
    · rw [List.take_succ_cons, List.flatten_cons, List.length_append, Nat.add_assoc]
    · rwa [List.length_cons, Nat.add_lt_add_iff_right]

theorem exists_standsAt (hne : ls ≠ []) (hoffset : offset ≤ ls.flatten.length) :
    ∃ n column line, StandsAt ls offset n column line := by
  induction ls generalizing offset with
  | nil => exact absurd rfl hne
  | cons first rest ih =>
    rw [List.flatten_cons, List.length_append] at hoffset
    by_cases hfirst : offset < first.length
    · exact ⟨0, offset, first, standsAt_cons_zero_iff.mpr
        ⟨rfl, rfl, Nat.le_of_lt hfirst, fun _ => hfirst⟩⟩
    · cases rest with
      | nil =>
        rw [List.flatten_nil, List.length_nil] at hoffset
        exact ⟨0, offset, first, standsAt_cons_zero_iff.mpr
          ⟨rfl, rfl, hoffset, fun hne => absurd rfl hne⟩⟩
      | cons next rest =>
        obtain ⟨n, column, line, h⟩ := ih (List.cons_ne_nil _ _)
          (show offset - first.length ≤ (next :: rest).flatten.length by omega)
        exact ⟨n + 1, column, line, standsAt_cons_succ_iff.mpr ⟨_, by omega, h⟩⟩

/-- An offset stands at one place only, and that is the one found. -/
theorem StandsAt.locate_eq (h : StandsAt ls offset n column line) :
    locate offset ls = (n, column) := by
  induction ls generalizing offset n with
  | nil => exact absurd h.getElem?_eq (by simp)
  | cons first rest ih =>
    cases n with
    | zero =>
      obtain ⟨rfl, rfl, -, hlt⟩ := standsAt_cons_zero_iff.mp h
      cases rest with
      | nil => rfl
      | cons next rest =>
        rw [locate, if_pos (hlt (List.cons_ne_nil _ _))]
        exact List.cons_ne_nil _ _
    | succ n =>
      obtain ⟨behind, rfl, hbehind⟩ := standsAt_cons_succ_iff.mp h
      cases rest with
      | nil => exact absurd hbehind.getElem?_eq (by simp)
      | cons next rest =>
        rw [locate, if_neg (by omega), Nat.add_sub_cancel_left, ih hbehind]
        exact List.cons_ne_nil _ _

/-- A column of the content is a place. -/
theorem Broken.standsAt (h : Broken ls) (hline : ls[n]? = some line)
    (hcolumn : column ≤ (lineContent line).length) :
    StandsAt ls ((ls.take n).flatten.length + column) n column line where
  getElem?_eq := hline
  offset_eq := rfl
  column_le := Nat.le_trans hcolumn (by rw [lineContent, List.length_take]; omega)
  column_lt hn := Nat.lt_of_le_of_lt hcolumn (h.length_lineContent_lt hline hn)

/-- A break is two characters at most, and no offset stands behind its last one. -/
theorem StandsAt.column_le_succ (h : StandsAt ls offset n column line) (hbroken : Broken ls) :
    column ≤ (lineContent line).length + 1 := by
  obtain ⟨content, ending, rfl, hcontent, ⟨rfl, -⟩ | ⟨hending, hn⟩⟩ :=
    hbroken.exists_eq_append h.getElem?_eq
  · have hle := h.column_le
    rw [List.append_nil] at hle ⊢
    rw [lineContent_of_unbroken hcontent]
    exact Nat.le_succ_of_le hle
  · have hlt := h.column_lt hn
    have hbreak := length_le_two_of_mem_lineBreaks hending
    rw [List.length_append] at hlt
    rw [lineContent_append hcontent (.inr hending)]
    omega

/-- All of a line comes before the lines after it. -/
theorem length_flatten_take_add_le {m : Nat} (hline : ls[n]? = some line) (hm : n < m) :
    (ls.take n).flatten.length + line.length ≤ (ls.take m).flatten.length := by
  obtain ⟨k, rfl⟩ : ∃ k, m = n + 1 + k := ⟨m - (n + 1), by omega⟩
  rw [List.take_add, List.take_add_one, hline, Option.toList_some, List.flatten_append,
    List.flatten_append, List.flatten_singleton, List.length_append, List.length_append]
  omega

theorem StandsAt.le_length_flatten (h : StandsAt ls offset n column line) :
    offset ≤ ls.flatten.length := by
  have hall := length_flatten_take_add_le h.getElem?_eq
    (List.getElem?_eq_some_iff.mp h.getElem?_eq).1
  rw [List.take_length] at hall
  have := h.offset_eq
  have := h.column_le
  omega

-- ============================================================================
-- Inside a carriage return and line feed
-- ============================================================================

theorem insideCrLf_append_of_lt {s : Text} (t : Text) (h : offset < s.length) :
    InsideCrLf (s ++ t) offset ↔ InsideCrLf s offset := by
  rw [InsideCrLf, InsideCrLf, List.getElem?_append_left h, List.getElem?_append_left (by omega)]

theorem insideCrLf_append_add {s t : Text} (h : 0 < offset) :
    InsideCrLf (s ++ t) (s.length + offset) ↔ InsideCrLf t offset := by
  rw [InsideCrLf, InsideCrLf, List.getElem?_append_right (by omega),
    List.getElem?_append_right (by omega), Nat.add_sub_cancel_left,
    show s.length + offset - 1 - s.length = offset - 1 by omega]
  exact and_congr_left fun _ => iff_of_true (by omega) h

/-- Where two texts meet. -/
theorem insideCrLf_append_length {s t : Text} :
    InsideCrLf (s ++ t) s.length ↔ s.getLast? = some '\r' ∧ t.head? = some '\n' := by
  rw [InsideCrLf, List.getElem?_append_right (Nat.le_refl _), Nat.sub_self,
    ← List.head?_eq_getElem?, List.getLast?_eq_getElem?]
  cases s with
  | nil => simp
  | cons c rest =>
    rw [List.getElem?_append_left (by simp)]
    simp

theorem not_insideCrLf_of_unbroken {content : Text} (h : Unbroken content) (t : Text)
    (hoffset : offset ≤ content.length) : ¬InsideCrLf (content ++ t) offset := by
  rintro ⟨hpos, hcr, -⟩
  rw [List.getElem?_append_left (by omega)] at hcr
  exact h.2 (List.mem_of_getElem? hcr)

/-- Within one line. -/
theorem insideCrLf_line_iff {content ending : Text} (h : Unbroken content)
    (hending : ending ∈ lineBreaks) (hoffset : offset < (content ++ ending).length) :
    InsideCrLf (content ++ ending) offset ↔ content.length < offset := by
  by_cases hcontent : offset ≤ content.length
  · exact iff_of_false (not_insideCrLf_of_unbroken h ending hcontent) (by omega)
  · refine iff_of_true ?_ (by omega)
    -- the only break with room for an offset inside is the carriage return and line feed
    obtain ⟨k, rfl⟩ : ∃ k, offset = content.length + k := ⟨offset - content.length, by omega⟩
    rw [List.length_append, Nat.add_lt_add_iff_left] at hoffset
    rw [insideCrLf_append_add (by omega)]
    rw [mem_lineBreaks_iff] at hending
    rcases hending with rfl | rfl | rfl <;> simp only [List.length_cons, List.length_nil] at hoffset
    · omega
    · obtain rfl : k = 1 := by omega
      decide
    · omega

/-- An offset is inside a carriage return and line feed exactly if it stands behind the content
of its line. -/
theorem StandsAt.insideCrLf_iff (h : StandsAt ls offset n column line) (hbroken : Broken ls) :
    InsideCrLf ls.flatten offset ↔ (lineContent line).length < column := by
  induction hbroken generalizing offset n with
  | @last content hcontent =>
    obtain rfl : n = 0 := by simpa using (List.getElem?_eq_some_iff.mp h.getElem?_eq).1
    obtain ⟨rfl, rfl, hle, -⟩ := standsAt_cons_zero_iff.mp h
    rw [lineContent_of_unbroken hcontent, List.flatten_cons]
    exact iff_of_false (not_insideCrLf_of_unbroken hcontent _ hle) (by omega)
  | @cons content ending rest hcontent hending hwhole hrest ih =>
    cases n with
    | zero =>
      obtain ⟨rfl, rfl, -, hlt⟩ := standsAt_cons_zero_iff.mp h
      have hcolumn := hlt hrest.ne_nil
      rw [List.flatten_cons, insideCrLf_append_of_lt _ hcolumn,
        insideCrLf_line_iff hcontent hending hcolumn, lineContent_append hcontent (.inr hending)]
    | succ n =>
      obtain ⟨behind, rfl, hbehind⟩ := standsAt_cons_succ_iff.mp h
      rw [List.flatten_cons]
      by_cases hzero : behind = 0
      · -- the start of a line: the break before it is whole
        have hcolumn : column = 0 := by
          have := hbehind.offset_eq
          omega
        rw [hzero, hcolumn, Nat.add_zero, insideCrLf_append_length]
        refine iff_of_false ?_ (Nat.not_lt_zero _)
        rintro ⟨hcr, hlf⟩
        rw [mem_lineBreaks_iff] at hending
        rcases hending with rfl | rfl | rfl
        · simp at hcr
        · simp at hcr
        · exact hwhole rfl hlf
      · rw [insideCrLf_append_add (by omega), ih hbehind]

end HeadlessEditor.Text
