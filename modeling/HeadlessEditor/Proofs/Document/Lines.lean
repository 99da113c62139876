/-
  HeadlessEditor.Proofs.Document.Lines

  A document by its lines.  Each line is content, in which nothing breaks a
  line, and a break, which only the last line is without
  (`apart_of_getElem?`).  Put together again they are the text, and a
  range over all the columns of a line covers its content
  (`inRange_fullLine`).
-/

import HeadlessEditor.Document.Basic
import HeadlessEditor.Proofs.Position.Conversion

namespace HeadlessEditor

namespace Text

variable {t line : Text} {n : Nat}

/-- What is cut off a line to get its content. -/
def trimmed (line : Text) : Text :=
  line.drop (lineContent line).length

theorem lineContent_append_trimmed (line : Text) : lineContent line ++ trimmed line = line :=
  List.prefix_iff_eq_append.mp (List.take_prefix _ _)

/-- Content and break of a line of a text, wherever it is in it. -/
theorem apart_of_getElem? (h : t.lines[n]? = some line) :
    Unbroken (lineContent line) ∧
      trimmed line ∈ if n + 1 < t.lineCount then lineBreaks else [[]] := by
  obtain ⟨content, ending, rfl, hcontent, hlast⟩ := (broken_lines t).exists_eq_append h
  have hending : ending = [] ∨ ending ∈ lineBreaks := hlast.imp And.left And.left
  rw [trimmed, lineContent_append hcontent hending, List.drop_left, lineCount]
  refine ⟨hcontent, ?_⟩
  rcases hlast with ⟨hnil, hn⟩ | ⟨hmem, hn⟩
  · rw [if_neg (by omega), List.mem_singleton]
    exact hnil
  · rwa [if_pos hn]

theorem flatMap_lines (t : Text) :
    (t.lines.flatMap fun line => lineContent line ++ trimmed line) = t := by
  simp only [lineContent_append_trimmed]
  rw [List.flatMap_id', flatten_lines]

/-- A beginning of a line, in its text. -/
theorem slice_lineStart {column : Nat} (h : t.lines[n]? = some line)
    (hcolumn : column ≤ line.length) :
    t.slice (t.lineStart n) (t.lineStart n + column) = line.take column := by
  obtain ⟨hn, hline⟩ := List.getElem?_eq_some_iff.mp h
  have ht : (t.lines.take n).flatten ++ (line ++ (t.lines.drop (n + 1)).flatten) = t := by
    rw [← List.flatten_cons, ← hline, ← List.drop_eq_getElem_cons, ← List.flatten_append,
      List.take_append_drop, flatten_lines]
  have hpiece : slice ((t.lines.take n).flatten ++ (line ++ (t.lines.drop (n + 1)).flatten))
      (t.lineStart n) (t.lineStart n + column) = line.take column := by
    rw [slice, lineStart, List.take_length_add_append, List.drop_left,
      List.take_append_of_le_length hcolumn]
  rwa [ht] at hpiece

/-- The range from the start of a line up to the last column there can be. -/
def fullLine (n : UInt32) : Range :=
  ⟨⟨n, 0⟩, ⟨n, 4294967295⟩⟩

theorem inRange_fullLine {n : UInt32} (h : t.lines[n.toNat]? = some line)
    (hunits : unitLength line < UInt32.size) : t.inRange (fullLine n) = lineContent line := by
  have hcontent : unitLength (lineContent line) ≤ 4294967295 := by
    have hle := unitLength_take_le line (line.length - (lineBreak line).length)
    rw [← lineContent] at hle
    exact Nat.le_of_lt_succ (Nat.lt_of_le_of_lt hle hunits)
  have hstart : t.offsetAt (fullLine n).start = t.lineStart n.toNat := by
    rw [offsetAt_of_getElem? h]
    exact congrArg _ (charsWithin_unitLength_take (Nat.zero_le _))
  have hstop : t.offsetAt (fullLine n).stop
      = t.lineStart n.toNat + (lineContent line).length := by
    rw [offsetAt_of_getElem? h]
    exact congrArg _ (charsWithin_of_unitLength_le hcontent)
  have hlength : (lineContent line).length ≤ line.length :=
    (List.take_prefix _ _).length_le
  rw [inRange, offsetsOf, hstart, hstop, Nat.min_eq_left (Nat.le_add_right _ _),
    Nat.max_eq_right (Nat.le_add_right _ _), slice_lineStart h hlength,
    ← take_lineContent (Nat.le_refl _), List.take_length]

end Text

/-- The content of each line of a document is without characters that break lines, and what is
trimmed off is one break, but for the last line, where it is nothing.  Contents and breaks, in
order, are the text; and the text of a full line is its content. -/
theorem TextDocument.lines_apart (d : TextDocument) :
    (∀ n < d.lineCount, ∃ line, d.text.lines[n]? = some line ∧
        '\r' ∉ line.lineContent ∧ '\n' ∉ line.lineContent ∧
        line.trimmed ∈ if n + 1 < d.lineCount then [['\n'], ['\r', '\n'], ['\r']] else [[]]) ∧
      (d.text.lines.flatMap fun line => line.lineContent ++ line.trimmed) = d.text ∧
      ∀ (n : UInt32) (line : Text), d.text.lines[n.toNat]? = some line →
        line.unitLength < UInt32.size → d.inRange (Text.fullLine n) = line.lineContent := by
  refine ⟨fun n hn => ?_, Text.flatMap_lines d.text, fun n line h hunits => ?_⟩
  · have hline : d.text.lines[n]? = some d.text.lines[n] := List.getElem?_eq_getElem hn
    obtain ⟨hcontent, htrimmed⟩ := Text.apart_of_getElem? hline
    exact ⟨_, hline, hcontent.2, hcontent.1, htrimmed⟩
  · exact Text.inRange_fullLine h hunits

/-- A document with a carriage return before a carriage return and line feed, and a break at the
end. -/
def brokenEveryWay : TextDocument where
  uri := "file:///a"
  languageId := "plaintext"
  version := 0
  text := ['a', '\r', '\r', '\n', 'b', '😀', '\n', '\r']

theorem TextDocument.lines_apart_brokenEveryWay :
    brokenEveryWay.text.lines[2]? = some ['b', '😀', '\n'] ∧
      Text.unitLength ['b', '😀', '\n'] < UInt32.size ∧
      brokenEveryWay.inRange (Text.fullLine 2) = ['b', '😀'] := by
  have hline : brokenEveryWay.text.lines[2]? = some ['b', '😀', '\n'] := by decide
  have hunits : Text.unitLength ['b', '😀', '\n'] < UInt32.size := by decide
  exact ⟨hline, hunits, (TextDocument.lines_apart brokenEveryWay).2.2 2 _ hline hunits⟩

end HeadlessEditor
