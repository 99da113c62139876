/-
  HeadlessEditor.Proofs.Snippet.Extent

  Where the tab stops of a template lie.  Whatever the template, also one that
  is cut short or nested in a strange way, the scanner marks only text that it
  has written (`Scanner.Bounded`): what is open began no later than here, and a
  mark reaches from where its construct began up to here.

  The stops that the marks are gathered in are so laid out in the text
  (`TabStop.Laid`), and stay so in any text the snippet's is a piece of.
-/

import HeadlessEditor.Proofs.Snippet.Grouping
import HeadlessEditor.Snippet.Scanner

namespace HeadlessEditor

-- ============================================================================
-- Stops laid out in a text
-- ============================================================================

namespace TabStop

variable {length length' : Nat} {stop : TabStop} {stops : List TabStop}

/-- The spans of a stop are some spans of a text of `length` characters, ordered by their
starts. -/
structure Within (length : Nat) (stop : TabStop) : Prop where
  spans_ne_nil : stop.spans ≠ []
  span_le : ∀ span ∈ stop.spans, span.start ≤ span.stop ∧ span.stop ≤ length
  starts_sorted : stop.spans.Pairwise fun a b => a.start ≤ b.start

/-- Stops in visiting order, with spans of a text of `length` characters. -/
structure Laid (length : Nat) (stops : List TabStop) : Prop where
  ordered : stops.Pairwise fun a b => Precedes a.number b.number
  within : ∀ stop ∈ stops, stop.Within length

theorem Within.mono (h : stop.Within length) (hle : length ≤ length') : stop.Within length' where
  spans_ne_nil := h.spans_ne_nil
  span_le span hspan := by
    have := h.span_le span hspan
    omega
  starts_sorted := h.starts_sorted

theorem Laid.mono (h : Laid length stops) (hle : length ≤ length') : Laid length' stops where
  ordered := h.ordered
  within stop hstop := (h.within stop hstop).mono hle

/-- A map of the spans that keeps the order of offsets keeps stops laid out. -/
theorem Laid.map_spans (h : Laid length stops) {move : Span → Span}
    (hspan : ∀ s : Span, s.start ≤ s.stop → s.stop ≤ length →
      (move s).start ≤ (move s).stop ∧ (move s).stop ≤ length')
    (hstart : ∀ a b : Span, a.start ≤ b.start → b.start ≤ length →
      (move a).start ≤ (move b).start) :
    Laid length' (stops.map fun stop => { stop with spans := stop.spans.map move }) where
  ordered := List.pairwise_map.mpr h.ordered
  within := by
    rw [List.forall_mem_map]
    intro stop hstop
    have hwithin := h.within stop hstop
    refine ⟨?_, ?_, ?_⟩
    · simpa using hwithin.spans_ne_nil
    · rw [List.forall_mem_map]
      intro span hmem
      obtain ⟨hle, hlength⟩ := hwithin.span_le span hmem
      exact hspan span hle hlength
    · rw [List.pairwise_map]
      refine hwithin.starts_sorted.imp_of_mem fun {a b} _ hb hab => hstart a b hab ?_
      obtain ⟨hle, hlength⟩ := hwithin.span_le b hb
      exact Nat.le_trans hle hlength

/-- Stops of a text, in a text that has it behind `distance` characters. -/
theorem Laid.shift (h : Laid length stops) (distance : Nat) :
    Laid (distance + length) (stops.map (·.shift distance)) :=
  h.map_spans
    (fun _ hle hlength => ⟨Nat.add_le_add_left hle _, Nat.add_le_add_left hlength _⟩)
    fun _ _ hle _ => Nat.add_le_add_left hle _

/-- Stops that gather marks of a text are laid out in it. -/
theorem Groups.laid {marks : List Mark} (h : Groups marks stops)
    (hmarks : ∀ m ∈ marks, m.span.start ≤ m.span.stop ∧ m.span.stop ≤ length) :
    Laid length stops where
  ordered := h.ordered
  within stop hstop := by
    have hspans := h.spans_perm stop hstop
    refine ⟨?_, ?_, ?_⟩
    · intro hnil
      obtain ⟨m, hm, hnumber⟩ := List.mem_map.mp ((h.number_mem stop.number).mp
        (List.mem_map_of_mem hstop))
      have hmem : m.span ∈ stop.spans := by
        apply hspans.mem_iff.mpr
        apply List.mem_map_of_mem
        exact List.mem_filter.mpr ⟨hm, beq_iff_eq.mpr hnumber⟩
      rw [hnil] at hmem
      cases hmem
    · intro span hspan
      obtain ⟨m, hm, rfl⟩ := List.mem_map.mp (hspans.mem_iff.mp hspan)
      exact hmarks m (List.mem_filter.mp hm).1
    · refine (h.spans_sorted stop hstop).imp fun hab => ?_
      omega

end TabStop

-- ============================================================================
-- Scanning
-- ============================================================================

namespace Snippet

variable {length length' : Nat}

/-- An open construct began within the first `length` characters. -/
def Frame.Begun (length : Nat) : Frame → Prop
  | .variable => True
  | .field _ start => start ≤ length

/-- So did the choices that are being read. -/
def Mode.Begun (length : Nat) : Mode → Prop
  | .choice c | .choiceEscape c | .choiceBar c => c.start ≤ length
  | .plain | .escape | .dollar | .bare _ | .opened | .numbered _ | .named => True

theorem Frame.Begun.mono {frame : Frame} (h : frame.Begun length) (hle : length ≤ length') :
    frame.Begun length' := by
  cases frame with
  | «variable» => trivial
  | field number start => exact Nat.le_trans h hle

theorem Mode.Begun.mono {mode : Mode} (h : mode.Begun length) (hle : length ≤ length') :
    mode.Begun length' := by
  cases mode with
  | choice c => exact Nat.le_trans h hle
  | choiceEscape c => exact Nat.le_trans h hle
  | choiceBar c => exact Nat.le_trans h hle
  | _ => trivial

namespace Scanner

variable {s : Scanner} {c : Char} {choice : Choice}

/-- All marks are of text that has been written, and so is where the open constructs began. -/
structure Bounded (s : Scanner) : Prop where
  mark_le : ∀ m ∈ s.marks, m.span.start ≤ m.span.stop ∧ m.span.stop ≤ s.text.size
  frame_begun : ∀ frame ∈ s.frames, frame.Begun s.text.size
  mode_begun : s.mode.Begun s.text.size

theorem bounded_start : start.Bounded where
  mark_le := fun _ hm => absurd hm List.not_mem_nil
  frame_begun := fun _ hframe => absurd hframe List.not_mem_nil
  mode_begun := trivial

theorem text_leave (s : Scanner) (frame : Frame) : (s.leave frame).text = s.text := by
  cases frame <;> rfl

theorem frames_settle (s : Scanner) : s.settle.frames = s.frames := by
  obtain ⟨text, marks, frames, mode⟩ := s
  cases mode with
  | choiceBar choice =>
    show (if choice.first then _ else _ : Scanner).frames = frames
    split <;> rfl
  | _ => rfl

theorem size_le_push (s : Scanner) (c : Char) : s.text.size ≤ (s.push c).text.size := by
  rw [Scanner.push, Array.size_push]
  exact Nat.le_succ _

/-- Only the first choice is written. -/
theorem size_le_pushFirst (s : Scanner) (choice : Choice) (c : Char) :
    s.text.size ≤ (if choice.first then s.push c else s).text.size := by
  split
  · exact size_le_push s c
  · exact Nat.le_refl _

namespace Bounded

theorem enter (h : s.Bounded) {mode : Mode} (hmode : mode.Begun s.text.size) :
    (s.enter mode).Bounded :=
  ⟨h.mark_le, h.frame_begun, hmode⟩

theorem push (h : s.Bounded) (c : Char) : (s.push c).Bounded where
  mark_le m hm := by
    have := h.mark_le m hm
    have := size_le_push s c
    omega
  frame_begun frame hframe := (h.frame_begun frame hframe).mono (size_le_push s c)
  mode_begun := h.mode_begun.mono (size_le_push s c)

theorem mark (h : s.Bounded) (number : Nat) {start : Nat} (hstart : start ≤ s.text.size) :
    (s.mark number start).Bounded where
  mark_le := List.forall_mem_cons.mpr ⟨⟨hstart, Nat.le_refl _⟩, h.mark_le⟩
  frame_begun := h.frame_begun
  mode_begun := h.mode_begun

theorem nest (h : s.Bounded) {frame : Frame} (hframe : frame.Begun s.text.size) :
    (s.nest frame).Bounded where
  mark_le := h.mark_le
  frame_begun := List.forall_mem_cons.mpr ⟨hframe, h.frame_begun⟩
  mode_begun := trivial

theorem leave (h : s.Bounded) {frame : Frame} (hframe : frame.Begun s.text.size) :
    (s.leave frame).Bounded := by
  cases frame with
  | «variable» => exact h
  | field number start => exact h.mark number hframe

theorem pushFirst (h : s.Bounded) (c : Char) : (if choice.first then s.push c else s).Bounded := by
  split
  · exact h.push c
  · exact h

theorem stepPlain (h : s.Bounded) (c : Char) : (s.stepPlain c).Bounded := by
  rw [Scanner.stepPlain]
  split
  · exact h.enter trivial
  split
  · exact h.enter trivial
  split
  · cases hframes : s.frames with
    | nil => exact (h.push c).enter trivial
    | cons frame outer =>
      obtain ⟨hframe, houter⟩ := List.forall_mem_cons.mp (hframes ▸ h.frame_begun)
      have hinner : Bounded { s with frames := outer } := ⟨h.mark_le, houter, h.mode_begun⟩
      exact (hinner.leave hframe).enter trivial
  · exact (h.push c).enter trivial

theorem stepChoice (h : s.Bounded) (hchoice : choice.start ≤ s.text.size) (c : Char) :
    (s.stepChoice choice c).Bounded := by
  rw [Scanner.stepChoice]
  split
  · exact h.enter hchoice
  split
  · exact h.enter hchoice
  split
  · exact h.enter hchoice
  · exact (h.pushFirst c).enter (Nat.le_trans hchoice (size_le_pushFirst s choice c))

theorem step (h : s.Bounded) (c : Char) : (s.step c).Bounded := by
  have hmode := h.mode_begun
  rw [Scanner.step]
  cases hs : s.mode with
  | plain => exact h.stepPlain c
  | escape => exact (h.push c).enter trivial
  | dollar =>
    simp only
    split
    · exact h.enter trivial
    split
    · exact h.enter trivial
    · exact (h.push '$').stepPlain c
  | bare number =>
    simp only
    split
    · exact h.enter trivial
    · exact (h.mark number (Nat.le_refl _)).stepPlain c
  | opened =>
    simp only
    split
    · exact h.enter trivial
    split
    · exact h.enter trivial
    split
    · exact h.nest trivial
    · exact h.enter trivial
  | numbered number =>
    simp only
    split
    · exact h.enter trivial
    split
    · exact h.enter (Nat.le_refl _)
    split
    · exact (h.mark number (Nat.le_refl _)).enter trivial
    · exact h.nest (Nat.le_refl _)
  | named =>
    simp only
    split
    · exact h
    split
    · exact h.nest trivial
    · exact h.enter trivial
  | choice choice =>
    rw [hs] at hmode
    exact h.stepChoice hmode c
  | choiceEscape choice =>
    rw [hs] at hmode
    exact (h.pushFirst c).enter (Nat.le_trans hmode (size_le_pushFirst s choice c))
  | choiceBar choice =>
    rw [hs] at hmode
    simp only
    split
    · exact (h.mark choice.number hmode).enter trivial
    · exact (h.pushFirst '|').stepChoice (Nat.le_trans hmode (size_le_pushFirst s choice '|')) c

theorem settle (h : s.Bounded) : s.settle.Bounded := by
  have hmode := h.mode_begun
  rw [Scanner.settle]
  cases hs : s.mode with
  | dollar => exact h.push '$'
  | bare number => exact h.mark number (Nat.le_refl _)
  | numbered number => exact h.mark number (Nat.le_refl _)
  | choice choice =>
    rw [hs] at hmode
    exact h.mark choice.number hmode
  | choiceEscape choice =>
    rw [hs] at hmode
    exact h.mark choice.number hmode
  | choiceBar choice =>
    rw [hs] at hmode
    exact (h.pushFirst '|').mark choice.number
      (Nat.le_trans hmode (size_le_pushFirst s choice '|'))
  | plain => exact h
  | escape => exact h
  | opened => exact h
  | named => exact h

theorem leaveAll (h : s.Bounded) {frames : List Frame}
    (hframes : ∀ frame ∈ frames, frame.Begun s.text.size) :
    (frames.foldl Scanner.leave s).Bounded := by
  induction frames generalizing s with
  | nil => exact h
  | cons frame outer ih =>
    obtain ⟨hframe, houter⟩ := List.forall_mem_cons.mp hframes
    rw [← text_leave s frame] at houter
    exact ih (h.leave hframe) houter

theorem finish (h : s.Bounded) : s.finish.Bounded := by
  apply h.settle.leaveAll
  rw [← frames_settle s]
  exact h.settle.frame_begun

end Bounded

theorem bounded_scan (h : s.Bounded) (template : Text) : (scan s template).Bounded := by
  induction template generalizing s with
  | nil => exact h
  | cons c rest ih => exact ih (h.step c)

end Scanner

/-- The stops of any template are laid out in its text. -/
theorem laid_stops_parse (template : Text) :
    TabStop.Laid (parse template).text.length (parse template).stops :=
  (TabStop.groups_allOfMarks _).laid
    (Scanner.bounded_scan Scanner.bounded_start template).finish.mark_le

end Snippet

end HeadlessEditor
