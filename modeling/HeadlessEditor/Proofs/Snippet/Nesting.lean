/-
  HeadlessEditor.Proofs.Snippet.Nesting

  What any template is read as.  A construct ends before the ones it is in do,
  so that the spans of two tab stops never overlap in part
  (`Span.Nests`).  While the template is read, no mark reaches over the place
  where an open construct began (`Nested`): the marks before that place end
  there at the latest, and those behind it are made within the construct.

  A character of the template is written once at most, some of them a step
  late: a dollar sign, and a bar among choices, stand for themselves only when
  it is known what follows (`Mode.held`).
-/

import HeadlessEditor.Proofs.Snippet.Extent
import Mathlib

namespace HeadlessEditor

-- ============================================================================
-- Spans that nest
-- ============================================================================

namespace Span

variable {a b : Span}

/-- Two spans do not overlap in part: they are disjoint, or one lies within the other. -/
def Nests (a b : Span) : Prop :=
  (a.stop ≤ b.start ∨ b.stop ≤ a.start) ∨
    (a.start ≤ b.start ∧ b.stop ≤ a.stop ∨ b.start ≤ a.start ∧ a.stop ≤ b.stop)

theorem Nests.refl (a : Span) : a.Nests a :=
  .inr (.inl ⟨Nat.le_refl _, Nat.le_refl _⟩)

theorem Nests.symm (h : a.Nests b) : b.Nests a :=
  h.imp Or.symm Or.symm

/-- A span does not reach over a place in the text. -/
def ClearOf (a : Span) (place : Nat) : Prop :=
  a.stop ≤ place ∨ place ≤ a.start

end Span

namespace Snippet

variable {length place : Nat} {marks : List Mark} {places : List Nat}

/-- Marks that nest, with none over a place where an open construct began.  These places are given
from the innermost construct outwards. -/
structure Nested (marks : List Mark) (places : List Nat) : Prop where
  nests : ∀ m ∈ marks, ∀ m' ∈ marks, m.span.Nests m'.span
  clear : ∀ place ∈ places, ∀ m ∈ marks, m.span.ClearOf place
  sorted : places.Pairwise fun inner outer => outer ≤ inner

/-- A construct begins at the end of what has been written. -/
theorem Nested.begin (h : Nested marks places) (hmarks : ∀ m ∈ marks, m.span.stop ≤ length)
    (hplaces : ∀ place ∈ places, place ≤ length) : Nested marks (length :: places) where
  nests := h.nests
  clear := List.forall_mem_cons.mpr ⟨fun m hm => .inl (hmarks m hm), h.clear⟩
  sorted := List.pairwise_cons.mpr ⟨hplaces, h.sorted⟩

/-- The innermost construct ends, and is marked up to the end of what has been written. -/
theorem Nested.close (h : Nested marks (place :: places))
    (hmarks : ∀ m ∈ marks, m.span.stop ≤ length) (number : Nat) :
    Nested (⟨number, ⟨place, length⟩⟩ :: marks) places := by
  obtain ⟨hclear, houter⟩ := List.forall_mem_cons.mp h.clear
  obtain ⟨hinner, hsorted⟩ := List.pairwise_cons.mp h.sorted
  have hnew : ∀ m ∈ marks, (⟨place, length⟩ : Span).Nests m.span := by
    intro m hm
    rcases hclear m hm with hbefore | hwithin
    · exact .inl (.inr hbefore)
    · exact .inr (.inl ⟨hwithin, hmarks m hm⟩)
  refine ⟨?_, ?_, hsorted⟩
  · rw [List.forall_mem_cons]
    refine ⟨List.forall_mem_cons.mpr ⟨.refl _, hnew⟩, fun m hm => ?_⟩
    exact List.forall_mem_cons.mpr ⟨(hnew m hm).symm, h.nests m hm⟩
  · intro outer hmem
    exact List.forall_mem_cons.mpr ⟨.inr (hinner outer hmem), houter outer hmem⟩

-- ============================================================================
-- Scanning
-- ============================================================================

/-- Where a construct began, if it leaves a mark. -/
def Frame.starts : Frame → List Nat
  | .variable => []
  | .field _ start => [start]

/-- Where the choices began that are being read. -/
def Mode.starts : Mode → List Nat
  | .choice c | .choiceEscape c | .choiceBar c => [c.start]
  | .plain | .escape | .dollar | .bare _ | .opened | .numbered _ | .named => []

namespace Scanner

variable {s : Scanner} {c : Char} {choice : Choice} {frames : List Frame}

/-- Where the constructs began that are open around what is being read. -/
def outerStarts (s : Scanner) : List Nat :=
  s.frames.flatMap Frame.starts

/-- The marks so far nest, with each other and with what is open. -/
def Nests (s : Scanner) : Prop :=
  Nested s.marks (s.mode.starts ++ s.outerStarts)

theorem nests_start : start.Nests where
  nests := fun _ hm => absurd hm List.not_mem_nil
  clear := fun _ hplace => absurd hplace List.not_mem_nil
  sorted := .nil

namespace Bounded

theorem stop_le (h : s.Bounded) : ∀ m ∈ s.marks, m.span.stop ≤ s.text.size :=
  fun m hm => (h.mark_le m hm).2

theorem outerStarts_le (h : s.Bounded) : ∀ place ∈ s.outerStarts, place ≤ s.text.size := by
  intro place hplace
  obtain ⟨frame, hframe, hstart⟩ := List.mem_flatMap.mp hplace
  have hbegun := h.frame_begun frame hframe
  cases frame with
  | «variable» => cases hstart
  | field number start =>
    obtain rfl := List.mem_singleton.mp hstart
    exact hbegun

/-- A construct begins here. -/
theorem nested_begin (hb : s.Bounded) (h : Nested s.marks s.outerStarts) :
    Nested s.marks (s.text.size :: s.outerStarts) :=
  h.begin hb.stop_le hb.outerStarts_le

/-- A tab stop begins and ends here. -/
theorem nested_markHere (hb : s.Bounded) (h : Nested s.marks s.outerStarts) (number : Nat) :
    Nested (s.mark number s.text.size).marks s.outerStarts :=
  (hb.nested_begin h).close hb.stop_le number

end Bounded

/-- The innermost construct ends here. -/
theorem nested_leave {frame : Frame} (hmarks : ∀ m ∈ s.marks, m.span.stop ≤ s.text.size)
    (h : Nested s.marks (frame.starts ++ places)) : Nested (s.leave frame).marks places := by
  cases frame with
  | «variable» => exact h
  | field number start => exact h.close hmarks number

theorem nests_stepPlain (hb : s.Bounded) (h : Nested s.marks s.outerStarts) (c : Char) :
    (s.stepPlain c).Nests := by
  rw [stepPlain]
  split
  · exact h
  split
  · exact h
  split
  · cases hframes : s.frames with
    | nil => exact h
    | cons frame outer =>
      rw [outerStarts, hframes, List.flatMap_cons] at h
      have hleft := nested_leave (s := { s with frames := outer }) hb.stop_le h
      have houter : ({ s with frames := outer }.leave frame).frames = outer := by
        cases frame <;> rfl
      show Nested _ (List.flatMap Frame.starts ({ s with frames := outer }.leave frame).frames)
      rw [houter]
      exact hleft
  · exact h

/-- Whether a choice is kept makes no difference to the marks. -/
theorem nests_pushFirst {mode : Mode} (h : Nested s.marks (mode.starts ++ s.outerStarts))
    (choice : Choice) (c : Char) :
    ((if choice.first then s.push c else s).enter mode).Nests := by
  split <;> exact h

theorem nests_stepChoice (h : Nested s.marks (choice.start :: s.outerStarts)) (c : Char) :
    (s.stepChoice choice c).Nests := by
  rw [stepChoice]
  split
  · exact h
  split
  · exact h
  split
  · exact h
  · exact nests_pushFirst h choice c

theorem Nests.step (h : s.Nests) (hb : s.Bounded) (c : Char) : (s.step c).Nests := by
  rw [Nests] at h
  rw [Scanner.step]
  generalize hs : s.mode = mode at h ⊢
  cases mode with
  | plain =>
    exact nests_stepPlain hb h c
  | escape =>
    exact h
  | dollar =>
    simp only
    split
    · exact h
    split
    · exact h
    · exact nests_stepPlain (hb.push '$') h c
  | bare number =>
    simp only
    split
    · exact h
    · exact nests_stepPlain (hb.mark number (Nat.le_refl _)) (hb.nested_markHere h number) c
  | opened =>
    simp only
    split
    · exact h
    split
    · exact h
    split <;> exact h
  | numbered number =>
    simp only
    split
    · exact h
    split
    · exact hb.nested_begin h
    split
    · exact hb.nested_markHere h number
    · exact hb.nested_begin h
  | named =>
    simp only
    split
    · rw [Nests, hs]
      exact h
    split <;> exact h
  | choice choice =>
    exact nests_stepChoice h c
  | choiceEscape choice =>
    exact nests_pushFirst h choice c
  | choiceBar choice =>
    simp only
    split
    · exact h.close hb.stop_le choice.number
    · split
      · exact nests_stepChoice (s := s.push '|') h c
      · exact nests_stepChoice h c

theorem nests_scan (h : s.Nests) (hb : s.Bounded) (template : Text) : (scan s template).Nests := by
  induction template generalizing s with
  | nil => exact h
  | cons c rest ih => exact ih (h.step hb c) (hb.step c)

/-- What the mode has begun is closed first. -/
theorem Nests.settle (h : s.Nests) (hb : s.Bounded) : Nested s.settle.marks s.outerStarts := by
  rw [Nests] at h
  rw [Scanner.settle]
  generalize s.mode = mode at h ⊢
  cases mode with
  | bare number =>
    exact hb.nested_markHere h number
  | numbered number =>
    exact hb.nested_markHere h number
  | choice choice =>
    exact h.close hb.stop_le choice.number
  | choiceEscape choice =>
    exact h.close hb.stop_le choice.number
  | choiceBar choice =>
    simp only
    split
    · exact h.close (hb.push '|').stop_le choice.number
    · exact h.close hb.stop_le choice.number
  | _ => exact h

/-- Then the constructs around it are, from the innermost outwards. -/
theorem nested_leaveAll (hb : s.Bounded) (hframes : ∀ frame ∈ frames, frame.Begun s.text.size)
    (h : Nested s.marks (frames.flatMap Frame.starts)) :
    Nested (frames.foldl Scanner.leave s).marks [] := by
  induction frames generalizing s with
  | nil => exact h
  | cons frame outer ih =>
    obtain ⟨hframe, houter⟩ := List.forall_mem_cons.mp hframes
    rw [← text_leave s frame] at houter
    exact ih (hb.leave hframe) houter (nested_leave hb.stop_le h)

/-- At the end nothing is open, and the marks nest. -/
theorem Nests.finish (h : s.Nests) (hb : s.Bounded) : Nested s.finish.marks [] := by
  have hframes := hb.settle.frame_begun
  rw [frames_settle] at hframes
  exact nested_leaveAll hb.settle hframes (h.settle hb)

end Scanner

-- ============================================================================
-- Lengths
-- ============================================================================

/-- How many of the characters that have been read may be written yet. -/
def Mode.held : Mode → Nat
  | .dollar => 1
  | .choiceBar c => c.first.toNat
  | .plain | .escape | .bare _ | .opened | .numbered _ | .named | .choice _ | .choiceEscape _ => 0

namespace Scanner

/-- The length of what has been written and may be written yet. -/
def reach (s : Scanner) : Nat :=
  s.text.size + s.mode.held

theorem size_push (s : Scanner) (c : Char) : (s.push c).text.size = s.text.size + 1 :=
  Array.size_push c

theorem size_pushFirst (s : Scanner) (choice : Choice) (c : Char) :
    (if choice.first then s.push c else s).text.size = s.text.size + choice.first.toNat := by
  cases choice.first with
  | true => exact size_push s c
  | false => rfl

theorem reach_pushFirst_le (s : Scanner) (choice : Choice) (c : Char) {mode : Mode}
    (hmode : mode.held = 0) :
    ((if choice.first then s.push c else s).enter mode).reach ≤ s.text.size + 1 := by
  have hsize := size_pushFirst s choice c
  have hkept := choice.first.toNat_le
  show (if choice.first then s.push c else s).text.size + mode.held ≤ _
  omega

theorem reach_stepPlain_le (s : Scanner) (c : Char) : (s.stepPlain c).reach ≤ s.text.size + 1 := by
  have hpush := size_push s c
  have hpushed : ((s.push c).enter .plain).reach ≤ s.text.size + 1 := Nat.le_of_eq hpush
  rw [stepPlain]
  split
  · exact Nat.le_succ _
  split
  · exact Nat.le_refl _
  split
  · cases s.frames with
    | nil => exact hpushed
    | cons frame outer =>
      have htext := text_leave { s with frames := outer } frame
      show ({ s with frames := outer }.leave frame).text.size ≤ s.text.size + 1
      rw [htext]
      exact Nat.le_succ _
  · exact hpushed

theorem reach_stepChoice_le (s : Scanner) (choice : Choice) (c : Char) :
    (s.stepChoice choice c).reach ≤ s.text.size + 1 := by
  rw [stepChoice]
  split
  · exact Nat.add_le_add_left choice.first.toNat_le _
  split
  · exact Nat.le_succ _
  split
  · exact Nat.le_succ _
  · exact reach_pushFirst_le s choice c rfl

/-- A character lengthens what is written, now or a step later, by one character at most. -/
theorem reach_step_le (s : Scanner) (c : Char) : (s.step c).reach ≤ s.reach + 1 := by
  have hreach : s.reach = s.text.size + s.mode.held := rfl
  rw [Scanner.step, hreach]
  cases hs : s.mode with
  | plain => exact reach_stepPlain_le s c
  | escape => exact Nat.le_of_eq (size_push s c)
  | dollar =>
    simp only
    split
    · exact Nat.le_add_right s.text.size 2
    split
    · exact Nat.le_add_right s.text.size 2
    · have hstep := reach_stepPlain_le (s.push '$') c
      rwa [size_push] at hstep
  | bare number =>
    simp only
    split
    · exact Nat.le_succ _
    · exact reach_stepPlain_le (s.mark number s.text.size) c
  | opened =>
    simp only
    split
    · exact Nat.le_succ _
    split
    · exact Nat.le_succ _
    split <;> exact Nat.le_succ _
  | numbered number =>
    simp only
    split
    · exact Nat.le_succ _
    split
    · exact Nat.le_succ _
    split <;> exact Nat.le_succ _
  | named =>
    simp only
    split
    · rw [reach, hs]
      exact Nat.le_succ _
    split <;> exact Nat.le_succ _
  | choice choice => exact reach_stepChoice_le s choice c
  | choiceEscape choice => exact reach_pushFirst_le s choice c rfl
  | choiceBar choice =>
    simp only
    split
    · exact Nat.le_trans (Nat.le_succ _) (Nat.add_le_add_right (Nat.le_add_right _ _) 1)
    · have hstep := reach_stepChoice_le (if choice.first then s.push '|' else s) choice c
      rwa [size_pushFirst] at hstep

theorem reach_scan_le (s : Scanner) (template : Text) :
    (scan s template).reach ≤ s.reach + template.length := by
  induction template generalizing s with
  | nil => exact Nat.le_refl _
  | cons c rest ih =>
    have hstep := reach_step_le s c
    have hrest := ih (s.step c)
    rw [List.length_cons]
    show (scan (s.step c) rest).reach ≤ _
    omega

/-- At the end, what may be written yet is. -/
theorem size_settle (s : Scanner) : s.settle.text.size = s.reach := by
  rw [Scanner.settle, reach]
  cases s.mode with
  | dollar => exact size_push s '$'
  | choiceBar choice => exact size_pushFirst s choice '|'
  | _ => rfl

theorem text_leaveAll (frames : List Frame) (s : Scanner) :
    (frames.foldl Scanner.leave s).text = s.text := by
  induction frames generalizing s with
  | nil => rfl
  | cons frame outer ih => rw [List.foldl_cons, ih, text_leave]

theorem size_finish (s : Scanner) : s.finish.text.size = s.reach := by
  rw [Scanner.finish, text_leaveAll, size_settle]

end Scanner

-- ============================================================================
-- Templates
-- ============================================================================

/-- What makes a snippet read from a template of `length` characters well formed: its text is no
longer than the template, and its tab stops have distinct numbers, ascending but for 0, which is
last; each of them has spans of the text, in order, and no two spans of the snippet overlap in
part. -/
structure WellFormed (length : Nat) (snippet : Snippet) : Prop where
  length_le : snippet.text.length ≤ length
  ordered : snippet.stops.Pairwise fun a b => TabStop.Precedes a.number b.number
  spans_ne_nil : ∀ stop ∈ snippet.stops, stop.spans ≠ []
  spans_sorted : ∀ stop ∈ snippet.stops,
    stop.spans.Pairwise fun a b => a.start < b.start ∨ a.start = b.start ∧ a.stop ≤ b.stop
  span_le : ∀ stop ∈ snippet.stops, ∀ span ∈ stop.spans,
    span.start ≤ span.stop ∧ span.stop ≤ snippet.text.length
  spans_nest : ∀ stop ∈ snippet.stops, ∀ stop' ∈ snippet.stops,
    ∀ span ∈ stop.spans, ∀ span' ∈ stop'.spans, span.Nests span'

/-- Any template is read as a well-formed snippet, also one that is cut short, or whose braces,
choices and escapes do not fit together. -/
theorem wellFormed_parse (template : Text) : WellFormed template.length (parse template) := by
  have hbounded := Scanner.bounded_scan Scanner.bounded_start template
  have hmarks := (Scanner.nests_scan Scanner.nests_start Scanner.bounded_start template).finish
    hbounded
  have hgroups : TabStop.Groups (scan Scanner.start template).finish.marks (parse template).stops :=
    TabStop.groups_allOfMarks _
  have hlaid := laid_stops_parse template
  have hspan : ∀ stop ∈ (parse template).stops, ∀ span ∈ stop.spans,
      ∃ m ∈ (scan Scanner.start template).finish.marks, m.span = span := by
    intro stop hstop span hspan
    obtain ⟨m, hm, hmspan⟩ :=
      List.mem_map.mp ((hgroups.spans_perm stop hstop).mem_iff.mp hspan)
    exact ⟨m, (List.mem_filter.mp hm).1, hmspan⟩
  refine ⟨?_, hlaid.ordered, fun stop hstop => (hlaid.within stop hstop).spans_ne_nil,
    hgroups.spans_sorted, fun stop hstop => (hlaid.within stop hstop).span_le, ?_⟩
  · have hreach := Scanner.reach_scan_le Scanner.start template
    have hstart : Scanner.start.reach = 0 := rfl
    show (scan Scanner.start template).finish.text.toList.length ≤ _
    rw [Array.length_toList, Scanner.size_finish]
    omega
  · intro stop hstop stop' hstop' span hs span' hs'
    obtain ⟨m, hm, rfl⟩ := hspan stop hstop span hs
    obtain ⟨m', hm', rfl⟩ := hspan stop' hstop' span' hs'
    exact hmarks.nests m hm m' hm'

/-- A default and choices that are never closed. -/
example : parse "$\x7b2:a$\x7b1|b,c".toList = ⟨"ab".toList, [⟨1, [⟨1, 2⟩]⟩, ⟨2, [⟨0, 2⟩]⟩]⟩ := by
  decide_cbv

end Snippet

end HeadlessEditor
