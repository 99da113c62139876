/-
  HeadlessEditor.Proofs.Change.Window

  A piece of a document under changes.  Changes that respect its span, each
  within it or clear of it, make of the piece what they make of it as a
  document of its own (`Text.slice_weave`): only those within it matter, with
  their offsets counted from where it starts (`Change.within`).

  The piece is found again between the new places of the span's ends, of
  which the start stays before what is inserted at it and the end goes behind.
  That end goes behind one inserted text only, so no two of the changes may
  meet.
-/

import HeadlessEditor.Proofs.Change.Canonical
import HeadlessEditor.Proofs.Change.Order

namespace HeadlessEditor

namespace Change

variable {lo hi n p q a pos written : Nat} {side : Assoc} {s : Span} {c : Change}
  {cs : List Change} {t : Text}

-- ============================================================================
-- Changes within a span
-- ============================================================================

/-- Whether a change lies within a span, of which the ends belong to it. -/
def liesIn (s : Span) (c : Change) : Bool :=
  s.start ≤ c.start && c.stop ≤ s.stop

/-- The change to a text that starts `distance` characters further on. -/
def moveBack (distance : Nat) (c : Change) : Change :=
  ⟨c.start - distance, c.stop - distance, c.text⟩

/-- The changes within a span, as changes to the text of the span. -/
def restrict (s : Span) (cs : List Change) : List Change :=
  (cs.filter (liesIn s)).map (moveBack s.start)

/-- No two changes meet, and each lies within the span or does not touch it. -/
structure Respects (s : Span) (cs : List Change) : Prop where
  apart : cs.Pairwise fun c d => c.stop < d.start
  lies_or_clear : ∀ c ∈ cs, liesIn s c = true ∨ c.stop < s.start ∨ s.stop < c.start

theorem liesIn_iff : liesIn s c = true ↔ s.start ≤ c.start ∧ c.stop ≤ s.stop := by
  simp [liesIn]

theorem Respects.stop_lt (h : Respects s cs) (hc : c ∈ cs) (hle : s.start ≤ s.stop)
    (hstart : c.start < s.start) : c.stop < s.start := by
  rcases h.lies_or_clear c hc with hlies | hbefore | hbehind
  · have := (liesIn_iff.mp hlies).1
    omega
  · exact hbefore
  · omega

theorem Respects.stop_le_or_lt (h : Respects s cs) (hc : c ∈ cs) (hspan : c.start ≤ c.stop)
    (hstart : s.start ≤ c.start) : c.stop ≤ s.stop ∨ s.stop < c.start := by
  rcases h.lies_or_clear c hc with hlies | hbefore | hbehind
  · exact .inl (liesIn_iff.mp hlies).2
  · omega
  · exact .inr hbehind

theorem Ascend.filter_liesIn (h : Ascend lo hi cs) (hle : s.start ≤ s.stop) :
    Ascend s.start s.stop (cs.filter (liesIn s)) := by
  refine ascend_of_pairwise hle (fun c hc => ?_) (h.pairwise.filter _)
  obtain ⟨hmem, hlies⟩ := List.mem_filter.mp hc
  obtain ⟨hstart, hstop⟩ := liesIn_iff.mp hlies
  exact ⟨hstart, (h.bounds hmem).2.1, hstop⟩

theorem Ascend.map_moveBack (h : Ascend lo hi cs) (ha : a ≤ lo) :
    Ascend (lo - a) (hi - a) (cs.map (moveBack a)) := by
  induction cs generalizing lo with
  | nil => exact Nat.sub_le_sub_right h a
  | cons c rest ih =>
    obtain ⟨hstart, hspan, hrest⟩ := h
    exact ⟨Nat.sub_le_sub_right hstart a, Nat.sub_le_sub_right hspan a, ih hrest (by omega)⟩

theorem Ascend.filter_stop_le_eq_nil (h : Ascend lo hi cs) (hbehind : ∀ c ∈ cs, pos < c.start) :
    cs.filter (fun c => c.stop ≤ pos) = [] := by
  rw [List.filter_eq_nil_iff]
  intro c hc
  have hspan := (h.bounds hc).2.1
  have hstart := hbehind c hc
  rw [decide_eq_true_eq]
  omega

/-- The changes within a span are in normal form for its text. -/
theorem Normal.restrict (h : Normal n cs) (hle : s.start ≤ s.stop) :
    Normal (s.stop - s.start) (restrict s cs) := by
  have hasc := (h.ascend.filter_liesIn hle).map_moveBack (Nat.le_refl s.start)
  refine ⟨fun c hc => (hasc.bounds hc).2, hasc.pairwise, ?_⟩
  intro c hc
  obtain ⟨d, hd, rfl⟩ := List.mem_map.mp hc
  obtain ⟨hmem, hlies⟩ := List.mem_filter.mp hd
  rintro ⟨hempty, htext⟩
  have hstart := (liesIn_iff.mp hlies).1
  have hspan := (h.span_le d hmem).1
  refine h.acts d hmem ⟨?_, htext⟩
  simp only [moveBack] at hempty
  omega

-- ============================================================================
-- Where the ends go
-- ============================================================================

/-- What no change reaches may be counted ahead. -/
theorem route_raise (h : Ascend p hi cs) (hlo : lo ≤ p) (hpq : p ≤ q) (written : Nat)
    (side : Assoc) :
    route written lo q side cs = route (written + (p - lo)) p q side cs := by
  cases cs with
  | nil =>
    rw [route, route]
    omega
  | cons c rest =>
    have hstart : written + (c.start - lo) = written + (p - lo) + (c.start - p) := by
      have := h.1
      omega
    have hpos : written + (q - lo) = written + (p - lo) + (q - p) := by omega
    rw [route, route, hstart, hpos]

/-- From an offset that none of the changes before it reaches, a later one is as far away as if the
document began there. -/
theorem route_eq_before_add (h : Ascend lo hi cs) (hlo : lo ≤ p) (hpq : p ≤ q)
    (hreach : ∀ c ∈ cs, c.start < p → c.stop < p) (side : Assoc) :
    route 0 lo q side cs
      = route 0 lo p .before cs + route 0 p q side (cs.filter fun c => p ≤ c.start) := by
  induction cs generalizing lo with
  | nil =>
    rw [List.filter_nil, route, route, route]
    omega
  | cons c rest ih =>
    obtain ⟨hstart, hspan, hrest⟩ := h
    obtain ⟨hreach₁, hreach'⟩ := List.forall_mem_cons.mp hreach
    by_cases hbehind : c.stop < p
    · have hih := ih hrest (by omega) hreach'
      rw [route, if_neg (by omega), if_pos (by omega), route, if_neg (by omega), if_pos hbehind,
        List.filter_cons_of_neg (by simp only [decide_eq_true_eq]; omega), route_eq_add, hih,
        route_eq_add (0 + (c.start - lo) + c.text.length) c.stop p]
      omega
    · have hall : Ascend p hi (c :: rest) := by
        refine ⟨?_, hspan, hrest⟩
        omega
      rw [filter_le_start_eq_self hall, route_raise hall hlo hpq, route_eq_add,
        route_before_eq_sub hall hlo, Nat.zero_add]

end Change

-- ============================================================================
-- Writing a piece of the new document
-- ============================================================================

namespace Text

open Change

variable {lo hi a pos : Nat} {s : Span} {cs : List Change}

theorem slice_drop (t : Text) {a b c : Nat} (hab : a ≤ b) (hac : a ≤ c) :
    slice (t.drop a) (b - a) (c - a) = t.slice b c := by
  rw [slice, List.take_drop, List.drop_drop, Nat.add_sub_cancel' hab, Nat.add_sub_cancel' hac,
    slice]

theorem slice_take (t : Text) {a b c : Nat} (hbc : b ≤ c) : slice (t.take c) a b = t.slice a b := by
  rw [slice, List.take_take, Nat.min_eq_left hbc, slice]

/-- The changes may be made to the text from any offset before them. -/
theorem weave_drop (h : Ascend lo hi cs) (ha : a ≤ lo) (t : Text) :
    weave (t.drop a) (lo - a) (cs.map (moveBack a)) = t.weave lo cs := by
  induction cs generalizing lo with
  | nil => rw [List.map_nil, weave, weave, List.drop_drop, Nat.add_sub_cancel' ha]
  | cons c rest ih =>
    obtain ⟨hstart, hspan, hrest⟩ := h
    rw [List.map_cons, weave, weave, ← ih hrest (by omega)]
    simp only [moveBack]
    rw [slice_drop t ha (by omega)]

/-- Of the new document, what comes before the new place of an offset is made by the changes up to
there, if none of them goes on and no two meet. -/
theorem take_weave (h : Ascend lo hi cs) (hlo : lo ≤ pos) {t : Text} (hpos : pos ≤ t.length)
    (hhi : hi ≤ t.length) (hapart : cs.Pairwise fun c d => c.stop < d.start)
    (hreach : ∀ c ∈ cs, c.stop ≤ pos ∨ pos < c.start) :
    (t.weave lo cs).take (route 0 lo pos .after cs)
      = weave (t.take pos) lo (cs.filter fun c => c.stop ≤ pos) := by
  induction cs generalizing lo with
  | nil => rw [route, Nat.zero_add, weave, List.filter_nil, weave, List.drop_take]
  | cons c rest ih =>
    obtain ⟨hstart, hspan, hrest⟩ := h
    have hle := hrest.le
    obtain ⟨hreach₁, hreach'⟩ := List.forall_mem_cons.mp hreach
    obtain ⟨hbetween, hapart'⟩ := List.pairwise_cons.mp hapart
    have hslice : (t.slice lo c.start).length = c.start - lo := by
      rw [length_slice]
      omega
    rw [route]
    by_cases hbefore : pos < c.start
    · have hall : Ascend pos hi (c :: rest) := ⟨Nat.le_of_lt hbefore, hspan, hrest⟩
      have hfirst : Ascend c.start hi (c :: rest) := ⟨Nat.le_refl _, hspan, hrest⟩
      have hnone := hall.filter_stop_le_eq_nil fun d hd =>
        Nat.lt_of_lt_of_le hbefore (hfirst.bounds hd).1
      have hlength : (t.slice lo pos).length = 0 + (pos - lo) := by
        rw [length_slice]
        omega
      rw [if_pos hbefore, hnone, ← slice_append_weave hall hlo, List.take_left' hlength, weave,
        slice]
    have hstop : c.stop ≤ pos := hreach₁.resolve_right hbefore
    have hkept : (c :: rest).filter (fun d => d.stop ≤ pos)
        = c :: rest.filter fun d => d.stop ≤ pos :=
      List.filter_cons_of_pos (decide_eq_true hstop)
    rw [if_neg hbefore, hkept, weave, weave, slice_take t (by omega)]
    by_cases hbehind : c.stop < pos
    · have hlength : 0 + (c.start - lo) + c.text.length = (t.slice lo c.start ++ c.text).length := by
        rw [List.length_append]
        omega
      rw [if_pos hbehind, route_eq_add, hlength, List.take_length_add_append,
        ih hrest (by omega) hapart' hreach']
    · -- the change stops at the offset, and the next one starts behind it
      have hnone := hrest.filter_stop_le_eq_nil fun d hd =>
        Nat.lt_of_le_of_lt (Nat.le_of_not_lt hbehind) (hbetween d hd)
      have hlength : (t.slice lo c.start ++ c.text).length
          = c.settle (0 + (c.start - lo)) pos .after := by
        rw [settle, List.length_append]
        omega
      have hend : (t.take pos).drop c.stop = [] := by
        rw [List.drop_eq_nil_iff, List.length_take]
        omega
      rw [if_neg hbehind, hnone, weave, hend, List.append_nil, List.take_left' hlength]

/-- Between the new places of the ends of a span stands what the changes within it make of its
text. -/
theorem slice_weave {t : Text} (h : Ascend lo t.length cs) (hlo : lo ≤ s.start)
    (hle : s.start ≤ s.stop) (hstop : s.stop ≤ t.length) (hrespects : Respects s cs) :
    (t.weave lo cs).slice (route 0 lo s.start .before cs) (route 0 lo s.stop .after cs)
      = (t.slice s.start s.stop).weave 0 (restrict s cs) := by
  have hreach : ∀ c ∈ cs, c.start < s.start → c.stop < s.start :=
    fun c hc hlt => hrespects.stop_lt hc hle hlt
  have hfrom : Ascend s.start t.length (cs.filter fun c => s.start ≤ c.start) := by
    refine (h.filter _).raise (by omega) fun c hc => ?_
    simpa using (List.mem_filter.mp hc).2
  have hends : ∀ c ∈ cs.filter (fun c => s.start ≤ c.start), c.stop ≤ s.stop ∨ s.stop < c.start := by
    intro c hc
    obtain ⟨hmem, hstart⟩ := List.mem_filter.mp hc
    exact hrespects.stop_le_or_lt hmem (h.bounds hmem).2.1 (of_decide_eq_true hstart)
  have hwithin : (cs.filter fun c => s.start ≤ c.start).filter (fun c => c.stop ≤ s.stop)
      = cs.filter (liesIn s) := by
    rw [List.filter_filter]
    apply List.filter_congr
    intro c _
    rw [liesIn, Bool.and_comm]
  have hasc := h.filter_liesIn hle
  calc (t.weave lo cs).slice (route 0 lo s.start .before cs) (route 0 lo s.stop .after cs)
      = (t.weave s.start (cs.filter fun c => s.start ≤ c.start)).take
          (route 0 s.start s.stop .after (cs.filter fun c => s.start ≤ c.start)) := by
        rw [slice, List.drop_take, route_eq_before_add h hlo hle hreach, Nat.add_sub_cancel_left,
          drop_weave h hlo (by omega) (Nat.le_refl _) hreach]
    _ = weave (t.take s.stop) s.start (cs.filter (liesIn s)) := by
        rw [take_weave hfrom hle hstop (Nat.le_refl _) (hrespects.apart.filter _) hends, hwithin]
    _ = (t.slice s.start s.stop).weave 0 (restrict s cs) := by
        rw [← weave_drop hasc (Nat.le_refl _), Nat.sub_self, slice, restrict]

end Text

end HeadlessEditor
