/-
  HeadlessEditor.Proofs.Snippet.Grouping

  The tab stops that marks make (`TabStop.Groups`): one stop for each number
  that occurs, in visiting order, over the spans of the marks with that
  number in the order of the text.  The order the marks came in does not
  matter.
-/

import HeadlessEditor.Snippet.Basic

namespace HeadlessEditor.TabStop

variable {marks marks' : List Mark} {stops : List TabStop}

/-- Whether a stop with one number is visited before one with another: numbers ascend, and 0 is
last. -/
def Precedes (a b : Nat) : Prop :=
  a ≠ 0 ∧ (b = 0 ∨ a < b)

/-- Stops that gather the marks by their numbers, in visiting order. -/
structure Groups (marks : List Mark) (stops : List TabStop) : Prop where
  ordered : stops.Pairwise fun a b => Precedes a.number b.number
  number_mem : ∀ number, number ∈ stops.map TabStop.number ↔ number ∈ marks.map Mark.number
  spans_perm : ∀ stop ∈ stops,
    stop.spans.Perm ((marks.filter (·.number == stop.number)).map Mark.span)
  spans_sorted : ∀ stop ∈ stops,
    stop.spans.Pairwise fun a b => a.start < b.start ∨ a.start = b.start ∧ a.stop ≤ b.stop

/-- The marks may come in any order. -/
theorem Groups.of_perm (h : marks.Perm marks') (hgroups : Groups marks stops) :
    Groups marks' stops where
  ordered := hgroups.ordered
  number_mem number := by
    rw [hgroups.number_mem]
    exact (h.map Mark.number).mem_iff
  spans_perm stop hstop := by
    have hspans := hgroups.spans_perm stop hstop
    exact hspans.trans ((h.filter _).map Mark.span)
  spans_sorted := hgroups.spans_sorted

-- ============================================================================
-- Grouping
-- ============================================================================

/-- Every number is kept once. -/
theorem nodup_eraseDups (numbers : List Nat) : numbers.eraseDups.Nodup := by
  match numbers with
  | [] => exact List.nodup_nil
  | number :: rest =>
    have hrest := nodup_eraseDups (rest.filter fun other => !other == number)
    rw [List.eraseDups_cons, List.nodup_cons]
    refine ⟨?_, hrest⟩
    rw [List.mem_eraseDups, List.mem_filter]
    simp
  termination_by numbers.length
  decreasing_by
    exact Nat.lt_succ_of_le (List.length_filter_le _ _)

theorem visitedBy_iff {a b : Nat} : visitedBy a b = true ↔ b = 0 ∨ a ≠ 0 ∧ a ≤ b := by
  simp [visitedBy]

theorem spanOrder_iff {a b : Span} :
    spanOrder a b = true ↔ a.start < b.start ∨ a.start = b.start ∧ a.stop ≤ b.stop := by
  simp [spanOrder]

theorem pairwise_precedes_mergeSort {numbers : List Nat} (h : numbers.Nodup) :
    (numbers.mergeSort visitedBy).Pairwise Precedes := by
  have hsorted : (numbers.mergeSort visitedBy).Pairwise (visitedBy · ·) := by
    apply List.pairwise_mergeSort
    · intro a b c
      simp only [visitedBy_iff]
      omega
    · intro a b
      simp only [Bool.or_eq_true, visitedBy_iff]
      omega
  have hnodup : (numbers.mergeSort visitedBy).Nodup := (List.mergeSort_perm _ _).nodup_iff.mpr h
  refine (hsorted.and hnodup).imp fun ⟨hvisited, hne⟩ => ?_
  rw [visitedBy_iff] at hvisited
  unfold Precedes
  omega

theorem pairwise_spans_ofMarks (marks : List Mark) (number : Nat) :
    (ofMarks marks number).spans.Pairwise
      fun a b => a.start < b.start ∨ a.start = b.start ∧ a.stop ≤ b.stop := by
  have hsorted : (ofMarks marks number).spans.Pairwise (spanOrder · ·) := by
    apply List.pairwise_mergeSort
    · intro a b c
      simp only [spanOrder_iff]
      omega
    · intro a b
      simp only [Bool.or_eq_true, spanOrder_iff]
      omega
  exact hsorted.imp fun h => spanOrder_iff.mp h

/-- The stops of marks gather them. -/
theorem groups_allOfMarks (marks : List Mark) : Groups marks (allOfMarks marks) where
  ordered := by
    rw [allOfMarks, List.pairwise_map]
    exact pairwise_precedes_mergeSort (nodup_eraseDups _)
  number_mem number := by
    have hnumbers : (allOfMarks marks).map TabStop.number
        = (marks.map Mark.number).eraseDups.mergeSort visitedBy := by
      rw [allOfMarks, List.map_map]
      exact List.map_id _
    rw [hnumbers, List.mem_mergeSort, List.mem_eraseDups]
  spans_perm stop hstop := by
    obtain ⟨number, -, rfl⟩ := List.mem_map.mp hstop
    exact List.mergeSort_perm _ _
  spans_sorted stop hstop := by
    obtain ⟨number, -, rfl⟩ := List.mem_map.mp hstop
    exact pairwise_spans_ofMarks marks number

end HeadlessEditor.TabStop
