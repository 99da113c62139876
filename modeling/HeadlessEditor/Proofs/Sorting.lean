/-
  HeadlessEditor.Proofs.Sorting

  Stability of sorting: a class of items of which each may come before each
  other keeps, in the sorted list, the order it came in.  Sorted by a number,
  a list therefore depends on nothing but the order in which the items with
  each number come (`eq_of_filter_eq`).
-/

namespace HeadlessEditor.Sorting

variable {α : Type} {le : α → α → Bool} {p : α → Bool}

/-- Sorting is stable. -/
theorem filter_mergeSort (trans : ∀ a b c, le a b = true → le b c = true → le a c = true)
    (total : ∀ a b, (le a b || le b a) = true)
    (h : ∀ a b, p a = true → p b = true → le a b = true) (xs : List α) :
    (xs.mergeSort le).filter p = xs.filter p := by
  have hclass : (xs.filter p).Pairwise (le · ·) := by
    refine List.pairwise_of_forall_mem_list fun a ha b hb => ?_
    exact h a b (List.mem_filter.mp ha).2 (List.mem_filter.mp hb).2
  have hkept : (xs.filter p).Sublist (xs.mergeSort le) :=
    List.sublist_mergeSort trans total hclass List.filter_sublist
  have hsublist : (xs.filter p).Sublist ((xs.mergeSort le).filter p) := by
    simpa only [List.filter_filter, Bool.and_self] using hkept.filter p
  have hlength : (xs.filter p).length = ((xs.mergeSort le).filter p).length :=
    ((List.mergeSort_perm xs le).filter p).length_eq.symm
  exact (hsublist.eq_of_length hlength).symm

-- ============================================================================
-- Sorting by a number
-- ============================================================================

variable {key : α → Nat} {xs ys : List α}

theorem mem_iff_of_filter_eq (h : ∀ k, xs.filter (key · == k) = ys.filter (key · == k)) {a : α} :
    a ∈ xs ↔ a ∈ ys := by
  have hclass : a ∈ xs.filter (key · == key a) ↔ a ∈ ys.filter (key · == key a) := by
    rw [h (key a)]
  simpa only [List.mem_filter, beq_self_eq_true, and_true] using hclass

/-- Sorted lists are the same if they have the same items with each number. -/
theorem eq_of_filter_eq (hxs : xs.Pairwise fun a b => key a ≤ key b)
    (hys : ys.Pairwise fun a b => key a ≤ key b)
    (h : ∀ k, xs.filter (key · == k) = ys.filter (key · == k)) : xs = ys := by
  induction xs generalizing ys with
  | nil =>
    refine (List.eq_nil_iff_forall_not_mem.mpr fun a ha => ?_).symm
    exact List.not_mem_nil ((mem_iff_of_filter_eq h).mpr ha)
  | cons x xs ih =>
    cases ys with
    | nil => exact absurd ((mem_iff_of_filter_eq h).mp (List.mem_cons_self ..)) List.not_mem_nil
    | cons y ys =>
      have hx := (mem_iff_of_filter_eq h).mp (List.mem_cons_self ..)
      have hy := (mem_iff_of_filter_eq h).mpr (List.mem_cons_self ..)
      rw [List.pairwise_cons] at hxs hys
      -- either head is an item of the other list, and so comes no earlier than its head
      have hkey : key x = key y := by
        have hyx : key y ≤ key x := by
          rcases List.mem_cons.mp hx with rfl | hmem
          · exact Nat.le_refl _
          · exact hys.1 x hmem
        have hxy : key x ≤ key y := by
          rcases List.mem_cons.mp hy with rfl | hmem
          · exact Nat.le_refl _
          · exact hxs.1 y hmem
        exact Nat.le_antisymm hxy hyx
      have hhead : x = y := by
        have hclass := h (key x)
        rw [List.filter_cons_of_pos (by simp), List.filter_cons_of_pos (by simp [hkey])] at hclass
        exact (List.cons.inj hclass).1
      subst hhead
      have htail : ∀ k, xs.filter (key · == k) = ys.filter (key · == k) := by
        intro k
        have hclass := h k
        rw [List.filter_cons, List.filter_cons] at hclass
        split at hclass
        · exact (List.cons.inj hclass).2
        · exact hclass
      rw [ih hxs.2 hys.2 htail]

end HeadlessEditor.Sorting
