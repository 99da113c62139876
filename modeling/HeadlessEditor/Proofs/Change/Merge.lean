/-
  HeadlessEditor.Proofs.Change.Merge

  A normalized change set does what its changes ask for place by place
  (`Change.merge`).  Taken in order, the changes are swept through the
  document: `settledAt` is a place of it once the characters before some
  offset are dealt with, and making the changes from there on writes what
  all further places come to (`flatMap_settledAt`).  Clipping moves an
  insertion to the end of what an earlier change covers; the places it skips
  are covered, so it lands at the same point of the new document.
-/

import HeadlessEditor.Change.Merge
import HeadlessEditor.Proofs.Change.Normal
import Mathlib.Data.List.Basic

namespace HeadlessEditor

-- ============================================================================
-- Places of a text
-- ============================================================================

namespace Text

/-- The characters at the places from `a` on, without those before `covered`. -/
theorem flatMap_getElem? (t : Text) {a covered : Nat} (h : a ≤ covered) (m : Nat) :
    (List.range' a m).flatMap (fun o => if o < covered then [] else (t[o]?).toList)
      = t.slice covered (a + m) := by
  induction m with
  | zero => rw [Nat.add_zero, slice_eq_nil h, List.range'_zero, List.flatMap_nil]
  | succ m ih =>
    rw [List.range'_concat, List.flatMap_append, ih, Nat.one_mul, ← Nat.add_assoc, slice_succ,
      List.flatMap_singleton]

end Text

-- ============================================================================
-- The sweep
-- ============================================================================

namespace Change

variable {start covered o : Nat} {c : Change} {cs specs : List Change}

/-- What becomes of one place when the characters before `covered` are gone already. -/
def settledAt (covered : Nat) (cs : List Change) (t : Text) (offset : Nat) : Text :=
  (cs.filter fun c => c.start == offset).flatMap Change.text ++
    if offset < covered || cs.any (removesAt offset) then [] else (t[offset]?).toList

theorem settledAt_nil (covered : Nat) (t : Text) (o : Nat) :
    settledAt covered [] t o = if o < covered then [] else (t[o]?).toList := by
  simp [settledAt]

/-- Before the first change, the document stays. -/
theorem settledAt_of_lt (hcs : ∀ d ∈ cs, start ≤ d.start) (ho : o < start) (covered : Nat)
    (t : Text) : settledAt covered cs t o = if o < covered then [] else (t[o]?).toList := by
  have htexts : (cs.filter fun d => d.start == o) = [] := by
    rw [List.filter_eq_nil_iff]
    intro d hd
    have := hcs d hd
    simp only [beq_iff_eq]
    omega
  have hany : cs.any (removesAt o) = false := by
    rw [List.any_eq_false]
    intro d hd
    have := hcs d hd
    simp only [removesAt, Bool.and_eq_true, decide_eq_true_eq]
    omega
  simp [settledAt, htexts, hany]

/-- From where a change starts, its text comes first and the mark moves on. -/
theorem settledAt_cons (h : c.start ≤ o) (covered : Nat) (cs : List Change) (t : Text) :
    settledAt covered (c :: cs) t o
      = (if c.start = o then c.text else []) ++ settledAt (max c.stop covered) cs t o := by
  have hmark : (decide (o < covered) || (c :: cs).any (removesAt o))
      = (decide (o < max c.stop covered) || cs.any (removesAt o)) := by
    rw [List.any_cons, ← Bool.or_assoc]
    congr 1
    rw [Bool.eq_iff_iff]
    simp only [removesAt, Bool.or_eq_true, Bool.and_eq_true, decide_eq_true_eq]
    omega
  simp only [settledAt, hmark, ← List.append_assoc]
  congr 1
  by_cases hc : c.start = o
  · rw [List.filter_cons_of_pos (by simpa using hc), if_pos hc, List.flatMap_cons]
  · rw [List.filter_cons_of_neg (by simpa using hc), if_neg hc, List.nil_append]

/-- The places from where a change starts: its text, then the places with the mark moved on. -/
theorem flatMap_settledAt_cons (c : Change) (covered m : Nat) (cs : List Change) (t : Text) :
    (List.range' c.start (m + 1)).flatMap (settledAt covered (c :: cs) t)
      = c.text ++ (List.range' c.start (m + 1)).flatMap (settledAt (max c.stop covered) cs t) := by
  rw [List.range'_succ, List.flatMap_cons, List.flatMap_cons, settledAt_cons (Nat.le_refl _),
    if_pos rfl, List.append_assoc]
  congr 2
  apply List.flatMap_congr
  intro o ho
  have ho' : c.start < o := (List.mem_range'_1.mp ho).1
  rw [settledAt_cons (by omega), if_neg (by omega), List.nil_append]

/-- Making clipped changes from `covered` on writes what the places from `start` on come to. -/
theorem flatMap_settledAt {t : Text} (hsorted : cs.Pairwise fun c d => c.start ≤ d.start)
    (hcs : ∀ c ∈ cs, start ≤ c.start ∧ c.start ≤ c.stop ∧ c.stop ≤ t.length)
    (hstart : start ≤ covered) (hlen : start ≤ t.length) :
    (List.range' start (t.length + 1 - start)).flatMap (settledAt covered cs t)
      = t.weave covered (ChangeSet.clipFrom covered cs) := by
  induction cs generalizing start covered with
  | nil =>
    rw [List.flatMap_congr fun o _ => settledAt_nil covered t o, Text.flatMap_getElem? t hstart,
      show start + (t.length + 1 - start) = t.length + 1 by omega, Text.slice_length_succ]
    rfl
  | cons c rest ih =>
    obtain ⟨hfirst, hrest⟩ := List.pairwise_cons.mp hsorted
    obtain ⟨hlo, hspan, hhi⟩ := hcs c (List.mem_cons_self ..)
    have hsplit : List.range' start (t.length + 1 - start)
        = List.range' start (c.start - start) ++ List.range' c.start (t.length - c.start + 1) := by
      rw [show t.length + 1 - start = (c.start - start) + (t.length - c.start + 1) by omega,
        ← List.range'_append_1, show start + (c.start - start) = c.start by omega]
    have hbefore : (List.range' start (c.start - start)).flatMap (settledAt covered (c :: rest) t)
        = t.slice covered c.start := by
      have hle : ∀ d ∈ c :: rest, c.start ≤ d.start := by
        intro d hd
        rcases List.mem_cons.mp hd with rfl | hd
        · exact Nat.le_refl _
        · exact hfirst d hd
      rw [List.flatMap_congr fun o ho => settledAt_of_lt hle
          (by have := List.mem_range'_1.mp ho; omega) covered t,
        Text.flatMap_getElem? t hstart, show start + (c.start - start) = c.start by omega]
    have hafter := ih hrest
      (fun d hd => ⟨hfirst d hd, (hcs d (List.mem_cons_of_mem _ hd)).2⟩)
      (show c.start ≤ max c.stop covered by omega) (show c.start ≤ t.length by omega)
    rw [hsplit, List.flatMap_append, hbefore, flatMap_settledAt_cons,
      show t.length - c.start + 1 = t.length + 1 - c.start by omega, hafter,
      ChangeSet.clipFrom, Text.weave]
    simp only [clip, Text.slice_max, List.append_assoc]

theorem any_removesAt_ordered (n o : Nat) (specs : List Change) :
    (ordered n specs).any (removesAt o) = specs.any (covers n o) := by
  rw [Bool.eq_iff_iff, List.any_eq_true, List.any_eq_true]
  constructor
  · rintro ⟨d, hd, hdo⟩
    obtain ⟨c, hc, rfl⟩ := List.mem_map.mp (List.mem_mergeSort.mp hd)
    exact ⟨c, hc, hdo⟩
  · rintro ⟨c, hc, hco⟩
    exact ⟨c.clamp n, List.mem_mergeSort.mpr (List.mem_map_of_mem hc), hco⟩

/-- Neither the order of the changes nor clamping them beforehand matters for one place. -/
theorem mergedAt_eq_settledAt (specs : List Change) (t : Text) (o : Nat) :
    mergedAt specs t o = settledAt 0 (ordered t.length specs) t o := by
  have htexts : insertedAt t.length o specs
      = ((ordered t.length specs).filter fun c => c.start == o).flatMap Change.text := by
    rw [filter_start_ordered, List.filter_map, List.flatMap_map]
    rfl
  simp only [mergedAt, settledAt, htexts, any_removesAt_ordered, Nat.not_lt_zero, decide_false,
    Bool.false_or]

theorem weave_clipFrom_ordered (specs : List Change) (t : Text) :
    t.weave 0 (ChangeSet.clipFrom 0 (ordered t.length specs)) = merge specs t := by
  have hcs : ∀ c ∈ ordered t.length specs,
      0 ≤ c.start ∧ c.start ≤ c.stop ∧ c.stop ≤ t.length :=
    fun c hc => ⟨Nat.zero_le _, bounds_of_mem_ordered hc⟩
  rw [← flatMap_settledAt (pairwise_ordered t.length specs) hcs (Nat.le_refl 0) (Nat.zero_le _),
    merge, List.range_eq_range', Nat.sub_zero]
  exact List.flatMap_congr fun o _ => (mergedAt_eq_settledAt specs t o).symm

-- ============================================================================
-- What is removed and what is inserted
-- ============================================================================

theorem removesAt_clip (covered o : Nat) (c : Change) :
    removesAt o (c.clip covered) = (decide (covered ≤ o) && removesAt o c) := by
  rw [Bool.eq_iff_iff, Bool.and_eq_true, decide_eq_true_eq, removesAt_iff, removesAt_iff]
  simp only [clip]
  omega

/-- Clipped changes remove a character once or, if no change covers it, never. -/
theorem countP_removesAt_clipFrom (hsorted : cs.Pairwise fun c d => c.start ≤ d.start)
    (covered o : Nat) :
    (ChangeSet.clipFrom covered cs).countP (removesAt o)
      = if covered ≤ o ∧ cs.any (removesAt o) = true then 1 else 0 := by
  induction cs generalizing covered with
  | nil => simp [ChangeSet.clipFrom]
  | cons c rest ih =>
    obtain ⟨hfirst, hrest⟩ := List.pairwise_cons.mp hsorted
    have hstop : (c.clip covered).stop = max c.stop covered := rfl
    rw [ChangeSet.clipFrom, List.countP_cons, ih hrest, hstop, removesAt_clip, List.any_cons]
    by_cases hc : removesAt o c = true
    · -- the places that `c` covers are behind the mark for the rest
      obtain ⟨-, hlt⟩ := removesAt_iff.mp hc
      rw [if_neg (by omega)]
      simp [hc]
    · -- a later change that covers the place starts behind `c`, so `c` stops before it
      have hlater : rest.any (removesAt o) = true → c.stop ≤ o := by
        intro h
        obtain ⟨d, hd, hdo⟩ := List.any_eq_true.mp h
        have hcd := hfirst d hd
        rw [removesAt_iff] at hc hdo
        omega
      have hmark : (max c.stop covered ≤ o ∧ rest.any (removesAt o) = true)
          ↔ (covered ≤ o ∧ rest.any (removesAt o) = true) := by
        constructor
        · rintro ⟨hle, hany⟩
          exact ⟨by omega, hany⟩
        · rintro ⟨hle, hany⟩
          have := hlater hany
          exact ⟨by omega, hany⟩
      rw [(Bool.not_eq_true _).mp hc, Bool.and_false, Bool.false_or, if_neg Bool.false_ne_true]
      simp only [hmark, Nat.add_zero]

end Change

namespace ChangeSet

open Change

/-- Normalized changes remove a character once if one of the given changes covers it, else never. -/
theorem countP_removesAt_of (specs : List Change) (n o : Nat) :
    (of specs n).changes.countP (removesAt o) = if specs.any (covers n o) then 1 else 0 := by
  have hvoid : ∀ c : Change, (removesAt o c && !c.isVoid) = removesAt o c := by
    intro c
    rw [Bool.and_eq_left_iff_imp]
    intro h
    have := removesAt_iff.mp h
    have hne : c.start ≠ c.stop := by omega
    simp [isVoid, hne]
  rw [of_eq, List.countP_filter]
  simp only [hvoid]
  rw [countP_removesAt_clipFrom (pairwise_ordered n specs), any_removesAt_ordered]
  simp

/-- Making the changes of a normal form comes to what the changes it is made from ask for, place
by place.  A character is removed by one change exactly when one of those covers it and by none
otherwise, and the texts that are not empty are all inserted, each once. -/
theorem apply_of_eq_merge (specs : List Change) (t : Text) :
    (of specs t.length).apply t = merge specs t ∧
      (∀ o, (of specs t.length).changes.countP (removesAt o)
        = if specs.any (covers t.length o) then 1 else 0) ∧
      (((of specs t.length).changes.map Change.text).filter fun text => !text.isEmpty).Perm
        ((specs.map Change.text).filter fun text => !text.isEmpty) := by
  refine ⟨?_, countP_removesAt_of specs t.length, perm_text_changes_of specs t.length⟩
  rw [apply_of_eq_weave, weave_clipFrom_ordered]

end ChangeSet

end HeadlessEditor
