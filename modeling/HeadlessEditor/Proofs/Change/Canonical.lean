/-
  HeadlessEditor.Proofs.Change.Canonical

  What the normal form of a change set looks like (`Change.Normal`), and that
  nothing else looks so: changes are their own normal form exactly if they are
  in normal form (`ChangeSet.of_eq_self_iff`).

  The length of the new document is computed by taking what each change
  removes from the length so far.  For changes in normal form none of these
  differences is negative (`Change.lengthen?`): the length so far still counts
  all that further changes remove.
-/

import HeadlessEditor.Proofs.Change.Mapping

namespace HeadlessEditor

namespace Change

variable {lo hi n length : Nat} {c : Change} {cs : List Change}

-- ============================================================================
-- Changes in normal form
-- ============================================================================

/-- Changes to a document of `length` characters in normal form: with their offsets in order and
within the document, one behind the other, and none that does nothing. -/
structure Normal (length : Nat) (cs : List Change) : Prop where
  span_le : ∀ c ∈ cs, c.start ≤ c.stop ∧ c.stop ≤ length
  stop_le_start : cs.Pairwise fun c d => c.stop ≤ d.start
  acts : ∀ c ∈ cs, ¬(c.start = c.stop ∧ c.text = [])

theorem Ascend.pairwise (h : Ascend lo hi cs) : cs.Pairwise fun c d => c.stop ≤ d.start := by
  induction cs generalizing lo with
  | nil => exact .nil
  | cons c rest ih =>
    obtain ⟨-, -, hrest⟩ := h
    exact List.pairwise_cons.mpr ⟨fun d hd => (hrest.bounds hd).1, ih hrest⟩

/-- Changes one behind the other follow one another from any offset before them. -/
theorem ascend_of_pairwise (hle : lo ≤ hi)
    (hbounds : ∀ c ∈ cs, lo ≤ c.start ∧ c.start ≤ c.stop ∧ c.stop ≤ hi)
    (hpairwise : cs.Pairwise fun c d => c.stop ≤ d.start) : Ascend lo hi cs := by
  induction cs generalizing lo with
  | nil => exact hle
  | cons c rest ih =>
    obtain ⟨⟨hlo, hspan, hstop⟩, hrest⟩ := List.forall_mem_cons.mp hbounds
    obtain ⟨hfirst, hpairwise⟩ := List.pairwise_cons.mp hpairwise
    exact ⟨hlo, hspan, ih hstop (fun d hd => ⟨hfirst d hd, (hrest d hd).2⟩) hpairwise⟩

theorem Normal.ascend (h : Normal n cs) : Ascend 0 n cs :=
  ascend_of_pairwise (Nat.zero_le n) (fun c hc => ⟨Nat.zero_le _, h.span_le c hc⟩)
    h.stop_le_start

-- ============================================================================
-- Nothing is left to do
-- ============================================================================

theorem clamp_eq_self (hspan : c.start ≤ c.stop) (hstop : c.stop ≤ n) : c.clamp n = c := by
  rw [clamp, Span.clamp_eq_self hspan hstop]

theorem Normal.ordered_eq_self (h : Normal n cs) : ordered n cs = cs := by
  have hclamp : cs.map (clamp n) = cs.map id := by
    apply List.map_congr_left
    intro c hc
    obtain ⟨hspan, hstop⟩ := h.span_le c hc
    exact clamp_eq_self hspan hstop
  have hsorted : cs.Pairwise fun c d => startsBy c d = true := by
    refine h.stop_le_start.imp_of_mem fun {c d} hc _ hcd => ?_
    exact decide_eq_true (Nat.le_trans (h.span_le c hc).1 hcd)
  rw [ordered, hclamp, List.map_id, List.mergeSort_of_pairwise hsorted]

theorem Ascend.clipFrom_eq_self (h : Ascend lo hi cs) : ChangeSet.clipFrom lo cs = cs := by
  induction cs generalizing lo with
  | nil => rfl
  | cons c rest ih =>
    obtain ⟨hlo, hspan, hrest⟩ := h
    rw [ChangeSet.clipFrom, clip_eq_self hlo hspan, ih hrest]

-- ============================================================================
-- The length of the new document
-- ============================================================================

/-- The difference of two numbers, unless it is negative. -/
def minus? (a b : Nat) : Option Nat :=
  if b ≤ a then some (a - b) else none

theorem minus?_eq_some {a b : Nat} (h : b ≤ a) : minus? a b = some (a - b) :=
  if_pos h

/-- The length of a document after a change, unless it takes a negative difference to compute. -/
def lengthen? (length : Nat) (c : Change) : Option Nat := do
  let removed ← minus? c.stop c.start
  let kept ← minus? length removed
  return kept + c.text.length

/-- Changes that follow one another within a part of a document do not remove more of it than there
is, whatever its length has become by then. -/
theorem Ascend.foldlM_lengthen? (h : Ascend lo hi cs) (hlength : hi - lo ≤ length) :
    cs.foldlM lengthen? length
      = some (cs.foldl (fun length c => length - (c.stop - c.start) + c.text.length) length) := by
  induction cs generalizing lo length with
  | nil => rfl
  | cons c rest ih =>
    obtain ⟨hlo, hspan, hrest⟩ := h
    have hle := hrest.le
    have hstep : lengthen? length c = some (length - (c.stop - c.start) + c.text.length) := by
      rw [lengthen?, minus?_eq_some hspan, Option.bind_eq_bind, Option.bind_some,
        minus?_eq_some (by omega)]
      rfl
    rw [List.foldlM_cons, hstep, Option.bind_eq_bind, Option.bind_some, List.foldl_cons]
    exact ih hrest (by omega)

end Change

namespace ChangeSet

open Change

variable {n : Nat} {cs : List Change}

/-- The length of the new document, unless it takes a negative difference to compute. -/
def afterLength? (cs : ChangeSet) : Option Nat :=
  cs.changes.foldlM lengthen? cs.beforeLength

theorem afterLength?_of (specs : List Change) (n : Nat) :
    (of specs n).afterLength? = some (of specs n).afterLength :=
  (ascend_changes_of specs n).foldlM_lengthen? (Nat.sub_le n 0)

theorem normal_changes_of (specs : List Change) (n : Nat) : Normal n (of specs n).changes where
  span_le c hc := ((ascend_changes_of specs n).bounds hc).2
  stop_le_start := (ascend_changes_of specs n).pairwise
  acts c hc := by
    rw [← isVoid_iff, isVoid_eq_false_of_mem hc]
    exact Bool.false_ne_true

theorem of_eq_self (h : Normal n cs) : of cs n = ⟨cs, n⟩ := by
  have hacts : cs.filter (fun c => !c.isVoid) = cs := by
    rw [List.filter_eq_self]
    intro c hc
    rw [Bool.not_eq_true', Bool.eq_false_iff, ne_eq, isVoid_iff]
    exact h.acts c hc
  rw [of_eq, h.ordered_eq_self, h.ascend.clipFrom_eq_self, hacts]

/-- Changes in normal form, made from the front. -/
theorem apply_of_normal {t : Text} (h : Normal t.length cs) :
    (of cs t.length).apply t = t.weave 0 cs := by
  rw [of_eq_self h]
  exact apply_eq_weave h.ascend

/-- Changes are their own normal form exactly if they are in normal form. -/
theorem of_eq_self_iff : of cs n = ⟨cs, n⟩ ↔ Normal n cs := by
  refine ⟨fun h => ?_, of_eq_self⟩
  have hnormal := normal_changes_of cs n
  rwa [h] at hnormal

/-- Whatever the changes, their normal form is in normal form, and so is its own.  The length after
it is computed without a negative difference, and is the length of the document it makes. -/
theorem normal_of (specs : List Change) (n : Nat) :
    Normal n (of specs n).changes ∧
      (of specs n).afterLength? = some (of specs n).afterLength ∧
      (∀ t : Text, t.length = n → ((of specs n).apply t).length = (of specs n).afterLength) ∧
      of (of specs n).changes n = of specs n := by
  have hnormal := normal_changes_of specs n
  refine ⟨hnormal, afterLength?_of specs n, ?_, of_eq_self hnormal⟩
  rintro t rfl
  exact length_apply_of specs t

/-- Changes that overlap, are reversed, lie past the end or do nothing, to a document of eight
characters. -/
def tangled : List Change :=
  [⟨6, 2, ['B']⟩, ⟨9, 0, []⟩, insertion 5 [], ⟨0, 4, ['A', 'A']⟩]

/-- The whole document is removed, and three characters are inserted. -/
theorem normal_of_tangled :
    "01234567".toList.length = 8 ∧ ((of tangled 8).apply "01234567".toList).length = 3 ∧
      of (of tangled 8).changes 8 = of tangled 8 := by
  have hlength : "01234567".toList.length = 8 := by decide
  obtain ⟨-, -, hafter, hself⟩ := normal_of tangled 8
  have hafterLength : (of tangled 8).afterLength = 3 := by decide_cbv
  exact ⟨hlength, (hafter _ hlength).trans hafterLength, hself⟩

end ChangeSet

end HeadlessEditor
