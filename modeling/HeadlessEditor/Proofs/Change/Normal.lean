/-
  HeadlessEditor.Proofs.Change.Normal

  The normal form of a change set.  Its changes follow one another through
  the document (`Change.Ascend`), so that making them from the back comes to
  the same as writing the new document from the front (`Text.weave`): what
  lies before a change, its text, and so on from where it stops.

  All that is shown of change sets rests on these two.  `ascend_changes_of`
  says that the normal form of any changes is of this kind, and
  `apply_of_eq_weave` gives its result in terms of the changes before the
  void ones are left out.
-/

import HeadlessEditor.Change.Basic
import HeadlessEditor.Proofs.Sorting

namespace HeadlessEditor

-- ============================================================================
-- Changes that follow one another
-- ============================================================================

namespace Change

/-- Changes that follow one another between the offsets `lo` and `hi`. -/
def Ascend (lo hi : Nat) : List Change → Prop
  | [] => lo ≤ hi
  | c :: rest => lo ≤ c.start ∧ c.start ≤ c.stop ∧ Ascend c.stop hi rest

variable {lo lo' hi pos : Nat} {c : Change} {cs : List Change}

theorem Ascend.le (h : Ascend lo hi cs) : lo ≤ hi := by
  induction cs generalizing lo with
  | nil => exact h
  | cons c rest ih =>
    obtain ⟨hlo, hspan, hrest⟩ := h
    have := ih hrest
    omega

theorem Ascend.mono (hle : lo' ≤ lo) (h : Ascend lo hi cs) : Ascend lo' hi cs := by
  cases cs with
  | nil => exact Nat.le_trans hle h
  | cons c rest => exact ⟨Nat.le_trans hle h.1, h.2⟩

theorem Ascend.filter (p : Change → Bool) (h : Ascend lo hi cs) : Ascend lo hi (cs.filter p) := by
  induction cs generalizing lo with
  | nil => exact h
  | cons c rest ih =>
    obtain ⟨hlo, hspan, hrest⟩ := h
    by_cases hp : p c = true
    · rw [List.filter_cons_of_pos hp]
      exact ⟨hlo, hspan, ih hrest⟩
    · rw [List.filter_cons_of_neg hp]
      exact (ih hrest).mono (by omega)

/-- Whether the change removes the character at `offset`. -/
def removesAt (offset : Nat) (c : Change) : Bool :=
  c.start ≤ offset && offset < c.stop

theorem removesAt_iff : removesAt pos c = true ↔ c.start ≤ pos ∧ pos < c.stop := by
  simp [removesAt]

theorem isVoid_iff : c.isVoid = true ↔ c.start = c.stop ∧ c.text = [] := by
  simp [isVoid]

/-- Each change lies between the two offsets. -/
theorem Ascend.bounds (h : Ascend lo hi cs) (hc : c ∈ cs) :
    lo ≤ c.start ∧ c.start ≤ c.stop ∧ c.stop ≤ hi := by
  induction cs generalizing lo with
  | nil => cases hc
  | cons d rest ih =>
    obtain ⟨hlo, hspan, hrest⟩ := h
    rcases List.mem_cons.mp hc with rfl | hc
    · exact ⟨hlo, hspan, hrest.le⟩
    · have := ih hrest hc
      omega

end Change

-- ============================================================================
-- Writing the new document from the front
-- ============================================================================

/-- The text from offset `pos` on, with the given changes made to it; they follow one another
from there. -/
def Text.weave (t : Text) (pos : Nat) : List Change → Text
  | [] => t.drop pos
  | c :: rest => t.slice pos c.start ++ c.text ++ weave t c.stop rest

namespace Text

open Change

variable {lo hi pos : Nat} {cs : List Change}

/-- What no change reaches may be written ahead. -/
theorem slice_append_weave (h : Ascend lo hi cs) (hpos : pos ≤ lo) (t : Text) :
    t.slice pos lo ++ t.weave lo cs = t.weave pos cs := by
  cases cs with
  | nil => exact slice_append_drop hpos t
  | cons c rest =>
    simp only [weave]
    rw [← List.append_assoc, ← List.append_assoc, slice_append_slice hpos h.1]

/-- Changes that do nothing may be left out. -/
theorem weave_filter_isVoid (h : Ascend lo hi cs) (t : Text) :
    t.weave lo (cs.filter fun c => !c.isVoid) = t.weave lo cs := by
  induction cs generalizing lo with
  | nil => rfl
  | cons c rest ih =>
    obtain ⟨hlo, -, hrest⟩ := h
    by_cases hc : c.isVoid = true
    · rw [List.filter_cons_of_neg (by simp [hc]), weave]
      obtain ⟨hspan, htext⟩ := isVoid_iff.mp hc
      rw [← slice_append_weave (hrest.filter _) (show lo ≤ c.stop by omega), ih hrest,
        htext, hspan, List.append_nil]
    · rw [List.filter_cons_of_pos (by simp [hc]), weave, weave, ih hrest]

/-- Changes made from the back. -/
theorem foldr_apply (h : Ascend lo hi cs) (t : Text) (hhi : hi ≤ t.length) :
    cs.foldr Change.apply t = t.take lo ++ t.weave lo cs := by
  induction cs generalizing lo with
  | nil => exact (List.take_append_drop lo t).symm
  | cons c rest ih =>
    obtain ⟨hlo, hspan, hrest⟩ := h
    have hstop : (t.take c.stop).length = c.stop := by
      have := hrest.le
      rw [List.length_take]
      omega
    rw [List.foldr_cons, ih hrest, Change.apply, splice,
      List.take_append_of_le_length (by omega), List.take_take, Nat.min_eq_left hspan,
      List.drop_left' hstop, weave, ← take_append_slice hlo, List.append_assoc,
      List.append_assoc, List.append_assoc]

end Text

-- ============================================================================
-- The normal form
-- ============================================================================

namespace Change

variable {covered n : Nat} {specs cs : List Change}

/-- Changes to a document of `n` characters in the order in which the normal form takes them. -/
def ordered (n : Nat) (specs : List Change) : List Change :=
  (specs.map (clamp n)).mergeSort startsBy

theorem clamp_bounds (n : Nat) (c : Change) :
    (c.clamp n).start ≤ (c.clamp n).stop ∧ (c.clamp n).stop ≤ n :=
  Span.clamp_bounds ⟨c.start, c.stop⟩ n

theorem bounds_of_mem_ordered {c : Change} (h : c ∈ ordered n specs) :
    c.start ≤ c.stop ∧ c.stop ≤ n := by
  obtain ⟨d, -, rfl⟩ := List.mem_map.mp (List.mem_mergeSort.mp h)
  exact clamp_bounds n d

theorem startsBy_iff {c d : Change} : startsBy c d = true ↔ c.start ≤ d.start :=
  decide_eq_true_iff

theorem startsBy_trans (a b c : Change) (hab : startsBy a b = true) (hbc : startsBy b c = true) :
    startsBy a c = true := by
  rw [startsBy_iff] at hab hbc ⊢
  omega

theorem startsBy_total (a b : Change) : (startsBy a b || startsBy b a) = true := by
  rw [Bool.or_eq_true, startsBy_iff, startsBy_iff]
  omega

theorem pairwise_ordered (n : Nat) (specs : List Change) :
    (ordered n specs).Pairwise fun c d => c.start ≤ d.start := by
  refine (List.pairwise_mergeSort startsBy_trans startsBy_total _).imp fun h => ?_
  exact startsBy_iff.mp h

/-- Changes that start at one offset keep the order they came in. -/
theorem filter_start_ordered (n : Nat) (specs : List Change) (offset : Nat) :
    (ordered n specs).filter (·.start == offset)
      = (specs.map (clamp n)).filter (·.start == offset) := by
  apply Sorting.filter_mergeSort startsBy_trans startsBy_total
  intro c d hc hd
  rw [beq_iff_eq] at hc hd
  rw [startsBy_iff]
  omega

/-- Which of the changes come first does not matter but among those that start at one offset. -/
theorem ordered_eq_of_filter_eq {specs' : List Change}
    (h : ∀ offset, (specs.map (clamp n)).filter (·.start == offset)
      = (specs'.map (clamp n)).filter (·.start == offset)) :
    ordered n specs = ordered n specs' := by
  refine Sorting.eq_of_filter_eq (pairwise_ordered n specs) (pairwise_ordered n specs') ?_
  intro offset
  rw [filter_start_ordered, filter_start_ordered, h offset]

theorem map_text_clipFrom (covered : Nat) (cs : List Change) :
    (ChangeSet.clipFrom covered cs).map Change.text = cs.map Change.text := by
  induction cs generalizing covered with
  | nil => rfl
  | cons c rest ih => rw [ChangeSet.clipFrom, List.map_cons, ih, List.map_cons, clip]

theorem perm_map_text_ordered (n : Nat) (specs : List Change) :
    ((ordered n specs).map Change.text).Perm (specs.map Change.text) := by
  have h := (List.mergeSort_perm (specs.map (clamp n)) startsBy).map Change.text
  rwa [List.map_map] at h

/-- A change that starts behind `covered` is not clipped. -/
theorem clip_eq_self {c : Change} (hstart : covered ≤ c.start) (hspan : c.start ≤ c.stop) :
    c.clip covered = c := by
  rw [clip, Nat.max_eq_left hstart, Nat.max_eq_left (Nat.le_trans hstart hspan)]

/-- Changes that do nothing do not clip those after them, so clipping makes none of changes that
do something, and the other way round. -/
theorem forall_isVoid_clipFrom_iff (hspan : ∀ c ∈ cs, c.start ≤ c.stop)
    (hsorted : cs.Pairwise fun c d => c.start ≤ d.start) (hcov : ∀ c ∈ cs, covered ≤ c.start) :
    (∀ c ∈ ChangeSet.clipFrom covered cs, c.isVoid = true) ↔ ∀ c ∈ cs, c.isVoid = true := by
  induction cs generalizing covered with
  | nil => rfl
  | cons c rest ih =>
    rw [List.pairwise_cons] at hsorted
    rw [List.forall_mem_cons] at hspan hcov
    rw [ChangeSet.clipFrom, clip_eq_self hcov.1 hspan.1, List.forall_mem_cons,
      List.forall_mem_cons]
    refine and_congr_right fun hc => ih hspan.2 hsorted.2 fun d hd => ?_
    rw [← (isVoid_iff.mp hc).1]
    exact hsorted.1 d hd

/-- A change that does nothing has no text. -/
theorem filter_text_filter_isVoid (cs : List Change) :
    (((cs.filter fun c => !c.isVoid).map Change.text).filter fun text => !text.isEmpty)
      = (cs.map Change.text).filter fun text => !text.isEmpty := by
  induction cs with
  | nil => rfl
  | cons c rest ih =>
    by_cases hc : c.isVoid = true
    · have htext : c.text.isEmpty = true := (Bool.and_eq_true_iff.mp hc).2
      rw [List.filter_cons_of_neg (by simp [hc]), List.map_cons, ih,
        List.filter_cons_of_neg (by simp [htext])]
    · rw [List.filter_cons_of_pos (by simp [hc]), List.map_cons, List.map_cons, List.filter_cons,
        List.filter_cons, ih]

end Change

namespace ChangeSet

open Change

variable {covered n : Nat} {cs : List Change}

theorem of_eq (specs : List Change) (n : Nat) :
    of specs n = ⟨(clipFrom 0 (ordered n specs)).filter fun c => !c.isVoid, n⟩ :=
  rfl

@[simp] theorem beforeLength_of (specs : List Change) (n : Nat) : (of specs n).beforeLength = n :=
  rfl

/-- Clipping makes changes follow one another. -/
theorem ascend_clipFrom (hcs : ∀ c ∈ cs, c.start ≤ c.stop ∧ c.stop ≤ n) (hcov : covered ≤ n) :
    Ascend covered n (clipFrom covered cs) := by
  induction cs generalizing covered with
  | nil => exact hcov
  | cons c rest ih =>
    obtain ⟨hspan, hstop⟩ := hcs c (List.mem_cons_self ..)
    simp only [clipFrom, Ascend, clip]
    refine ⟨by omega, by omega, ?_⟩
    exact ih (fun d hd => hcs d (List.mem_cons_of_mem _ hd)) (by omega)

theorem ascend_clipFrom_ordered (specs : List Change) (n : Nat) :
    Ascend 0 n (clipFrom 0 (ordered n specs)) :=
  ascend_clipFrom (fun _ => bounds_of_mem_ordered) (Nat.zero_le n)

/-- The changes of a normal form follow one another through the document. -/
theorem ascend_changes_of (specs : List Change) (n : Nat) : Ascend 0 n (of specs n).changes :=
  (ascend_clipFrom_ordered specs n).filter _

/-- The changes of a normal form all do something. -/
theorem isVoid_eq_false_of_mem {specs : List Change} {c : Change}
    (h : c ∈ (of specs n).changes) : c.isVoid = false := by
  rw [of_eq, List.mem_filter] at h
  simpa using h.2

/-- A normal form is empty exactly if none of the changes it is made from does anything. -/
theorem isEmpty_of_iff (specs : List Change) (n : Nat) :
    (of specs n).isEmpty = true ↔ ∀ c ∈ specs, (c.clamp n).isVoid = true := by
  calc (of specs n).isEmpty = true
      ↔ ∀ c ∈ clipFrom 0 (ordered n specs), c.isVoid = true := by
        rw [isEmpty, of_eq, List.isEmpty_iff, List.filter_eq_nil_iff]
        simp only [Bool.not_eq_true', Bool.not_eq_false]
    _ ↔ ∀ c ∈ ordered n specs, c.isVoid = true :=
        forall_isVoid_clipFrom_iff (fun _ hc => (bounds_of_mem_ordered hc).1)
          (pairwise_ordered n specs) fun _ _ => Nat.zero_le _
    _ ↔ ∀ c ∈ specs, (c.clamp n).isVoid = true := by
        simp only [ordered, List.mem_mergeSort, List.forall_mem_map]

/-- A normal form inserts the texts of the changes it is made from, each once. -/
theorem perm_text_changes_of (specs : List Change) (n : Nat) :
    (((of specs n).changes.map Change.text).filter fun text => !text.isEmpty).Perm
      ((specs.map Change.text).filter fun text => !text.isEmpty) := by
  rw [of_eq, filter_text_filter_isVoid, map_text_clipFrom]
  exact (perm_map_text_ordered n specs).filter _

/-- A change set whose changes follow one another, made from the front. -/
theorem apply_eq_weave {cs : ChangeSet} {t : Text} (h : Ascend 0 t.length cs.changes) :
    cs.apply t = t.weave 0 cs.changes := by
  rw [apply, Text.foldr_apply h t (Nat.le_refl _), List.take_zero, List.nil_append]

theorem apply_of_eq_weave (specs : List Change) (t : Text) :
    (of specs t.length).apply t = t.weave 0 (clipFrom 0 (ordered t.length specs)) := by
  rw [apply_eq_weave (ascend_changes_of specs t.length), of_eq,
    Text.weave_filter_isVoid (ascend_clipFrom_ordered specs t.length)]

/-- A single change is made where it is clamped to. -/
theorem apply_of_singleton (c : Change) (t : Text) :
    (of [c] t.length).apply t
      = t.splice (c.clamp t.length).start (c.clamp t.length).stop c.text := by
  have hsingle : clipFrom 0 (ordered t.length [c]) = [c.clamp t.length] := by
    rw [ordered, List.map_singleton, List.mergeSort_singleton, clipFrom, clipFrom, clip,
      Nat.max_zero, Nat.max_zero]
  rw [apply_of_eq_weave, hsingle, Text.weave, Text.weave, Text.slice, List.drop_zero, Text.splice]
  rfl

end ChangeSet

end HeadlessEditor
