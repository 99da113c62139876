/-
  HeadlessEditor.Proofs.Document.LineBreak

  Text edits leave no half of a line break.  No position resolves to the
  offset inside a carriage return and line feed, so no edit begins or ends
  there (`Change.Avoids`).  Ordering, clamping and clipping make new ends of
  changes only from old ones, hence the normal form avoids that offset too.

  Changes that avoid the offset between two characters treat them alike:
  both are removed, or both are kept with nothing between them.
-/

import HeadlessEditor.Document.Edit
import HeadlessEditor.Proofs.Change.Mapping
import HeadlessEditor.Proofs.Document.Synchrony
import HeadlessEditor.Proofs.Position.Conversion

namespace HeadlessEditor

open Protocol (TextEdit)

-- ============================================================================
-- Changes that avoid an offset
-- ============================================================================

namespace Change

variable {n pos covered : Nat} {c : Change} {cs specs : List Change}

/-- Neither end of the change is at the offset. -/
structure Avoids (pos : Nat) (c : Change) : Prop where
  start_ne : c.start ≠ pos
  stop_ne : c.stop ≠ pos

/-- Ends that are clamped go to the end of the document. -/
theorem Avoids.clamp (h : c.Avoids pos) (hpos : pos < n) : (c.clamp n).Avoids pos := by
  obtain ⟨hstart, hstop⟩ := h
  refine ⟨?_, ?_⟩ <;> simp only [Change.clamp, Span.clamp] <;> omega

theorem Avoids.clip (h : c.Avoids pos) (hcovered : covered ≠ pos) :
    (c.clip covered).Avoids pos := by
  obtain ⟨hstart, hstop⟩ := h
  refine ⟨?_, ?_⟩ <;> simp only [Change.clip] <;> omega

/-- Clipping moves the ends of a change to the end of one before it. -/
theorem avoids_clipFrom (h : ∀ c ∈ cs, c.Avoids pos) (hcovered : covered ≠ pos) :
    ∀ c ∈ ChangeSet.clipFrom covered cs, c.Avoids pos := by
  induction cs generalizing covered with
  | nil => exact fun c hc => absurd hc List.not_mem_nil
  | cons c rest ih =>
    obtain ⟨hfirst, hrest⟩ := List.forall_mem_cons.mp h
    have hclip := hfirst.clip hcovered
    exact List.forall_mem_cons.mpr ⟨hclip, ih hrest hclip.stop_ne⟩

theorem avoids_ordered (h : ∀ c ∈ specs, c.Avoids pos) (hpos : pos < n) :
    ∀ c ∈ ordered n specs, c.Avoids pos := by
  intro c hc
  obtain ⟨d, hd, rfl⟩ := List.mem_map.mp (List.mem_mergeSort.mp hc)
  exact (h d hd).clamp hpos

/-- Of two adjacent characters, a change that has no end between them removes both or neither. -/
theorem Avoids.removesAt_succ (h : c.Avoids (pos + 1)) :
    removesAt (pos + 1) c = removesAt pos c := by
  obtain ⟨hstart, hstop⟩ := h
  rw [Bool.eq_iff_iff, removesAt_iff, removesAt_iff]
  omega

theorem upTo_succ (h : ∀ c ∈ cs, c.Avoids (pos + 1)) : upTo (pos + 1) cs = upTo pos cs := by
  apply List.filter_congr
  intro c hc
  have hstart := (h c hc).start_ne
  rw [Bool.eq_iff_iff, decide_eq_true_eq, decide_eq_true_eq]
  omega

end Change

namespace ChangeSet

open Change

variable {n pos : Nat} {specs : List Change} {cs : ChangeSet}

/-- An offset strictly inside the document that no change begins or ends at is none at which one of
the normal form does. -/
theorem avoids_changes_of (h : ∀ c ∈ specs, c.Avoids pos) (hpos : 0 < pos) (hn : pos < n) :
    ∀ c ∈ (of specs n).changes, c.Avoids pos := by
  intro c hc
  rw [of_eq] at hc
  exact avoids_clipFrom (avoids_ordered h hn) (Nat.ne_of_lt hpos) c (List.mem_filter.mp hc).1

theorem removes_succ (h : ∀ c ∈ cs.changes, c.Avoids (pos + 1)) :
    cs.removes (pos + 1) = cs.removes pos := by
  rw [Bool.eq_iff_iff, removes, removes, List.any_eq_true, List.any_eq_true]
  exact exists_congr fun c => and_congr_right fun hc => Bool.eq_iff_iff.mp (h c hc).removesAt_succ

theorem placeAfter_succ (h : ∀ c ∈ cs.changes, c.Avoids (pos + 1)) :
    cs.placeAfter (pos + 1) = cs.placeAfter pos + 1 := by
  rw [placeAfter, placeAfter, upTo_succ h]
  omega

/-- A kept character stands behind all text inserted at its offset or before it. -/
theorem exists_getElem?_apply_of {t : Text} (hkept : (of specs t.length).removes pos = false) :
    ∃ i : Nat, (i : Int) = (of specs t.length).placeAfter pos ∧
      ((of specs t.length).apply t)[i]? = t[pos]? := by
  have hasc := ascend_changes_of specs t.length
  obtain ⟨i, hi, hget⟩ :=
    getElem?_weave hasc (Nat.zero_le pos) (removesAt_eq_false (.inr hkept)) (Nat.le_refl _)
  refine ⟨i, ?_, ?_⟩
  · rw [hi, placeAfter]
    omega
  · rw [apply_eq_weave hasc, hget]

/-- Two adjacent characters that no change separates are both removed, or are found again side by
side. -/
theorem removes_or_adjacent {t : Text} (h : ∀ c ∈ (of specs t.length).changes, c.Avoids (pos + 1)) :
    ((of specs t.length).removes pos = true ∧ (of specs t.length).removes (pos + 1) = true) ∨
      ((of specs t.length).removes pos = false ∧ (of specs t.length).removes (pos + 1) = false ∧
        ∃ i : Nat, (i : Int) = (of specs t.length).placeAfter pos ∧
          ((i + 1 : Nat) : Int) = (of specs t.length).placeAfter (pos + 1) ∧
          ((of specs t.length).apply t)[i]? = t[pos]? ∧
          ((of specs t.length).apply t)[i + 1]? = t[pos + 1]?) := by
  have hsame := removes_succ h
  cases hremoved : (of specs t.length).removes pos with
  | true => exact .inl ⟨rfl, hsame.trans hremoved⟩
  | false =>
    have hkept := hsame.trans hremoved
    obtain ⟨i, hi, hget⟩ := exists_getElem?_apply_of hremoved
    obtain ⟨j, hj, hget'⟩ := exists_getElem?_apply_of hkept
    have hnext := placeAfter_succ h
    obtain rfl : j = i + 1 := by omega
    exact .inr ⟨rfl, hkept, i, hi, hj, hget, hget'⟩

end ChangeSet

-- ============================================================================
-- Text edits
-- ============================================================================

/-- No edit of a text begins or ends inside a carriage return and line feed. -/
theorem Change.avoids_ofEdit {t : Text} {pos : Nat} (h : t.InsideCrLf pos) (e : TextEdit) :
    (ofEdit t e).Avoids pos where
  start_ne := by
    rintro rfl
    exact t.not_insideCrLf_offsetAt e.range.start h
  stop_ne := by
    rintro rfl
    exact t.not_insideCrLf_offsetAt e.range.stop h

theorem Text.InsideCrLf.lt_length {t : Text} {pos : Nat} (h : t.InsideCrLf pos) :
    pos < t.length := by
  obtain ⟨-, -, hlf⟩ := h
  exact (List.getElem?_eq_some_iff.mp hlf).1

namespace State

variable {κ : Type} [FieldSignature κ] [DecidableEq κ] [StateFields κ]

/-- A carriage return and line feed are both removed by a batch of text edits, or both kept, one
right behind the other in the new text. -/
theorem crLf_removed_or_adjacent (s : State κ) (edits : List TextEdit) {pos : Nat}
    (h : s.doc.InsideCrLf (pos + 1)) :
    ((s.update (.textEdits s edits)).changes.removes pos = true ∧
        (s.update (.textEdits s edits)).changes.removes (pos + 1) = true) ∨
      ((s.update (.textEdits s edits)).changes.removes pos = false ∧
        (s.update (.textEdits s edits)).changes.removes (pos + 1) = false ∧
        ∃ i : Nat, (i : Int) = (s.update (.textEdits s edits)).changes.placeAfter pos ∧
          ((i + 1 : Nat) : Int)
            = (s.update (.textEdits s edits)).changes.placeAfter (pos + 1) ∧
          (s.update (.textEdits s edits)).state.doc.InsideCrLf (i + 1)) := by
  have havoids : ∀ c ∈ edits.map (Change.ofEdit s.doc), c.Avoids (pos + 1) := by
    rw [List.forall_mem_map]
    exact fun e _ => Change.avoids_ofEdit h e
  have hchanges := ChangeSet.avoids_changes_of havoids (Nat.succ_pos pos) h.lt_length
  obtain ⟨-, hcr, hlf⟩ := h
  rw [Nat.add_sub_cancel] at hcr
  refine (ChangeSet.removes_or_adjacent hchanges).imp_right ?_
  rintro ⟨hkept, hkept', i, hi, hi', hget, hget'⟩
  exact ⟨hkept, hkept', i, hi, hi', Nat.succ_pos i, hget.trans hcr, hget'.trans hlf⟩

/-- Three lines that end in a carriage return and line feed but for the last. -/
def threeLines : State (WithDocument Empty) :=
  create { doc := "a\r\nb\r\nc".toList }

/-- Insertions before and behind the first break, and an edit with its ends reversed from behind
the content of the second line to the end. -/
def aroundBreaks : List TextEdit :=
  [⟨⟨⟨0, 9⟩, ⟨0, 9⟩⟩, "x"⟩, ⟨⟨⟨9, 0⟩, ⟨1, 9⟩⟩, "z"⟩, ⟨⟨⟨1, 0⟩, ⟨1, 0⟩⟩, "y"⟩]

/-- The first break is kept behind what is inserted before it, the second is removed. -/
theorem crLf_removed_or_adjacent_aroundBreaks :
    (threeLines.update (.textEdits threeLines aroundBreaks)).state.doc = "ax\r\nybz".toList ∧
      (threeLines.update (.textEdits threeLines aroundBreaks)).state.doc.InsideCrLf 3 ∧
      (threeLines.update (.textEdits threeLines aroundBreaks)).changes.removes 4 = true ∧
      (threeLines.update (.textEdits threeLines aroundBreaks)).changes.removes 5 = true := by
  have hfirstBreak : threeLines.doc.InsideCrLf (1 + 1) := by decide
  have hsecondBreak : threeLines.doc.InsideCrLf (4 + 1) := by decide
  have hchanges : (threeLines.update (.textEdits threeLines aroundBreaks)).changes
      = ⟨[.insertion 1 ['x'], .insertion 3 ['y'], ⟨4, 7, ['z']⟩], 7⟩ := by
    cbv
  have hdoc : (threeLines.update (.textEdits threeLines aroundBreaks)).state.doc
      = "ax\r\nybz".toList := by
    rw [doc_update]
    exact congrArg (·.apply threeLines.doc) hchanges
  have hfirst := crLf_removed_or_adjacent threeLines aroundBreaks hfirstBreak
  have hsecond := crLf_removed_or_adjacent threeLines aroundBreaks hsecondBreak
  rw [hchanges] at hfirst hsecond
  refine ⟨hdoc, ?_, ?_⟩
  · obtain ⟨hremoved, -⟩ | ⟨-, -, i, hi, -, hinside⟩ := hfirst
    · exact absurd hremoved (by decide)
    · obtain rfl : i = 2 := Int.ofNat_inj.mp hi
      exact hinside
  · rw [hchanges]
    obtain hremoved | ⟨hkept, -⟩ := hsecond
    · exact hremoved
    · exact absurd hkept (by decide)

end State

end HeadlessEditor
