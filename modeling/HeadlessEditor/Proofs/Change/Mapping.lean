/-
  HeadlessEditor.Proofs.Change.Mapping

  Where offsets go.  For a document whose lengths are signed words the word
  arithmetic of `mapFrom` is exact: `route` counts the characters written so
  far instead of a signed shift, and needs neither signs nor words.

  An offset that stays behind the text inserted at it should lie behind all
  of it (`placeAfter`), where the character that followed it before is found
  again.  It does so exactly if at most one change touches it; the texts of
  further changes at the same offset come after it.
-/

import HeadlessEditor.Change.Mapping
import HeadlessEditor.Proofs.Change.Normal
import Mathlib

namespace HeadlessEditor

namespace Change

variable {lo hi pos written : Nat} {shift : Int} {side : Assoc} {c : Change} {cs : List Change}

-- ============================================================================
-- Words
-- ============================================================================

/-- The number of words that stand for themselves as signed numbers. -/
def signedCount : Nat :=
  9223372036854775808

theorem signed_of_lt {n : Nat} (h : n < signedCount) : signed n = n := by
  simp only [signedCount] at h
  apply Int.bmod_eq_of_le <;> simp only [wordCount] <;> omega

theorem word_of_lt {n : Nat} (h : n < wordCount) : word n = n := by
  rw [word, Int.emod_eq_of_lt (by omega) (by omega), Int.toNat_natCast]

/-- The number of characters that changes insert. -/
def inserted (cs : List Change) : Nat :=
  (cs.flatMap Change.text).length

theorem inserted_cons (c : Change) (cs : List Change) :
    inserted (c :: cs) = c.text.length + inserted cs := by
  rw [inserted, List.flatMap_cons, List.length_append, inserted]

-- ============================================================================
-- Offsets by counting
-- ============================================================================

/-- Where an offset that the change touches goes, if the change starts at `here` of the new
document. -/
def settle (c : Change) (here pos : Nat) (side : Assoc) : Nat :=
  match side with
  | .after => here + c.text.length
  | .before => if pos = c.stop ∧ c.start ≠ c.stop then here + c.text.length else here

/-- Where an offset goes in the new document, when `written` characters of that stand for those
before `lo`. -/
def route (written lo pos : Nat) (side : Assoc) : List Change → Nat
  | [] => written + (pos - lo)
  | c :: rest =>
      if pos < c.start then written + (pos - lo)
      else if c.stop < pos then
        route (written + (c.start - lo) + c.text.length) c.stop pos side rest
      else c.settle (written + (c.start - lo)) pos side

theorem land_eq_settle (c : Change) (shift : Int) (pos : Nat) (side : Assoc) :
    c.land shift pos side = c.settle (word (signed c.start + shift)) pos side :=
  rfl

/-- While all lengths are signed words, mapping an offset is counting. -/
theorem mapFrom_eq_route (h : Ascend lo hi cs) (hlo : lo ≤ pos) (hpos : pos < signedCount)
    (hhi : hi < signedCount) (hcs : inserted cs < signedCount)
    (hwritten : written + (hi - lo) + inserted cs < wordCount)
    (hshift : shift = written - lo) :
    ChangeSet.mapFrom shift pos side cs = route written lo pos side cs := by
  induction cs generalizing lo shift written with
  | nil =>
    rw [ChangeSet.mapFrom, route, signed_of_lt hpos]
    omega
  | cons c rest ih =>
    obtain ⟨hstart, hspan, hrest⟩ := h
    have hle := hrest.le
    rw [inserted_cons] at hcs hwritten
    rw [ChangeSet.mapFrom, route, signed_of_lt hpos]
    by_cases hbefore : pos < c.start
    · rw [if_pos hbefore, if_pos hbefore]
      omega
    · rw [if_neg hbefore, if_neg hbefore]
      by_cases hbehind : c.stop < pos
      · rw [if_pos hbehind, if_pos hbehind]
        apply ih hrest (by omega) (by omega) (by omega)
        rw [growth, signed_of_lt (by omega), signed_of_lt (by omega)]
        omega
      · rw [if_neg hbehind, if_neg hbehind, land_eq_settle, signed_of_lt (by omega),
          show (c.start : Int) + shift = (written + (c.start - lo) : Nat) by omega,
          word_of_lt (by omega)]

-- ============================================================================
-- Behind all text inserted at an offset
-- ============================================================================

/-- By how much changes lengthen a document, all together. -/
def gains : List Change → Int
  | [] => 0
  | c :: rest => c.gain + gains rest

theorem gain_eq (h : c.start ≤ c.stop) : c.gain = c.text.length + c.start - c.stop := by
  rw [gain]
  omega

/-- Whether an offset lies in or at the ends of what the change replaces. -/
def touches (pos : Nat) (c : Change) : Bool :=
  c.start ≤ pos && pos ≤ c.stop

theorem touches_iff : touches pos c = true ↔ c.start ≤ pos ∧ pos ≤ c.stop := by
  simp [touches]

/-- The changes that an offset is at or behind the start of. -/
def upTo (pos : Nat) (cs : List Change) : List Change :=
  cs.filter fun c => c.start ≤ pos

theorem upTo_eq_nil (h : Ascend lo hi cs) (hpos : pos < lo) : upTo pos cs = [] := by
  rw [upTo, List.filter_eq_nil_iff]
  intro c hc
  have := h.bounds hc
  simp only [decide_eq_true_eq]
  omega

theorem upTo_eq_self (h : Ascend lo hi cs) (hpos : hi ≤ pos) : upTo pos cs = cs := by
  rw [upTo, List.filter_eq_self]
  intro c hc
  have := h.bounds hc
  simp only [decide_eq_true_eq]
  omega

/-- At the very start of changes, the ones that start there touch. -/
theorem filter_touches_eq_upTo (h : Ascend pos hi cs) : cs.filter (touches pos) = upTo pos cs := by
  apply List.filter_congr
  intro c hc
  have := h.bounds hc
  rw [Bool.eq_iff_iff, touches_iff, decide_eq_true_eq]
  omega

theorem filter_touches_eq_nil (h : Ascend lo hi cs) (hpos : pos < lo) :
    cs.filter (touches pos) = [] := by
  rw [List.filter_eq_nil_iff]
  intro c hc
  have := h.bounds hc
  rw [touches_iff]
  omega

/-- What an offset misses of its place behind all text inserted at it are the texts of the
changes after the first one that touches it. -/
theorem route_after_add (written : Nat) (h : Ascend lo hi cs) (hlo : lo ≤ pos)
    (hkept : ∀ c ∈ cs, removesAt pos c = false) :
    (route written lo pos .after cs : Int) + gains ((cs.filter (touches pos)).drop 1)
      = written + (pos - lo) + gains (upTo pos cs) := by
  induction cs generalizing lo written with
  | nil =>
    simp only [route, upTo, List.filter_nil, List.drop_nil, gains]
    omega
  | cons c rest ih =>
    obtain ⟨hstart, hspan, hrest⟩ := h
    have hgain := gain_eq hspan
    rw [route]
    by_cases hbefore : pos < c.start
    · have hall : Ascend c.start hi (c :: rest) := ⟨Nat.le_refl _, hspan, hrest⟩
      rw [if_pos hbefore, filter_touches_eq_nil hall hbefore, upTo_eq_nil hall hbefore]
      simp only [List.drop_nil, gains]
      omega
    · have hupTo : upTo pos (c :: rest) = c :: upTo pos rest :=
        List.filter_cons_of_pos (by simpa using hbefore)
      rw [if_neg hbefore, hupTo, gains]
      by_cases hbehind : c.stop < pos
      · have htouches : ¬ touches pos c = true := by
          rw [touches_iff]
          omega
        have hih := ih (written + (c.start - lo) + c.text.length) hrest (by omega)
          fun d hd => hkept d (List.mem_cons_of_mem _ hd)
        rw [if_pos hbehind, List.filter_cons_of_neg htouches]
        omega
      · -- the character at the offset is kept, so the change stops there
        have hstop : c.stop = pos := by
          have hc := hkept c (List.mem_cons_self ..)
          rw [Bool.eq_false_iff, Ne, removesAt_iff] at hc
          omega
        have htouches : touches pos c = true := by
          rw [touches_iff]
          omega
        rw [if_neg hbehind, List.filter_cons_of_pos htouches, List.drop_one, List.tail_cons,
          filter_touches_eq_upTo (hstop ▸ hrest), settle]
        omega

/-- Of the changes that touch an offset, all but the first start there. -/
theorem start_eq_of_mem_drop (h : Ascend lo hi cs) {d : Change}
    (hd : d ∈ (cs.filter (touches pos)).drop 1) : d.start = pos := by
  induction cs generalizing lo with
  | nil => simp at hd
  | cons c rest ih =>
    obtain ⟨-, -, hrest⟩ := h
    by_cases hc : touches pos c = true
    · rw [List.filter_cons_of_pos hc, List.drop_one, List.tail_cons, List.mem_filter,
        touches_iff] at hd
      have := hrest.bounds hd.1
      rw [touches_iff] at hc
      omega
    · rw [List.filter_cons_of_neg hc] at hd
      exact ih hrest hd

/-- Changes that all lengthen the document lengthen it, unless there are none. -/
theorem gains_eq_zero_iff (h : ∀ c ∈ cs, 0 < c.gain) : gains cs = 0 ↔ cs = [] := by
  have hnonneg : ∀ ds : List Change, (∀ d ∈ ds, 0 < d.gain) → 0 ≤ gains ds := by
    intro ds hds
    induction ds with
    | nil => exact Int.le_refl 0
    | cons d rest ih =>
      have hd := hds d (List.mem_cons_self ..)
      have := ih fun e he => hds e (List.mem_cons_of_mem _ he)
      rw [gains]
      omega
  cases cs with
  | nil => simp [gains]
  | cons c rest =>
    have hc := h c (List.mem_cons_self ..)
    have := hnonneg rest fun d hd => h d (List.mem_cons_of_mem _ hd)
    rw [gains]
    simp only [reduceCtorEq, iff_false]
    omega

/-- A kept character stands in the new document behind all changes up to it. -/
theorem getElem?_weave (h : Ascend lo hi cs) (hlo : lo ≤ pos)
    (hkept : ∀ c ∈ cs, removesAt pos c = false) {t : Text} (hhi : hi ≤ t.length) :
    ∃ i : Nat, (i : Int) = (pos - lo) + gains (upTo pos cs) ∧ (t.weave lo cs)[i]? = t[pos]? := by
  induction cs generalizing lo with
  | nil =>
    refine ⟨pos - lo, ?_, ?_⟩
    · simp only [upTo, List.filter_nil, gains]
      omega
    · rw [Text.weave, List.getElem?_drop, Nat.add_sub_cancel' hlo]
  | cons c rest ih =>
    obtain ⟨hstart, hspan, hrest⟩ := h
    have hle := hrest.le
    have hslice : (t.slice lo c.start).length = c.start - lo := by
      rw [Text.length_slice]
      omega
    rw [Text.weave]
    by_cases hbefore : pos < c.start
    · have hall : Ascend c.start hi (c :: rest) := ⟨Nat.le_refl _, hspan, hrest⟩
      refine ⟨pos - lo, ?_, ?_⟩
      · rw [upTo_eq_nil hall hbefore, gains]
        omega
      · rw [List.append_assoc, List.getElem?_append_left (by omega), Text.slice,
          List.getElem?_drop, Nat.add_sub_cancel' hlo, List.getElem?_take_of_lt hbefore]
    · have hstop : c.stop ≤ pos := by
        have hc := hkept c (List.mem_cons_self ..)
        rw [Bool.eq_false_iff, Ne, removesAt_iff] at hc
        omega
      obtain ⟨i, hi', hget⟩ := ih hrest hstop fun d hd => hkept d (List.mem_cons_of_mem _ hd)
      have hupTo : upTo pos (c :: rest) = c :: upTo pos rest :=
        List.filter_cons_of_pos (by simpa using hbefore)
      refine ⟨c.start - lo + c.text.length + i, ?_, ?_⟩
      · rw [hupTo, gains, gain_eq hspan]
        omega
      · rw [← hget, List.getElem?_append_right (by rw [List.length_append, hslice]; omega),
          List.length_append, hslice, Nat.add_sub_cancel_left]

theorem foldl_length (h : Ascend lo hi cs) {length : Nat} (hlength : hi - lo ≤ length) :
    ((cs.foldl (fun length c => length - (c.stop - c.start) + c.text.length) length : Nat) : Int)
      = length + gains cs := by
  induction cs generalizing lo length with
  | nil => simp [gains]
  | cons c rest ih =>
    obtain ⟨hstart, hspan, hrest⟩ := h
    have hle := hrest.le
    rw [List.foldl_cons, ih hrest (by omega), gains, gain_eq hspan]
    omega

theorem length_weave (h : Ascend lo hi cs) {t : Text} (hhi : hi ≤ t.length) :
    ((t.weave lo cs).length : Int) = (t.length - lo) + gains cs := by
  induction cs generalizing lo with
  | nil =>
    have hle : lo ≤ hi := h
    rw [Text.weave, List.length_drop, gains]
    omega
  | cons c rest ih =>
    obtain ⟨hstart, hspan, hrest⟩ := h
    have hle := hrest.le
    have hslice : (t.slice lo c.start).length = c.start - lo := by
      rw [Text.length_slice]
      omega
    have hlength := ih hrest
    rw [Text.weave, List.length_append, List.length_append, hslice, gains, gain_eq hspan]
    omega

/-- Of what changes insert, a document loses no more again than they remove of it. -/
theorem inserted_sub_le_gains (h : Ascend lo hi cs) :
    (inserted cs : Int) - (hi - lo) ≤ gains cs := by
  induction cs generalizing lo with
  | nil =>
    have hle : lo ≤ hi := h
    rw [inserted, List.flatMap_nil, List.length_nil, gains]
    omega
  | cons c rest ih =>
    obtain ⟨hstart, hspan, hrest⟩ := h
    have hgain := gain_eq hspan
    have := ih hrest
    rw [inserted_cons, gains]
    omega

end Change

namespace ChangeSet

open Change

variable {n pos : Nat} {specs : List Change}

theorem inserted_changes_of (specs : List Change) (n : Nat) :
    inserted (of specs n).changes = inserted specs := by
  have htexts : ∀ cs : List Change,
      inserted cs = ((cs.map Change.text).filter fun text => !text.isEmpty).flatten.length := by
    intro cs
    rw [inserted, List.flatten_filter_not_isEmpty, List.flatMap_def]
  rw [htexts, htexts]
  exact (perm_text_changes_of specs n).flatten.length_eq

/-- The changes of a set that touch an offset. -/
def touching (cs : ChangeSet) (pos : Nat) : List Change :=
  cs.changes.filter (touches pos)

/-- The place behind all text inserted at an offset or before it. -/
def placeAfter (cs : ChangeSet) (pos : Nat) : Int :=
  pos + gains (upTo pos cs.changes)

theorem mapPos_of_eq_route (hn : n < signedCount) (hspecs : inserted specs < signedCount)
    (hpos : pos ≤ n) (side : Assoc) :
    (of specs n).mapPos pos side = route 0 0 pos side (of specs n).changes := by
  have hcs := inserted_changes_of specs n
  apply mapFrom_eq_route (ascend_changes_of specs n) (Nat.zero_le _) <;>
    simp only [signedCount, wordCount] at * <;> omega

theorem afterLength_of (specs : List Change) (n : Nat) :
    ((of specs n).afterLength : Int) = n + gains (of specs n).changes := by
  rw [afterLength, beforeLength_of, foldl_length (ascend_changes_of specs n) (Nat.le_refl n)]

theorem placeAfter_length (specs : List Change) (n : Nat) :
    (of specs n).placeAfter n = (of specs n).afterLength := by
  rw [placeAfter, upTo_eq_self (ascend_changes_of specs n) (Nat.le_refl n), afterLength_of]

theorem length_apply_of (specs : List Change) (t : Text) :
    ((of specs t.length).apply t).length = (of specs t.length).afterLength := by
  have hasc := ascend_changes_of specs t.length
  have hafter := afterLength_of specs t.length
  have hweave := length_weave hasc (Nat.le_refl t.length)
  rw [apply_eq_weave hasc]
  omega

/-- The new document holds all the text that is inserted. -/
theorem inserted_le_afterLength (specs : List Change) (n : Nat) :
    inserted specs ≤ (of specs n).afterLength := by
  have hafter := afterLength_of specs n
  have hgains := inserted_sub_le_gains (ascend_changes_of specs n)
  rw [inserted_changes_of] at hgains
  omega

/-- No change of a normal form removes the end of the document. -/
theorem removesAt_eq_false (hkept : pos = n ∨ (of specs n).removes pos = false) :
    ∀ c ∈ (of specs n).changes, removesAt pos c = false := by
  intro c hc
  rw [Bool.eq_false_iff, Ne, removesAt_iff]
  rcases hkept with hend | hkept
  · have := (ascend_changes_of specs n).bounds hc
    omega
  · have := List.any_eq_false.mp hkept c hc
    simpa using this

/-- Further insertions at an offset all lengthen the document. -/
theorem gain_pos_of_mem_drop (hkept : pos = n ∨ (of specs n).removes pos = false) {c : Change}
    (hc : c ∈ ((of specs n).touching pos).drop 1) : 0 < c.gain := by
  have hstart := start_eq_of_mem_drop (ascend_changes_of specs n) hc
  obtain ⟨hmem, htouches⟩ := List.mem_filter.mp (List.mem_of_mem_drop hc)
  have hvoid := isVoid_eq_false_of_mem hmem
  have hstop : c.stop = pos := by
    have hnot := removesAt_eq_false hkept c hmem
    rw [Bool.eq_false_iff, Ne, removesAt_iff] at hnot
    rw [touches_iff] at htouches
    omega
  have htext : 0 < c.text.length := by
    rw [isVoid, hstart, hstop, beq_self_eq_true, Bool.true_and] at hvoid
    exact List.length_pos_iff.mpr (by simpa using hvoid)
  rw [gain_eq (by omega)]
  omega

/-- An offset whose character is kept, or the end of the document, should go behind all text
inserted at it, where the character stands in the new document; the end goes to the end.  What
it misses of that are the texts of the changes after the first one that touches it, so it goes
there exactly if at most one change does. -/
theorem mapPos_after_eq_placeAfter_iff (hn : n < signedCount)
    (hspecs : inserted specs < signedCount) (hpos : pos ≤ n)
    (hkept : pos = n ∨ (of specs n).removes pos = false) :
    ((of specs n).mapPos pos .after : Int) + gains (((of specs n).touching pos).drop 1)
        = (of specs n).placeAfter pos ∧
      (((of specs n).mapPos pos .after : Int) = (of specs n).placeAfter pos
        ↔ ((of specs n).touching pos).length ≤ 1) ∧
      (∀ t : Text, t.length = n → ∃ i : Nat, (i : Int) = (of specs n).placeAfter pos ∧
        ((of specs n).apply t)[i]? = t[pos]?) ∧
      (of specs n).placeAfter n = (of specs n).afterLength := by
  have hasc := ascend_changes_of specs n
  have hnot := removesAt_eq_false hkept
  have hmissed : ((of specs n).mapPos pos .after : Int)
      + gains (((of specs n).touching pos).drop 1) = (of specs n).placeAfter pos := by
    have h := route_after_add 0 hasc (Nat.zero_le pos) hnot
    rw [mapPos_of_eq_route hn hspecs hpos, touching, placeAfter]
    omega
  refine ⟨hmissed, ?_, ?_, placeAfter_length specs n⟩
  · have hnone := gains_eq_zero_iff fun c hc => gain_pos_of_mem_drop hkept hc
    rw [List.drop_eq_nil_iff] at hnone
    rw [← hnone]
    omega
  · intro t ht
    subst ht
    obtain ⟨i, hi, hget⟩ := getElem?_weave hasc (Nat.zero_le pos) hnot (Nat.le_refl _)
    refine ⟨i, ?_, ?_⟩
    · rw [hi, placeAfter]
      omega
    · rw [apply_eq_weave hasc, hget]

/-- An insertion at the end of a replaced range: the offset there goes behind the replacement, but
stays before what is inserted. -/
theorem mapPos_after_replacement_end :
    (of [⟨1, 3, ['x', 'y']⟩, insertion 3 ['z']] 5).removes 3 = false ∧
      (of [⟨1, 3, ['x', 'y']⟩, insertion 3 ['z']] 5).placeAfter 3 = 4 ∧
      ((of [⟨1, 3, ['x', 'y']⟩, insertion 3 ['z']] 5).mapPos 3 .after : Int) + 1 = 4 := by
  have hof : of [⟨1, 3, ['x', 'y']⟩, insertion 3 ['z']] 5
      = ⟨[⟨1, 3, ['x', 'y']⟩, insertion 3 ['z']], 5⟩ := by
    cbv
  have hkept : (of [⟨1, 3, ['x', 'y']⟩, insertion 3 ['z']] 5).removes 3 = false := by
    rw [hof]
    decide
  have h := (mapPos_after_eq_placeAfter_iff (n := 5) (by decide) (by decide) (by decide)
    (Or.inr hkept)).1
  rw [hof] at h hkept ⊢
  exact ⟨hkept, by decide, h⟩

/-- Of two texts inserted at one offset, only the first comes before it. -/
theorem mapPos_after_ne_placeAfter :
    (of [insertion 1 ['x'], insertion 1 ['y']] 3).removes 1 = false ∧
      ((of [insertion 1 ['x'], insertion 1 ['y']] 3).mapPos 1 .after : Int)
        ≠ (of [insertion 1 ['x'], insertion 1 ['y']] 3).placeAfter 1 := by
  decide_cbv

end ChangeSet

end HeadlessEditor
