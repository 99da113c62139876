/-
  HeadlessEditor.Proofs.Change.Order

  Mapping offsets keeps their order.  Offsets in order go to offsets in
  order, the two sides of an insertion are in order, and no offset leaves
  the new document.

  The signed numbers it is computed with (`mapTraced` lists them) are never
  negative, so that no word wraps and nothing is cut off.  An offset that
  stays before the text inserted at it goes directly behind the character
  before it, if that one is kept, and before all that text (`placeBefore`).
-/

import HeadlessEditor.Proofs.Change.Mapping

namespace HeadlessEditor

namespace Change

variable {lo hi pos p q written : Nat} {shift : Int} {side : Assoc} {c : Change}
  {cs : List Change} {t : Text}

-- ============================================================================
-- Order
-- ============================================================================

theorem le_settle (c : Change) (here pos : Nat) (side : Assoc) :
    here ≤ c.settle here pos side := by
  cases side with
  | after => exact Nat.le_add_right ..
  | before =>
    rw [settle]
    split <;> omega

theorem settle_le (c : Change) (here pos : Nat) (side : Assoc) :
    c.settle here pos side ≤ here + c.text.length := by
  cases side with
  | after => exact Nat.le_refl _
  | before =>
    rw [settle]
    split <;> omega

/-- Of the offsets a change touches, its end goes furthest and all others go one way. -/
theorem settle_mono (c : Change) (here : Nat) (side : Assoc) (hpq : p ≤ q) (hq : q ≤ c.stop) :
    c.settle here p side ≤ c.settle here q side := by
  cases side with
  | after => exact Nat.le_refl _
  | before =>
    by_cases hp : p = c.stop
    · obtain rfl : q = p := by omega
      exact Nat.le_refl _
    · have hpsettle : c.settle here p .before = here := by
        rw [settle, if_neg fun hends => hp hends.1]
      rw [hpsettle]
      exact le_settle ..

/-- The new place of an offset lies behind what has been written. -/
theorem le_route (h : Ascend lo hi cs) (hlo : lo ≤ pos) (written : Nat) (side : Assoc) :
    written ≤ route written lo pos side cs := by
  induction cs generalizing lo written with
  | nil => exact Nat.le_add_right ..
  | cons c rest ih =>
    obtain ⟨-, -, hrest⟩ := h
    rw [route]
    by_cases hbefore : pos < c.start
    · rw [if_pos hbefore]
      exact Nat.le_add_right ..
    · rw [if_neg hbefore]
      by_cases hbehind : c.stop < pos
      · have := ih hrest (by omega) (written + (c.start - lo) + c.text.length)
        rw [if_pos hbehind]
        omega
      · have := le_settle c (written + (c.start - lo)) pos side
        rw [if_neg hbehind]
        omega

theorem route_mono (h : Ascend lo hi cs) (hlo : lo ≤ p) (hpq : p ≤ q) (written : Nat)
    (side : Assoc) : route written lo p side cs ≤ route written lo q side cs := by
  induction cs generalizing lo written with
  | nil =>
    rw [route, route]
    omega
  | cons c rest ih =>
    obtain ⟨hstart, -, hrest⟩ := h
    have hpsettle := settle_le c (written + (c.start - lo)) p side
    have hqsettle := le_settle c (written + (c.start - lo)) q side
    rw [route, route]
    by_cases hqbefore : q < c.start
    · rw [if_pos hqbefore, if_pos (by omega)]
      omega
    rw [if_neg hqbefore]
    by_cases hqbehind : c.stop < q
    · have hqroute := le_route hrest (show c.stop ≤ q by omega)
        (written + (c.start - lo) + c.text.length) side
      rw [if_pos hqbehind]
      by_cases hpbefore : p < c.start
      · rw [if_pos hpbefore]
        omega
      rw [if_neg hpbefore]
      by_cases hpbehind : c.stop < p
      · rw [if_pos hpbehind]
        exact ih hrest (by omega) _
      · rw [if_neg hpbehind]
        omega
    · rw [if_neg hqbehind]
      by_cases hpbefore : p < c.start
      · rw [if_pos hpbefore]
        omega
      · rw [if_neg hpbefore, if_neg (by omega)]
        exact settle_mono c _ side hpq (by omega)

theorem route_before_le_after (written lo pos : Nat) (cs : List Change) :
    route written lo pos .before cs ≤ route written lo pos .after cs := by
  induction cs generalizing lo written with
  | nil => exact Nat.le_refl _
  | cons c rest ih =>
    rw [route, route]
    by_cases hbefore : pos < c.start
    · exact Nat.le_of_eq (by rw [if_pos hbefore, if_pos hbefore])
    rw [if_neg hbefore, if_neg hbefore]
    by_cases hbehind : c.stop < pos
    · rw [if_pos hbehind, if_pos hbehind]
      exact ih _ _
    · rw [if_neg hbehind, if_neg hbehind]
      exact settle_le ..

/-- Changes shorten a document by what they remove at most. -/
theorem neg_le_gains (h : Ascend lo hi cs) : (lo : Int) - hi ≤ gains cs := by
  have := inserted_sub_le_gains h
  omega

/-- No offset goes behind the end of the new document. -/
theorem route_le (h : Ascend lo hi cs) (hlo : lo ≤ pos) (hpos : pos ≤ hi) (written : Nat)
    (side : Assoc) :
    (route written lo pos side cs : Int) ≤ written + (hi - lo) + gains cs := by
  induction cs generalizing lo written with
  | nil =>
    rw [route, gains]
    omega
  | cons c rest ih =>
    obtain ⟨hstart, hspan, hrest⟩ := h
    have hle := hrest.le
    have hgain := gain_eq hspan
    have hgains := neg_le_gains hrest
    rw [gains, route]
    by_cases hbefore : pos < c.start
    · rw [if_pos hbefore]
      omega
    rw [if_neg hbefore]
    by_cases hbehind : c.stop < pos
    · have := ih hrest (by omega) (written + (c.start - lo) + c.text.length)
      rw [if_pos hbehind]
      omega
    · have := settle_le c (written + (c.start - lo)) pos side
      rw [if_neg hbehind]
      omega

-- ============================================================================
-- The signed numbers
-- ============================================================================

/-- Mapping an offset, with the signed numbers it is computed with: those that words are read as,
and the sum that is turned back into a word.  The shift itself, a difference of lengths, is not
among them. -/
def mapTraced (shift : Int) (pos : Nat) (side : Assoc) : List Change → Nat × List Int
  | [] => ((signed pos + shift).toNat, [signed pos, signed pos + shift])
  | c :: rest =>
      if pos < c.start then ((signed pos + shift).toNat, [signed pos, signed pos + shift])
      else if c.stop < pos then
        let (goal, numbers) := mapTraced (shift + c.growth) pos side rest
        (goal, signed c.text.length :: signed (c.stop - c.start) :: numbers)
      else
        (c.land shift pos side, [signed c.text.length, signed c.start, signed c.start + shift])

/-- Keeping the numbers does not change where an offset goes. -/
theorem fst_mapTraced (shift : Int) (pos : Nat) (side : Assoc) (cs : List Change) :
    (mapTraced shift pos side cs).1 = ChangeSet.mapFrom shift pos side cs := by
  induction cs generalizing shift with
  | nil => rw [mapTraced, ChangeSet.mapFrom]
  | cons c rest ih =>
    rw [mapTraced, ChangeSet.mapFrom]
    by_cases hbefore : pos < c.start
    · rw [if_pos hbefore, if_pos hbefore]
    rw [if_neg hbefore, if_neg hbefore]
    by_cases hbehind : c.stop < pos
    · rw [if_pos hbehind, if_pos hbehind, ← ih]
    · rw [if_neg hbehind, if_neg hbehind]

/-- While a document and all that is inserted fit into the signed words, none of the numbers is
negative or too large. -/
theorem bounds_of_mem_mapTraced (written : Nat) (h : Ascend lo hi cs) (hlo : lo ≤ pos)
    (hpos : pos ≤ hi) (hhi : hi < signedCount)
    (hwritten : written + (hi - lo) + inserted cs < signedCount) (hshift : shift = written - lo)
    {v : Int} (hv : v ∈ (mapTraced shift pos side cs).2) :
    0 ≤ v ∧ v < signedCount := by
  induction cs generalizing lo shift written with
  | nil =>
    rw [mapTraced, signed_of_lt (by omega)] at hv
    simp only [List.mem_cons, List.not_mem_nil, or_false] at hv
    omega
  | cons c rest ih =>
    obtain ⟨hstart, hspan, hrest⟩ := h
    have hle := hrest.le
    rw [inserted_cons] at hwritten
    rw [mapTraced, signed_of_lt (n := pos) (by omega), signed_of_lt (n := c.text.length) (by omega),
      signed_of_lt (n := c.start) (by omega), signed_of_lt (n := c.stop - c.start) (by omega)] at hv
    by_cases hbefore : pos < c.start
    · rw [if_pos hbefore] at hv
      simp only [List.mem_cons, List.not_mem_nil, or_false] at hv
      omega
    rw [if_neg hbefore] at hv
    by_cases hbehind : c.stop < pos
    · rw [if_pos hbehind] at hv
      simp only [List.mem_cons] at hv
      obtain rfl | rfl | hv := hv
      · omega
      · omega
      · refine ih (written + (c.start - lo) + c.text.length) hrest (by omega) (by omega) ?_ hv
        rw [growth, signed_of_lt (by omega), signed_of_lt (by omega)]
        omega
    · rw [if_neg hbehind] at hv
      simp only [List.mem_cons, List.not_mem_nil, or_false] at hv
      omega

-- ============================================================================
-- Before all text inserted at an offset
-- ============================================================================

/-- The changes that an offset lies behind the start of. -/
def before (pos : Nat) (cs : List Change) : List Change :=
  cs.filter fun c => c.start < pos

/-- The texts that changes insert where they start, at an offset. -/
def textsAt (pos : Nat) (cs : List Change) : Text :=
  (cs.filter fun c => c.start == pos).flatMap Change.text

/-- Behind the start of a change lies what is at or behind it one character earlier. -/
theorem before_eq_upTo (hpos : 0 < pos) (cs : List Change) : before pos cs = upTo (pos - 1) cs := by
  apply List.filter_congr
  intro c _
  rw [decide_eq_decide]
  omega

theorem before_eq_nil (h : Ascend lo hi cs) (hpos : pos ≤ lo) : before pos cs = [] := by
  rw [before, List.filter_eq_nil_iff]
  intro c hc
  have := h.bounds hc
  simp only [decide_eq_true_eq]
  omega

theorem textsAt_eq_nil (h : Ascend lo hi cs) (hpos : pos < lo) : textsAt pos cs = [] := by
  have hnone : cs.filter (fun c => c.start == pos) = [] := by
    rw [List.filter_eq_nil_iff]
    intro c hc
    have := h.bounds hc
    simp only [beq_iff_eq]
    omega
  rw [textsAt, hnone, List.flatMap_nil]

/-- Where an offset goes that none of the changes before it reaches: it moves by what they have
grown, and the document goes on there with the changes from the offset on. -/
theorem route_before_eq (h : Ascend lo hi cs) (hlo : lo ≤ pos)
    (hreach : ∀ c ∈ cs, c.start < pos → c.stop < pos) (written : Nat) :
    (route written lo pos .before cs : Int) = written + (pos - lo) + gains (before pos cs) := by
  induction cs generalizing lo written with
  | nil =>
    rw [route, before, List.filter_nil, gains]
    omega
  | cons c rest ih =>
    obtain ⟨hstart, hspan, hrest⟩ := h
    have hreach' := List.forall_mem_cons.mp hreach
    rw [route]
    by_cases hbefore : pos < c.start
    · have hall : Ascend c.start hi (c :: rest) := ⟨Nat.le_refl _, hspan, hrest⟩
      rw [if_pos hbefore, before_eq_nil hall (by omega), gains]
      omega
    rw [if_neg hbefore]
    by_cases hbehind : c.stop < pos
    · have hcons : before pos (c :: rest) = c :: before pos rest :=
        List.filter_cons_of_pos (by simp only [decide_eq_true_eq]; omega)
      have hgain := gain_eq hspan
      have := ih hrest (by omega) hreach'.2 (written + (c.start - lo) + c.text.length)
      rw [if_pos hbehind, hcons, gains]
      omega
    · -- the change touches the offset, so it starts there
      have hpos : c.start = pos := by
        have := hreach'.1
        omega
      have hall : Ascend pos hi (c :: rest) := ⟨by omega, hspan, hrest⟩
      have hsettle : c.settle (written + (c.start - lo)) pos .before
          = written + (c.start - lo) := by
        rw [settle, if_neg (by omega)]
      rw [if_neg hbehind, hsettle, before_eq_nil hall (Nat.le_refl _), gains]
      omega

theorem route_eq_add (written lo pos : Nat) (side : Assoc) (cs : List Change) :
    route written lo pos side cs = written + route 0 lo pos side cs := by
  induction cs generalizing lo written with
  | nil =>
    rw [route, route]
    omega
  | cons c rest ih =>
    rw [route, route]
    by_cases hbefore : pos < c.start
    · rw [if_pos hbefore, if_pos hbefore]
      omega
    rw [if_neg hbefore, if_neg hbefore]
    by_cases hbehind : c.stop < pos
    · rw [if_pos hbehind, if_pos hbehind, ih, ih (0 + (c.start - lo) + c.text.length)]
      omega
    · rw [if_neg hbehind, if_neg hbehind]
      cases side with
      | after =>
        rw [settle, settle]
        omega
      | before =>
        rw [settle, settle]
        split <;> omega

/-- If no change starts before an offset, it stays as far behind what is there. -/
theorem route_before_eq_sub (h : Ascend pos hi cs) (hlo : lo ≤ pos) :
    route 0 lo pos .before cs = pos - lo := by
  have hreach : ∀ c ∈ cs, c.start < pos → c.stop < pos := fun c hc hlt =>
    absurd (h.bounds hc).1 (Nat.not_le_of_lt hlt)
  have hroute := route_before_eq (h.mono hlo) hlo hreach 0
  rw [before_eq_nil h (Nat.le_refl _), gains] at hroute
  omega

/-- Changes that start behind an offset follow one another from there. -/
theorem Ascend.raise (h : Ascend lo hi cs) (hpos : pos ≤ hi) (hcs : ∀ c ∈ cs, pos ≤ c.start) :
    Ascend pos hi cs := by
  cases cs with
  | nil => exact hpos
  | cons c rest => exact ⟨hcs c (List.mem_cons_self ..), h.2⟩

/-- The changes from an offset on are all of them, if they start there or later. -/
theorem filter_le_start_eq_self (h : Ascend pos hi cs) :
    (cs.filter fun c => pos ≤ c.start) = cs := by
  rw [List.filter_eq_self]
  intro c hc
  have := h.bounds hc
  simp only [decide_eq_true_eq]
  omega

/-- The document goes on from such an offset with the changes from there on. -/
theorem drop_weave (h : Ascend lo hi cs) (hlo : lo ≤ pos) (hpos : pos ≤ t.length)
    (hhi : hi ≤ t.length) (hreach : ∀ c ∈ cs, c.start < pos → c.stop < pos) :
    (t.weave lo cs).drop (route 0 lo pos .before cs)
      = t.weave pos (cs.filter fun c => pos ≤ c.start) := by
  induction cs generalizing lo with
  | nil =>
    rw [route, Text.weave, List.filter_nil, Text.weave, List.drop_drop]
    congr 1
    omega
  | cons c rest ih =>
    obtain ⟨hstart, hspan, hrest⟩ := h
    have hle := hrest.le
    have hreach' := List.forall_mem_cons.mp hreach
    have hslice : (t.slice lo c.start).length = c.start - lo := by
      rw [Text.length_slice]
      omega
    by_cases hbehind : c.stop < pos
    · have hroute : route 0 lo pos .before (c :: rest)
          = (t.slice lo c.start ++ c.text).length + route 0 c.stop pos .before rest := by
        rw [route, if_neg (by omega), if_pos hbehind, route_eq_add, List.length_append, hslice]
        omega
      have hfilter : ((c :: rest).filter fun d => pos ≤ d.start)
          = rest.filter fun d => pos ≤ d.start :=
        List.filter_cons_of_neg (by simp only [decide_eq_true_eq]; omega)
      rw [Text.weave, hroute, ← List.drop_drop, List.drop_left, hfilter]
      exact ih hrest (by omega) hreach'.2
    · -- the change starts at the offset or behind it
      have hpos' : pos ≤ c.start := by
        have := hreach'.1
        omega
      have hall : Ascend pos hi (c :: rest) := ⟨hpos', hspan, hrest⟩
      have hlength : (t.slice lo pos).length = pos - lo := by
        rw [Text.length_slice]
        omega
      rw [route_before_eq_sub hall hlo, filter_le_start_eq_self hall,
        ← Text.slice_append_weave hall hlo, List.drop_left' hlength]

theorem textsAt_filter_le_start (pos : Nat) (cs : List Change) :
    textsAt pos (cs.filter fun c => pos ≤ c.start) = textsAt pos cs := by
  rw [textsAt, textsAt, List.filter_filter]
  congr 1
  apply List.filter_congr
  intro c _
  rw [Bool.eq_iff_iff, Bool.and_eq_true, beq_iff_eq, decide_eq_true_eq]
  omega

/-- Writing from an offset on begins with all the texts inserted at it. -/
theorem textsAt_prefix_weave (h : Ascend pos hi cs) (t : Text) :
    textsAt pos cs <+: t.weave pos cs := by
  induction cs with
  | nil => exact List.nil_prefix
  | cons c rest ih =>
    obtain ⟨hstart, hspan, hrest⟩ := h
    by_cases hc : c.start = pos
    · have htexts : textsAt pos (c :: rest) = c.text ++ textsAt pos rest := by
        rw [textsAt, List.filter_cons_of_pos (by rw [hc, beq_self_eq_true]), List.flatMap_cons,
          textsAt]
      have hslice : t.slice pos c.start = [] := Text.slice_eq_nil (by omega) t
      rw [htexts, Text.weave, hslice, List.nil_append, List.prefix_append_right_inj]
      by_cases hstop : c.stop = pos
      · rw [hstop]
        exact ih (hstop ▸ hrest)
      · rw [textsAt_eq_nil hrest (by omega)]
        exact List.nil_prefix
    · have hall : Ascend c.start hi (c :: rest) := ⟨Nat.le_refl _, hspan, hrest⟩
      rw [textsAt_eq_nil hall (by omega)]
      exact List.nil_prefix

end Change

namespace ChangeSet

open Change

variable {n p q : Nat} {specs : List Change}

/-- The place directly behind what stands before an offset, and before all text inserted at it. -/
def placeBefore (cs : ChangeSet) (pos : Nat) : Int :=
  pos + gains (before pos cs.changes)

/-- The texts that changes of a set insert at an offset. -/
def insertedAt (cs : ChangeSet) (pos : Nat) : Text :=
  textsAt pos cs.changes

/-- No change that starts before an offset goes on up to it, unless it removes the character
before it. -/
theorem stop_lt_of_kept (hkept : p = 0 ∨ (of specs n).removes (p - 1) = false) :
    ∀ c ∈ (of specs n).changes, c.start < p → c.stop < p := by
  intro c hc hstart
  obtain hzero | hkept := hkept
  · omega
  · have hnot := List.any_eq_false.mp hkept c hc
    simp only [Bool.and_eq_true, decide_eq_true_eq] at hnot
    omega

/-- For the order of offsets it is enough that the lengths are signed words each by itself. -/
theorem mapPos_mono_of_lt (hn : n < signedCount) (hspecs : inserted specs < signedCount)
    (hpq : p ≤ q) (hq : q ≤ n) (side : Assoc) :
    (of specs n).mapPos p side ≤ (of specs n).mapPos q side := by
  have hp : p ≤ n := Nat.le_trans hpq hq
  rw [mapPos_of_eq_route hn hspecs hp, mapPos_of_eq_route hn hspecs hq]
  exact route_mono (ascend_changes_of specs n) (Nat.zero_le p) hpq 0 side

theorem mapPos_mono (hlength : n + inserted specs < signedCount) (hpq : p ≤ q) (hq : q ≤ n)
    (side : Assoc) : (of specs n).mapPos p side ≤ (of specs n).mapPos q side :=
  mapPos_mono_of_lt (by omega) (by omega) hpq hq side

theorem mapPos_before_le_after (hlength : n + inserted specs < signedCount) (hp : p ≤ n) :
    (of specs n).mapPos p .before ≤ (of specs n).mapPos p .after := by
  rw [mapPos_of_eq_route (by omega) (by omega) hp, mapPos_of_eq_route (by omega) (by omega) hp]
  exact route_before_le_after ..

theorem mapPos_le_afterLength_of_lt (hn : n < signedCount) (hspecs : inserted specs < signedCount)
    (hp : p ≤ n) (side : Assoc) : (of specs n).mapPos p side ≤ (of specs n).afterLength := by
  have hle := route_le (ascend_changes_of specs n) (Nat.zero_le p) hp 0 side
  have hafter := afterLength_of specs n
  rw [mapPos_of_eq_route hn hspecs hp]
  omega

theorem mapPos_le_afterLength (hlength : n + inserted specs < signedCount) (hp : p ≤ n)
    (side : Assoc) : (of specs n).mapPos p side ≤ (of specs n).afterLength :=
  mapPos_le_afterLength_of_lt (by omega) (by omega) hp side

theorem bounds_of_mem_mapTraced_of (hlength : n + inserted specs < signedCount) (hp : p ≤ n)
    (side : Assoc) {v : Int} (hv : v ∈ (mapTraced 0 p side (of specs n).changes).2) :
    0 ≤ v ∧ v < signedCount := by
  apply bounds_of_mem_mapTraced 0 (ascend_changes_of specs n) (Nat.zero_le p) hp _ _ _ hv
  · omega
  · rw [inserted_changes_of]
    omega
  · omega

theorem mapPos_before_eq_placeBefore (hlength : n + inserted specs < signedCount) (hp : p ≤ n)
    (hkept : p = 0 ∨ (of specs n).removes (p - 1) = false) :
    ((of specs n).mapPos p .before : Int) = (of specs n).placeBefore p := by
  have h := route_before_eq (ascend_changes_of specs n) (Nat.zero_le p) (stop_lt_of_kept hkept) 0
  rw [mapPos_of_eq_route (by omega) (by omega) hp, placeBefore]
  omega

/-- The character before an offset stands before the place the offset goes to. -/
theorem getElem?_apply_mapPos_before {t : Text} (hlength : t.length + inserted specs < signedCount)
    (hp : p ≤ t.length) (hpos : 0 < p) (hkept : (of specs t.length).removes (p - 1) = false) :
    ((of specs t.length).apply t)[(of specs t.length).mapPos p .before - 1]? = t[p - 1]? := by
  have hasc := ascend_changes_of specs t.length
  have hplace := mapPos_before_eq_placeBefore hlength hp (Or.inr hkept)
  obtain ⟨i, hi, hget⟩ := getElem?_weave hasc (Nat.zero_le (p - 1))
    (removesAt_eq_false (Or.inr hkept)) (Nat.le_refl _)
  have hindex : (of specs t.length).mapPos p .before - 1 = i := by
    rw [placeBefore, before_eq_upTo hpos] at hplace
    omega
  rw [apply_eq_weave hasc, hindex]
  exact hget

/-- All text inserted at an offset stands behind that place. -/
theorem insertedAt_prefix_drop_apply {t : Text} (hlength : t.length + inserted specs < signedCount)
    (hp : p ≤ t.length) (hkept : p = 0 ∨ (of specs t.length).removes (p - 1) = false) :
    (of specs t.length).insertedAt p
      <+: ((of specs t.length).apply t).drop ((of specs t.length).mapPos p .before) := by
  have hasc := ascend_changes_of specs t.length
  have hfrom : Ascend p t.length ((of specs t.length).changes.filter fun c => p ≤ c.start) := by
    refine (hasc.filter _).raise hp fun c hc => ?_
    simpa using (List.mem_filter.mp hc).2
  rw [apply_eq_weave hasc, mapPos_of_eq_route (by omega) (by omega) hp,
    drop_weave hasc (Nat.zero_le p) hp (Nat.le_refl _) (stop_lt_of_kept hkept), insertedAt,
    ← textsAt_filter_le_start]
  exact textsAt_prefix_weave hfrom t

/-- Mapping keeps the order of offsets and of their sides, and stays within the new document; of
the signed numbers it is computed with, none is negative or too large for a word.

An offset that stays before what is inserted at it, and whose character before is kept, goes to
that character's new end: all text inserted at the offset follows. -/
theorem mapPos_ordered (hlength : n + inserted specs < signedCount) (hpq : p ≤ q) (hq : q ≤ n)
    (side : Assoc) :
    (of specs n).mapPos p side ≤ (of specs n).mapPos q side ∧
      (of specs n).mapPos p .before ≤ (of specs n).mapPos p .after ∧
      (of specs n).mapPos p side ≤ (of specs n).afterLength ∧
      ((mapTraced 0 p side (of specs n).changes).1 = (of specs n).mapPos p side ∧
        ∀ v ∈ (mapTraced 0 p side (of specs n).changes).2, 0 ≤ v ∧ v < signedCount) ∧
      (p = 0 ∨ (of specs n).removes (p - 1) = false →
        ((of specs n).mapPos p .before : Int) = (of specs n).placeBefore p ∧
        ∀ t : Text, t.length = n →
          (0 < p → ((of specs n).apply t)[(of specs n).mapPos p .before - 1]? = t[p - 1]?) ∧
          (of specs n).insertedAt p
            <+: ((of specs n).apply t).drop ((of specs n).mapPos p .before)) := by
  have hp : p ≤ n := Nat.le_trans hpq hq
  refine ⟨mapPos_mono hlength hpq hq side, mapPos_before_le_after hlength hp,
    mapPos_le_afterLength hlength hp side,
    ⟨fst_mapTraced .., fun v hv => bounds_of_mem_mapTraced_of hlength hp side hv⟩, ?_⟩
  intro hkept
  refine ⟨mapPos_before_eq_placeBefore hlength hp hkept, ?_⟩
  rintro t rfl
  refine ⟨fun hpos => ?_, insertedAt_prefix_drop_apply hlength hp hkept⟩
  have hkept' := hkept.resolve_left (by omega)
  exact getElem?_apply_mapPos_before hlength hp hpos hkept'

/-- Behind a deletion, between two characters that are kept, two texts are inserted. -/
theorem mapPos_ordered_behindDeletion :
    5 + inserted [deletion 0 2, insertion 3 ['x'], insertion 3 ['y']] < signedCount ∧
      (of [deletion 0 2, insertion 3 ['x'], insertion 3 ['y']] 5).removes (3 - 1) = false ∧
      (of [deletion 0 2, insertion 3 ['x'], insertion 3 ['y']] 5).mapPos 3 .before
        ≤ (of [deletion 0 2, insertion 3 ['x'], insertion 3 ['y']] 5).mapPos 4 .before ∧
      ((of [deletion 0 2, insertion 3 ['x'], insertion 3 ['y']] 5).mapPos 3 .before : Int) = 1 := by
  have hlength :
      5 + inserted [deletion 0 2, insertion 3 ['x'], insertion 3 ['y']] < signedCount := by
    decide
  have hof : of [deletion 0 2, insertion 3 ['x'], insertion 3 ['y']] 5
      = ⟨[deletion 0 2, insertion 3 ['x'], insertion 3 ['y']], 5⟩ := by
    cbv
  have hkept :
      (of [deletion 0 2, insertion 3 ['x'], insertion 3 ['y']] 5).removes (3 - 1) = false := by
    rw [hof]
    decide
  have h := mapPos_ordered hlength (show 3 ≤ 4 by decide) (by decide) .before
  have hplace := (h.2.2.2.2 (Or.inr hkept)).1
  refine ⟨hlength, hkept, h.1, ?_⟩
  rw [hplace, hof]
  decide

end ChangeSet

end HeadlessEditor
