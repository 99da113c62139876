/-
  HeadlessEditor.Proofs.Change.Rebase

  The changes of one set made in two steps.  Where the set has a gap, what
  comes before the gap may be made first, as a set of its own.  The changes
  behind the gap are then mapped through it like any other offsets
  (`Change.rebase`), and made to the document in between.

  Behind the gap all that matters of the first step is how much text it
  leaves before the rest of the document (`Text.weave_append`), and mapping
  moves every offset by just that much (`Change.route_of_stop_lt`).  So the
  rest of the document is worked on as it would have been at once.
-/

import HeadlessEditor.Proofs.Change.Window

namespace HeadlessEditor

namespace Change

variable {lo mid hi n pos : Nat} {cs front back : List Change}

/-- The change with its offsets mapped through a change set, each to a side of its own. -/
def rebase (first : ChangeSet) (startSide stopSide : Assoc) (c : Change) : Change :=
  ⟨first.mapPos c.start startSide, first.mapPos c.stop stopSide, c.text⟩

/-- The change to a text that starts `distance` characters further back. -/
def moveOn (distance : Nat) (c : Change) : Change :=
  ⟨distance + c.start, distance + c.stop, c.text⟩

theorem map_moveBack_map_moveOn (distance : Nat) (cs : List Change) :
    (cs.map (moveOn distance)).map (moveBack distance) = cs := by
  have hmove : ∀ c ∈ cs, (moveBack distance ∘ moveOn distance) c = id c := by
    intro c _
    simp only [Function.comp_apply, moveOn, moveBack, Nat.add_sub_cancel_left, id_eq]
  rw [List.map_map, List.map_congr_left hmove, List.map_id]

-- ============================================================================
-- Changes in two parts
-- ============================================================================

theorem Ascend.exists_mid (h : Ascend lo hi (front ++ back)) :
    ∃ mid, Ascend lo mid front ∧ Ascend mid hi back := by
  induction front generalizing lo with
  | nil => exact ⟨lo, Nat.le_refl lo, h⟩
  | cons c rest ih =>
    obtain ⟨hlo, hspan, hrest⟩ := h
    obtain ⟨mid, hfront, hback⟩ := ih hrest
    exact ⟨mid, ⟨hlo, hspan, hfront⟩, hback⟩

/-- A gap between two neighbours is one between all that comes before it and all behind it. -/
theorem Ascend.stop_lt_start (h : Ascend lo hi (front ++ back))
    (hgap : ∀ c ∈ front.getLast?, ∀ d ∈ back.head?, c.stop < d.start) :
    ∀ c ∈ front, ∀ d ∈ back, c.stop < d.start := by
  intro c hc d hd
  obtain ⟨mid, hfront, hback⟩ := h.exists_mid
  obtain ⟨last, hlast, hstop⟩ : ∃ last ∈ front.getLast?, c.stop ≤ last.stop := by
    cases hlast : front.getLast? with
    | none =>
      rw [List.getLast?_eq_none_iff.mp hlast] at hc
      cases hc
    | some last =>
      obtain ⟨init, rfl⟩ := List.getLast?_eq_some_iff.mp hlast
      have hmem : last ∈ init ++ [last] := List.mem_append_right init (List.mem_singleton.mpr rfl)
      refine ⟨last, rfl, ?_⟩
      rcases List.mem_append.mp hc with hinit | hc
      · have hbetween := (List.pairwise_append.mp hfront.pairwise).2.2
        have hle := hbetween c hinit last (List.mem_singleton.mpr rfl)
        exact Nat.le_trans hle (hfront.bounds hmem).2.1
      · obtain rfl := List.mem_singleton.mp hc
        exact Nat.le_refl _
  obtain ⟨first, hfirst, hstart⟩ : ∃ first ∈ back.head?, first.start ≤ d.start := by
    cases back with
    | nil => cases hd
    | cons first rest =>
      have hall : Ascend first.start hi (first :: rest) := ⟨Nat.le_refl _, hback.2⟩
      exact ⟨first, rfl, (hall.bounds hd).1⟩
  have hbetween := hgap last hlast first hfirst
  omega

theorem Normal.sublist (h : Normal n cs) (hsublist : front.Sublist cs) : Normal n front where
  span_le c hc := h.span_le c (hsublist.subset hc)
  stop_le_start := h.stop_le_start.sublist hsublist
  acts c hc := h.acts c (hsublist.subset hc)

/-- The changes behind an offset, in a text that has `written` characters for those before it. -/
def carry (mid written : Nat) (cs : List Change) : List Change :=
  (cs.map (moveBack mid)).map (moveOn written)

theorem Ascend.map_moveOn (h : Ascend lo hi cs) (distance : Nat) :
    Ascend (distance + lo) (distance + hi) (cs.map (moveOn distance)) := by
  induction cs generalizing lo with
  | nil => exact Nat.add_le_add_left h distance
  | cons c rest ih =>
    obtain ⟨hlo, hspan, hrest⟩ := h
    exact ⟨Nat.add_le_add_left hlo distance, Nat.add_le_add_left hspan distance, ih hrest⟩

theorem Ascend.carry (h : Ascend mid hi cs) (written : Nat) :
    Ascend written (written + (hi - mid)) (carry mid written cs) := by
  have hback := h.map_moveBack (Nat.le_refl mid)
  rw [Nat.sub_self] at hback
  exact hback.map_moveOn written

theorem normal_carry (h : Ascend mid hi cs) (hacts : ∀ c ∈ cs, ¬(c.start = c.stop ∧ c.text = []))
    (written : Nat) : Normal (written + (hi - mid)) (carry mid written cs) where
  span_le c hc := ((h.carry written).bounds hc).2
  stop_le_start := (h.carry written).pairwise
  acts := by
    rw [carry, List.forall_mem_map, List.forall_mem_map]
    rintro c hc ⟨hempty, htext⟩
    have hbounds := h.bounds hc
    refine hacts c hc ⟨?_, htext⟩
    simp only [moveOn, moveBack] at hempty
    omega

/-- An offset behind all changes moves by what they have grown. -/
theorem route_of_stop_lt (h : Ascend lo hi cs) (hlo : lo ≤ pos) (hcs : ∀ c ∈ cs, c.stop < pos)
    (written : Nat) (side : Assoc) :
    (route written lo pos side cs : Int) = written + (pos - lo) + gains cs := by
  induction cs generalizing lo written with
  | nil =>
    rw [route, gains]
    omega
  | cons c rest ih =>
    obtain ⟨hstart, hspan, hrest⟩ := h
    obtain ⟨hstop, hcs'⟩ := List.forall_mem_cons.mp hcs
    have hgain := gain_eq hspan
    have hih := ih hrest (by omega) hcs' (written + (c.start - lo) + c.text.length)
    rw [route, if_neg (by omega), if_pos hstop, gains]
    omega

end Change

namespace Text

open Change

variable {lo mid hi : Nat} {cs front back : List Change}

/-- What is before an offset between changes is made by those before it, and what is behind it by
those behind it. -/
theorem weave_append (hfront : Ascend lo mid front) (hback : Ascend mid hi back) (t : Text) :
    t.weave lo (front ++ back) = weave (t.take mid) lo front ++ t.weave mid back := by
  induction front generalizing lo with
  | nil =>
    rw [List.nil_append, weave, ← slice_append_weave hback hfront]
    rfl
  | cons c rest ih =>
    obtain ⟨hlo, hspan, hrest⟩ := hfront
    have hle := hrest.le
    rw [List.cons_append, weave, ih hrest, weave, slice_take t (by omega), List.append_assoc,
      List.append_assoc, List.append_assoc]

/-- Changes behind a piece of text leave it alone. -/
theorem weave_map_moveOn (h : Ascend 0 hi cs) (p t : Text) :
    weave (p ++ t) 0 (cs.map (moveOn p.length)) = p ++ t.weave 0 cs := by
  have hasc := h.map_moveOn p.length
  have hdrop := weave_drop hasc (Nat.le_refl p.length) (p ++ t)
  rw [map_moveBack_map_moveOn, Nat.add_zero, Nat.sub_self, List.drop_left] at hdrop
  rw [← slice_append_weave hasc (Nat.zero_le _), Nat.add_zero, ← hdrop, slice, List.take_left,
    List.drop_zero]

/-- Carried along, changes do to the rest of a text what they did to it. -/
theorem weave_carry (h : Ascend mid hi cs) (p t : Text) :
    weave (p ++ t.drop mid) 0 (carry mid p.length cs) = p ++ t.weave mid cs := by
  have hback := h.map_moveBack (Nat.le_refl mid)
  have hdrop := weave_drop h (Nat.le_refl mid) t
  rw [Nat.sub_self] at hback hdrop
  rw [carry, weave_map_moveOn hback, hdrop]

end Text

namespace ChangeSet

open Change

variable {specs front back : List Change} {t : Text}

/-- The first step leaves the text behind the gap as it was. -/
theorem apply_front {mid : Nat} (hnormal : Normal t.length front) (hfront : Ascend 0 mid front)
    (hmid : mid ≤ t.length) :
    (of front t.length).apply t = Text.weave (t.take mid) 0 front ++ t.drop mid := by
  have hrest : Ascend mid t.length [] := hmid
  have hweave := Text.weave_append hfront hrest t
  rw [List.append_nil] at hweave
  exact (apply_of_normal hnormal).trans hweave

/-- Mapping the changes behind a gap carries them along with the text they change. -/
theorem map_rebase_eq {mid : Nat} (ht : t.length < signedCount)
    (hinserted : inserted front < signedCount) (hnormal : Normal t.length front)
    (hfront : Ascend 0 mid front) (hback : Ascend mid t.length back)
    (hgap : ∀ c ∈ front, ∀ d ∈ back, c.stop < d.start) (startSide stopSide : Assoc) :
    back.map (rebase (of front t.length) startSide stopSide)
      = carry mid (Text.weave (t.take mid) 0 front).length back := by
  have hmid := hback.le
  have htake : (t.take mid).length = mid := by
    rw [List.length_take, Nat.min_eq_left hmid]
  have hlength := length_weave hfront (Nat.le_of_eq htake.symm)
  have hmap : ∀ pos side, mid ≤ pos → pos ≤ t.length → (∀ c ∈ front, c.stop < pos) →
      (of front t.length).mapPos pos side
        = (Text.weave (t.take mid) 0 front).length + (pos - mid) := by
    intro pos side hle hpos hstop
    have hroute := route_of_stop_lt hfront (Nat.zero_le pos) hstop 0 side
    have hmapped : (of front t.length).mapPos pos side = route 0 0 pos side front := by
      rw [mapPos_of_eq_route ht hinserted hpos, of_eq_self hnormal]
    rw [hmapped]
    omega
  rw [carry, List.map_map]
  apply List.map_congr_left
  intro d hd
  obtain ⟨hstart, hspan, hstop⟩ := hback.bounds hd
  have hbefore : ∀ c ∈ front, c.stop < d.start := fun c hc => hgap c hc d hd
  rw [rebase, hmap d.start startSide hstart (Nat.le_trans hspan hstop) hbefore,
    hmap d.stop stopSide (Nat.le_trans hstart hspan) hstop
      fun c hc => Nat.lt_of_lt_of_le (hbefore c hc) hspan]
  rfl

/-- A change set with a gap may be made in two steps: first what comes before the gap, and then
what is behind it, mapped through the first step to either side.  The text is the same, and so is
the length that the second step reckons with.  The lengths are signed words. -/
theorem apply_rebased (ht : t.length < signedCount) (hinserted : inserted front < signedCount)
    (hsplit : (of specs t.length).changes = front ++ back)
    (hgap : ∀ c ∈ front.getLast?, ∀ d ∈ back.head?, c.stop < d.start)
    (startSide stopSide : Assoc) :
    let first := of front t.length
    let between := first.apply t
    let second := of (back.map (rebase first startSide stopSide)) between.length
    second.apply between = (of specs t.length).apply t ∧
      second.afterLength = (of specs t.length).afterLength := by
  intro first between second
  have hall := normal_changes_of specs t.length
  rw [hsplit] at hall
  obtain ⟨mid, hfront, hback⟩ := hall.ascend.exists_mid
  have hmid := hback.le
  have hnormal := hall.sublist (List.sublist_append_left front back)
  have hbackNormal := hall.sublist (List.sublist_append_right front back)
  let written := Text.weave (t.take mid) 0 front
  have hbetween : between = written ++ t.drop mid := apply_front hnormal hfront hmid
  have hrebased : back.map (rebase first startSide stopSide) = carry mid written.length back :=
    map_rebase_eq ht hinserted hnormal hfront hback (hall.ascend.stop_lt_start hgap) ..
  have hsecond : Normal between.length (back.map (rebase first startSide stopSide)) := by
    rw [hrebased, hbetween, List.length_append, List.length_drop]
    exact normal_carry hback hbackNormal.acts written.length
  have htext : second.apply between = (of specs t.length).apply t := by
    calc second.apply between
        = between.weave 0 (carry mid written.length back) := by
          rw [← hrebased]
          exact apply_of_normal hsecond
      _ = written ++ t.weave mid back := by rw [hbetween, Text.weave_carry hback]
      _ = t.weave 0 (front ++ back) := (Text.weave_append hfront hback t).symm
      _ = (of specs t.length).apply t := by
          rw [apply_eq_weave (ascend_changes_of specs t.length), hsplit]
  refine ⟨htext, ?_⟩
  calc second.afterLength = (second.apply between).length := (length_apply_of _ _).symm
    _ = ((of specs t.length).apply t).length := by rw [htext]
    _ = (of specs t.length).afterLength := length_apply_of _ _

/-- A deletion and an insertion, and a replacement behind a gap. -/
def gapped : List Change :=
  [⟨5, 6, ['w', 'w']⟩, deletion 0 2, insertion 3 ['x', 'y', 'z']]

/-- The first step makes the document one character longer. -/
theorem apply_rebased_gapped :
    let t := "abcdef".toList
    let first := of [deletion 0 2, insertion 3 ['x', 'y', 'z']] t.length
    let second := of ([⟨5, 6, ['w', 'w']⟩].map (rebase first .before .after)) (first.apply t).length
    (of gapped t.length).changes
        = [deletion 0 2, insertion 3 ['x', 'y', 'z']] ++ [⟨5, 6, ['w', 'w']⟩] ∧
      second.changes = [⟨6, 7, ['w', 'w']⟩] ∧ second.apply (first.apply t) = "cxyzdeww".toList ∧
      second.afterLength = 8 := by
  have hsplit : (of gapped "abcdef".toList.length).changes
      = [deletion 0 2, insertion 3 ['x', 'y', 'z']] ++ [⟨5, 6, ['w', 'w']⟩] := by
    decide_cbv
  obtain ⟨htext, hlength⟩ := apply_rebased (by decide) (by decide) hsplit (by decide) .before .after
  refine ⟨hsplit, ?_, htext.trans ?_, hlength.trans ?_⟩
  · decide_cbv
  · decide_cbv
  · decide_cbv

end ChangeSet

end HeadlessEditor
