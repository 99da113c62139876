/-
  HeadlessEditor.Proofs.Snippet.Following

  A tab stop follows its text.  When a session is mapped through changes that
  each lie within a span of a stop or do not touch it, the new span covers
  what the changes within it make of the text that the old one covered
  (`Snippet.Session.within_map`).  Text typed at an end of the span, or into
  an empty one, belongs to it; changes elsewhere only move it.
-/

import HeadlessEditor.Proofs.Change.Window
import HeadlessEditor.Snippet.Session

namespace HeadlessEditor.Snippet.Session

open Change (signedCount inserted Respects restrict route)

variable {specs : List Change} {t : Text} {s : Span} {session : Session}

-- ============================================================================
-- One span
-- ============================================================================

/-- The new place of a span.  The new ends are in order as they come, and lie in the new document. -/
theorem mapSpan_of (ht : t.length < signedCount)
    (hafter : ((ChangeSet.of specs t.length).apply t).length < signedCount)
    (hle : s.start ≤ s.stop) (hstop : s.stop ≤ t.length) :
    mapSpan (.of specs t.length) s
        = ⟨route 0 0 s.start .before (ChangeSet.of specs t.length).changes,
            route 0 0 s.stop .after (ChangeSet.of specs t.length).changes⟩ ∧
      (mapSpan (.of specs t.length) s).start ≤ (mapSpan (.of specs t.length) s).stop ∧
      (mapSpan (.of specs t.length) s).stop ≤ ((ChangeSet.of specs t.length).apply t).length := by
  have hspecs : inserted specs < signedCount := by
    have := ChangeSet.inserted_le_afterLength specs t.length
    rw [ChangeSet.length_apply_of] at hafter
    omega
  have hstart := Nat.le_trans hle hstop
  have hasc := ChangeSet.ascend_changes_of specs t.length
  have hsides := Change.route_before_le_after 0 0 s.start (ChangeSet.of specs t.length).changes
  have hends := Change.route_mono hasc (Nat.zero_le _) hle 0 .after
  have hspan : mapSpan (.of specs t.length) s
      = ⟨route 0 0 s.start .before (ChangeSet.of specs t.length).changes,
          route 0 0 s.stop .after (ChangeSet.of specs t.length).changes⟩ := by
    simp only [mapSpan]
    rw [ChangeSet.mapPos_of_eq_route ht hspecs hstart, ChangeSet.mapPos_of_eq_route ht hspecs hstop,
      Nat.max_eq_left (Nat.le_trans hsides hends)]
  have hlength := ChangeSet.mapPos_le_afterLength_of_lt ht hspecs hstop .after
  rw [ChangeSet.mapPos_of_eq_route ht hspecs hstop, ← ChangeSet.length_apply_of] at hlength
  rw [hspan]
  exact ⟨rfl, Nat.le_trans hsides hends, hlength⟩

/-- What a span covers after changes that respect it. -/
theorem within_mapSpan (ht : t.length < signedCount)
    (hafter : ((ChangeSet.of specs t.length).apply t).length < signedCount)
    (hle : s.start ≤ s.stop) (hstop : s.stop ≤ t.length)
    (hrespects : Respects s (ChangeSet.of specs t.length).changes) :
    ((ChangeSet.of specs t.length).apply t).within (mapSpan (.of specs t.length) s)
      = (ChangeSet.of (restrict s (ChangeSet.of specs t.length).changes)
          (s.stop - s.start)).apply (t.within s) := by
  obtain ⟨hspan, hordered, hlength⟩ := mapSpan_of ht hafter hle hstop
  have hasc := ChangeSet.ascend_changes_of specs t.length
  have hpiece : (t.slice s.start s.stop).length = s.stop - s.start := by
    rw [Text.length_slice, Nat.min_eq_left hstop]
  have hnormal : Change.Normal (t.slice s.start s.stop).length
      (restrict s (ChangeSet.of specs t.length).changes) := by
    rw [hpiece]
    exact (ChangeSet.normal_changes_of specs t.length).restrict hle
  rw [Text.within_eq_slice hordered hlength, hspan, ChangeSet.apply_eq_weave hasc,
    Text.slice_weave hasc (Nat.zero_le _) hle hstop hrespects, Text.within_eq_slice hle hstop,
    ← hpiece, ChangeSet.apply_of_normal hnormal]

-- ============================================================================
-- All spans of a session
-- ============================================================================

theorem getElem?_stops_map (session : Session) (cs : ChangeSet) (i : Nat) :
    (session.map cs).stops[i]?
      = session.stops[i]?.map fun stop => { stop with spans := stop.spans.map (mapSpan cs) } := by
  rw [map, List.getElem?_map]

/-- A span of a stop of a session in a document that, like the document after the changes, is no
longer than signed words can tell.  If no two changes meet, and each lies within the span or does
not touch it, the span of the session after the changes covers in the new document the text that
it covered before with the changes within it made to that. -/
theorem within_map {i k : Nat} {stop : TabStop} (ht : t.length < signedCount)
    (hafter : ((ChangeSet.of specs t.length).apply t).length < signedCount)
    (hi : session.stops[i]? = some stop) (hk : stop.spans[k]? = some s)
    (hle : s.start ≤ s.stop) (hstop : s.stop ≤ t.length)
    (hrespects : Respects s (ChangeSet.of specs t.length).changes) :
    ∃ stop' s', (session.map (.of specs t.length)).stops[i]? = some stop' ∧
      stop'.number = stop.number ∧ stop'.spans[k]? = some s' ∧
      s'.start ≤ s'.stop ∧ s'.stop ≤ ((ChangeSet.of specs t.length).apply t).length ∧
      ((ChangeSet.of specs t.length).apply t).within s'
        = (ChangeSet.of (restrict s (ChangeSet.of specs t.length).changes)
            (s.stop - s.start)).apply (t.within s) := by
  obtain ⟨-, hordered, hlength⟩ := mapSpan_of ht hafter hle hstop
  refine ⟨{ stop with spans := stop.spans.map (mapSpan (.of specs t.length)) },
    mapSpan (.of specs t.length) s, ?_, rfl, ?_, hordered, hlength,
    within_mapSpan ht hafter hle hstop hrespects⟩
  · rw [getElem?_stops_map, hi, Option.map_some]
  · rw [List.getElem?_map, hk, Option.map_some]

/-- Two words, each a stop, and a word behind them. -/
def threeWords : Text :=
  "ab cd ef".toList

def twoStops : Session :=
  ⟨[⟨1, [⟨0, 2⟩]⟩, ⟨2, [⟨3, 5⟩]⟩], 0⟩

/-- The first word is deleted, the second is typed at on both sides, and the third is typed
into. -/
def typedAround : List Change :=
  [.deletion 0 2, .insertion 3 ['x'], .insertion 5 ['y'], .insertion 7 ['z']]

/-- The second stop has what was typed on its sides. -/
theorem within_map_typedAround :
    ∃ stop s', (twoStops.map (.of typedAround threeWords.length)).stops[1]? = some stop ∧
      stop.spans[0]? = some s' ∧
      ((ChangeSet.of typedAround threeWords.length).apply threeWords).within s'
        = "xcdy".toList := by
  have hchanges : (ChangeSet.of typedAround threeWords.length).changes = typedAround := by
    decide_cbv
  have hrespects : Respects ⟨3, 5⟩ (ChangeSet.of typedAround threeWords.length).changes := by
    rw [hchanges]
    exact ⟨by decide, by decide⟩
  have hi : twoStops.stops[1]? = some ⟨2, [⟨3, 5⟩]⟩ := rfl
  have hk : (TabStop.mk 2 [⟨3, 5⟩]).spans[0]? = some ⟨3, 5⟩ := rfl
  obtain ⟨stop, s', hstop, -, hs', -, -, htext⟩ :=
    within_map (t := threeWords) (by decide) (by decide_cbv) hi hk (by decide) (by decide) hrespects
  exact ⟨stop, s', hstop, hs', htext.trans (by decide_cbv)⟩

end HeadlessEditor.Snippet.Session
