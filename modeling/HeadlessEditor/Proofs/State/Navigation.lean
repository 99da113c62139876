/-
  HeadlessEditor.Proofs.State.Navigation

  Moving through the stops of an inserted snippet.  Each move comes to the
  next stop (`State.AtStop`), so that all are visited, each once and in their
  order, and the session is over with the last.  Before that, a move on can be
  taken back.

  In any state a move leaves all but the selection and the session alone: its
  transaction is idle, and so keeps the document the view has installed.
-/

import HeadlessEditor.Proofs.Assist.Freshness
import HeadlessEditor.Proofs.State.Session

namespace HeadlessEditor

variable {κ : Type} [FieldSignature κ]

namespace State

variable {s : State κ} {session : Snippet.Session} {index : Nat}

-- ============================================================================
-- Inserted stops
-- ============================================================================

/-- The stops of a template, in offsets of the document it is inserted in, the first selected. -/
def insertedSession (s : State κ) (template : Text) (span : Span) : Snippet.Session :=
  ⟨(Snippet.parse template).stops.map (·.shift (span.clamp s.doc.length).start), 0⟩

@[simp] theorem length_stops_insertedSession (s : State κ) (template : Text) (span : Span) :
    (s.insertedSession template span).stops.length = (Snippet.parse template).stops.length :=
  List.length_map _

-- ============================================================================
-- At a stop
-- ============================================================================

/-- The stop with the given index of an inserted snippet's session is selected, and the session is
over if that is the last one. -/
structure AtStop (session : Snippet.Session) (index : Nat) (s : State κ) : Prop where
  sound : session.Sound s.doc.length
  session_eq : s.session = session.select index
  selection_eq : s.selection = session.selectionAt index

theorem AtStop.session_of_lt (h : s.AtStop session index)
    (hindex : index + 1 < session.stops.length) :
    s.session = some { session with active := index } := by
  rw [h.session_eq, Snippet.Session.select, if_neg (Nat.ne_of_lt hindex)]

theorem AtStop.session_of_eq (h : s.AtStop session index)
    (hindex : index + 1 = session.stops.length) : s.session = none := by
  rw [h.session_eq, Snippet.Session.select, if_pos hindex]

theorem AtStop.isSome_session_iff (h : s.AtStop session index)
    (hindex : index < session.stops.length) :
    s.session.isSome = true ↔ index + 1 < session.stops.length := by
  by_cases hlast : index + 1 = session.stops.length
  · rw [h.session_of_eq hlast, hlast]
    simp
  · have hlt : index + 1 < session.stops.length := by omega
    rw [h.session_of_lt hlt]
    simp [hlt]

/-- At a stop of an inserted template its first span is selected. -/
theorem AtStop.selection_of_inserted {s' : State κ} {template : Text} {span : Span}
    (h : s'.AtStop (s.insertedSession template span) index)
    (hindex : index < (Snippet.parse template).stops.length) :
    ∃ stop first, (Snippet.parse template).stops[index]? = some stop ∧
      stop.spans.head? = some first ∧
      s'.selection = ⟨(span.clamp s.doc.length).start + first.start,
        (span.clamp s.doc.length).start + first.stop⟩ := by
  rw [← length_stops_insertedSession s template span] at hindex
  obtain ⟨moved, placed, hmoved, hplaced, -, -, hselection⟩ := h.sound.selectionAt hindex
  rw [insertedSession, List.getElem?_map, Option.map_eq_some_iff] at hmoved
  obtain ⟨stop, hstop, rfl⟩ := hmoved
  rw [TabStop.shift, List.head?_map, Option.map_eq_some_iff] at hplaced
  obtain ⟨first, hfirst, rfl⟩ := hplaced
  exact ⟨stop, first, hstop, hfirst, h.selection_eq.trans hselection⟩

variable [DecidableEq κ] [StateFields κ]

/-- Inserting a snippet comes to its first stop. -/
theorem atStop_insertSnippet (s : State κ) (template : Text) (span : Span)
    (hstops : 2 ≤ (Snippet.parse template).stops.length) :
    (s.act (.insertSnippet template span)).AtStop (s.insertedSession template span) 0 := by
  have hlength := length_stops_insertedSession s template span
  have hsession : (s.act (.insertSnippet template span)).session
      = some (s.insertedSession template span) := by
    rw [State.act, session_update_insertSnippet, if_pos (.inr hstops), insertedSession]
  have hsound := soundSession_insertSnippet s template span _ hsession
  refine ⟨hsound, ?_, ?_⟩
  · rw [hsession, Snippet.Session.select, if_neg (by omega)]
    rfl
  · obtain ⟨stop, first, hstop, hfirst, hle, hfirstStop, hselection⟩ :=
      hsound.selectionAt (show 0 < _ by omega)
    rw [hselection]
    rw [insertedSession, ← List.head?_eq_getElem?] at hstop
    exact selection_update_of_le (selection_insertSnippet hstop hfirst)
      (Nat.le_trans hle hfirstStop) hfirstStop

/-- Whichever stop a session is at, another one may be selected. -/
theorem AtStop.selectStop (h : s.AtStop session index) (active : Nat) {other : Nat}
    (hother : other < session.stops.length) :
    (s.update (.selectStop { session with active } other)).state.AtStop session other where
  sound := by
    rw [doc_update_of_changes_eq_nil rfl]
    exact h.sound
  session_eq := session_update_setSession rfl
  selection_eq := selection_update_selectionAt rfl rfl h.sound hother

theorem AtStop.nextStop? (h : s.AtStop session index)
    (hindex : index + 1 < session.stops.length) :
    ∃ tr, s.nextStop? = some tr ∧ tr.state.AtStop session (index + 1) :=
  ⟨_, nextStop?_eq_some_iff.mpr ⟨_, h.session_of_lt hindex, hindex, rfl⟩,
    h.selectStop index hindex⟩

theorem AtStop.nextStop?_eq_none (h : s.AtStop session index)
    (hindex : index + 1 = session.stops.length) : s.nextStop? = none := by
  rw [State.nextStop?, h.session_of_eq hindex]

theorem AtStop.prevStop? (h : s.AtStop session (index + 1))
    (hindex : index + 2 < session.stops.length) :
    ∃ tr, s.prevStop? = some tr ∧ tr.state.AtStop session index :=
  ⟨_, prevStop?_eq_some_iff.mpr ⟨_, h.session_of_lt hindex, Nat.succ_pos index, rfl⟩,
    h.selectStop (index + 1) (by omega)⟩

/-- A move on, taken back. -/
theorem AtStop.prevStop?_nextStop? (h : s.AtStop session index)
    (hindex : index + 2 < session.stops.length) :
    ∃ on back, s.nextStop? = some on ∧ on.state.prevStop? = some back ∧
      back.state.selection = s.selection ∧ back.state.session = s.session := by
  obtain ⟨on, hon, honAt⟩ := h.nextStop? (by omega)
  obtain ⟨back, hback, hbackAt⟩ := honAt.prevStop? hindex
  exact ⟨on, back, hon, hback, hbackAt.selection_eq.trans h.selection_eq.symm,
    hbackAt.session_eq.trans h.session_eq.symm⟩

-- ============================================================================
-- From the first stop on
-- ============================================================================

/-- The state after a number of moves to the next stop, if all of them find one. -/
def nextStops? (s : State κ) : Nat → Option (State κ)
  | 0 => some s
  | count + 1 => (s.nextStops? count).bind fun s' => s'.nextStop?.map Transaction.state

theorem AtStop.nextStops? (h : s.AtStop session 0) {count : Nat}
    (hcount : count < session.stops.length) :
    ∃ s', s.nextStops? count = some s' ∧ s'.AtStop session count := by
  induction count with
  | zero => exact ⟨s, rfl, h⟩
  | succ count ih =>
    obtain ⟨s', hs', hat⟩ := ih (by omega)
    obtain ⟨tr, htr, hnext⟩ := hat.nextStop? hcount
    refine ⟨tr.state, ?_, hnext⟩
    rw [State.nextStops?, hs', Option.bind_some, htr, Option.map_some]

-- ============================================================================
-- What moving about keeps
-- ============================================================================

theorem isSome_nextStop? (s : State κ) : s.nextStop?.isSome = s.hasNextStop := by
  rw [State.nextStop?, hasNextStop]
  cases s.session with
  | none => rfl
  | some session => cases h : session.hasNext <;> simp [h]

theorem isSome_prevStop? (s : State κ) : s.prevStop?.isSome = s.hasPrevStop := by
  rw [State.prevStop?, hasPrevStop]
  cases s.session with
  | none => rfl
  | some session => cases h : session.hasPrev <;> simp [h]

end State

/-- A transaction that keeps what the view's document is made of, and the document itself. -/
structure Transaction.KeepsDocument [DecidableEq κ] (tr : Transaction (WithDocument κ)) :
    Prop where
  doc_eq : tr.state.doc = tr.startState.doc
  language_eq : tr.state.language = tr.startState.language
  extensions_eq : tr.state.extensions = tr.startState.extensions
  document?_eq : tr.state.document? = tr.startState.document?

theorem TransactionSpec.idle_clearSnippet (length : Nat) :
    ({ effects := [.clearSnippet] } : TransactionSpec κ).Idle length where
  isVoid_of_mem := fun _ hc => absurd hc List.not_mem_nil
  configures_of_mem := by
    intro e he
    rw [List.mem_singleton.mp he]
    rfl

namespace State

open Inquiry (visitedView reachable_visitedView)

variable [DecidableEq κ] [HostFields κ] {s : State (WithDocument κ)}

theorem keepsDocument_of_idle (h : s.Reachable) {spec : TransactionSpec (WithDocument κ)}
    (hidle : spec.Idle s.doc.length) : (s.update spec).KeepsDocument := by
  obtain ⟨hchanged, hdoc, hlanguageId, huri⟩ := update_of_idle h hidle
  have hextensions := hidle.extensions_update
  refine ⟨hdoc, ?_, hextensions, ?_⟩
  · rw [language_update h.coherent, hextensions]
    exact h.coherent.language_eq.symm
  · show (s.update spec).state.document? = s.document?
    cases hd : s.document? with
    | none =>
      rw [documentUri?, documentUri?, hd, Option.map_none, Option.map_eq_none_iff] at huri
      exact huri
    | some d =>
      have hstart : s.documentUri? = some d.uri := documentUri?_eq_some_iff.mpr ⟨d, hd, rfl⟩
      obtain ⟨d', hd', -, hkept⟩ := document?_update_of_uri_eq h hd (huri.trans hstart)
      have hrevises := Transaction.revises_eq_false_iff.mpr ⟨hchanged, hlanguageId⟩
      rw [if_neg (by simp [hrevises])] at hkept
      rw [hd', hkept]

theorem keepsDocument_of_move (h : s.Reachable) {tr : Transaction (WithDocument κ)}
    (hmove : s.nextStop? = some tr ∨ s.prevStop? = some tr ∨ s.clearSnippet? = some tr) :
    tr.startState = s ∧ tr.KeepsDocument := by
  rcases hmove with hnext | hprev | hclear
  · obtain ⟨session, -, -, rfl⟩ := nextStop?_eq_some_iff.mp hnext
    exact ⟨rfl, keepsDocument_of_idle h (TransactionSpec.idle_selectStop _ _ _)⟩
  · obtain ⟨session, -, -, rfl⟩ := prevStop?_eq_some_iff.mp hprev
    exact ⟨rfl, keepsDocument_of_idle h (TransactionSpec.idle_selectStop _ _ _)⟩
  · obtain ⟨session, -, rfl⟩ := clearSnippet?_eq_some_iff.mp hclear
    exact ⟨rfl, keepsDocument_of_idle h (TransactionSpec.idle_clearSnippet _)⟩

-- ============================================================================
-- A whole tour
-- ============================================================================

/-- What the moves after inserting a template come to: with each, up to the last stop, the first
span of the next stop is selected.  With the last the session is over, and there is no way on.
Short of the stop before, a move on can be taken back.

Whatever state a view is in, moves are made exactly where `hasNextStop` and `hasPrevStop` say,
and neither they nor clearing the session touch the document. -/
theorem nextStops?_insertSnippet :
    (∀ (s : State (WithDocument κ)) (template : Text) (span : Span) (stops : List TabStop),
      (Snippet.parse template).stops = stops → 2 ≤ stops.length →
        stops.Pairwise (fun a b => TabStop.Precedes a.number b.number) ∧
        ∀ index < stops.length, ∃ s',
          (s.act (.insertSnippet template span)).nextStops? index = some s' ∧
          (∃ stop first, stops[index]? = some stop ∧ stop.spans.head? = some first ∧
            s'.selection = ⟨(span.clamp s.doc.length).start + first.start,
              (span.clamp s.doc.length).start + first.stop⟩) ∧
          (s'.session.isSome = true ↔ index + 1 < stops.length) ∧
          (index + 1 = stops.length → s'.nextStop? = none ∧ s'.act .nextStop = s') ∧
          (index + 2 < stops.length → ∃ on back,
            s'.nextStop? = some on ∧ on.state.prevStop? = some back ∧
              back.state.selection = s'.selection ∧ back.state.session = s'.session)) ∧
      ∀ s : State (WithDocument κ), s.Reachable →
        s.nextStop?.isSome = s.hasNextStop ∧ s.prevStop?.isSome = s.hasPrevStop ∧
        ∀ tr, s.nextStop? = some tr ∨ s.prevStop? = some tr ∨ s.clearSnippet? = some tr →
          tr.startState = s ∧ tr.KeepsDocument := by
  refine ⟨?_, fun s h => ⟨isSome_nextStop? s, isSome_prevStop? s,
    fun tr hmove => keepsDocument_of_move h hmove⟩⟩
  rintro s template span _ rfl hstops
  refine ⟨(Snippet.laid_stops_parse template).ordered, fun index hindex => ?_⟩
  have hlength := length_stops_insertedSession s template span
  obtain ⟨s', hs', hat⟩ := (atStop_insertSnippet s template span hstops).nextStops?
    (hlength ▸ hindex)
  rw [← hlength]
  refine ⟨s', hs', hat.selection_of_inserted hindex, hat.isSome_session_iff (hlength ▸ hindex),
    fun hlast => ?_, hat.prevStop?_nextStop?⟩
  have hnone := hat.nextStop?_eq_none hlast
  refine ⟨hnone, ?_⟩
  rw [State.act, hnone]
  rfl

/-- A template with three stops, inserted behind the first character. -/
def toured : State (WithDocument Empty) :=
  visitedView.act (.insertSnippet "$2$\x7b1:xy\x7d$0".toList ⟨1, 1⟩)

/-- Two moves go to the end of the inserted text, the first of them can be taken back, and the
document stays. -/
theorem nextStops?_toured :
    (∃ s', toured.nextStops? 2 = some s' ∧ s'.selection = ⟨3, 3⟩ ∧ s'.session = none ∧
        s'.nextStop? = none) ∧
      (∃ on back, toured.nextStop? = some on ∧ on.state.prevStop? = some back ∧
        back.state.selection = ⟨1, 3⟩ ∧ on.KeepsDocument) := by
  have hstops : (Snippet.parse "$2$\x7b1:xy\x7d$0".toList).stops
      = [⟨1, [⟨0, 2⟩]⟩, ⟨2, [⟨0, 0⟩]⟩, ⟨0, [⟨2, 2⟩]⟩] := by
    decide_cbv
  obtain ⟨htour, hmoves⟩ := nextStops?_insertSnippet (κ := Empty)
  obtain ⟨-, hvisits⟩ := htour visitedView _ ⟨1, 1⟩ _ hstops (by decide)
  refine ⟨?_, ?_⟩
  · obtain ⟨s', hs', ⟨stop, first, hstop, hfirst, hselection⟩, hsession, hlast, -⟩ :=
      hvisits 2 (by decide)
    obtain rfl : ⟨0, [⟨2, 2⟩]⟩ = stop := Option.some.inj hstop
    obtain rfl : ⟨2, 2⟩ = first := Option.some.inj hfirst
    have hover : ¬s'.session.isSome = true := mt hsession.mp (by decide)
    exact ⟨s', hs', hselection, Option.not_isSome_iff_eq_none.mp hover, (hlast rfl).1⟩
  · obtain ⟨s', hs', ⟨stop, first, hstop, hfirst, hselection⟩, -, -, hback⟩ :=
      hvisits 0 (by decide)
    obtain rfl : toured = s' := Option.some.inj hs'
    obtain rfl : ⟨1, [⟨0, 2⟩]⟩ = stop := Option.some.inj hstop
    obtain rfl : ⟨0, 2⟩ = first := Option.some.inj hfirst
    obtain ⟨on, back, hon, hprev, hsame, -⟩ := hback (by decide)
    have hreachable : toured.Reachable := .update _ reachable_visitedView
    obtain ⟨-, -, hkeeps⟩ := hmoves toured hreachable
    exact ⟨on, back, hon, hprev, hsame.trans hselection, (hkeeps on (.inl hon)).2⟩

end State

end HeadlessEditor
