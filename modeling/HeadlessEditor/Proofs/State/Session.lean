/-
  HeadlessEditor.Proofs.State.Session

  The snippet session of a view.  Whatever is done there, short of starting a
  session by hand, the stops of a session are laid out in the document and one
  of them is selected (`Snippet.Session.Sound`): inserting a snippet starts
  such a session, edits and moves between stops keep it.

  So there is a stop wherever one moves to, and its span is what is selected.
-/

import HeadlessEditor.Proofs.Change.Order
import HeadlessEditor.Proofs.Document.Synchrony
import HeadlessEditor.Proofs.State.Insertion

namespace HeadlessEditor

open Change (signedCount inserted)

-- ============================================================================
-- Sessions
-- ============================================================================

namespace Snippet.Session

variable {length index : Nat} {session : Session}

/-- The stops of a session lie in a document of `length` characters, and one is selected that is
not the last, or the only one. -/
structure Sound (length : Nat) (session : Session) : Prop where
  stops_ne_nil : session.stops ≠ []
  laid : TabStop.Laid length session.stops
  active_lt : session.active < session.stops.length
  active_succ_lt : session.stops.length ≠ 1 → session.active + 1 < session.stops.length

/-- A session that follows changes stays sound. -/
theorem Sound.map {n : Nat} {specs : List Change} (h : session.Sound n) (hn : n < signedCount)
    (hspecs : inserted specs < signedCount) :
    (session.map (.of specs n)).Sound (ChangeSet.of specs n).afterLength where
  stops_ne_nil := by
    rw [Session.map, ne_eq, List.map_eq_nil_iff]
    exact h.stops_ne_nil
  laid := by
    refine h.laid.map_spans ?_ ?_
    · intro span hle hstop
      have hstart := Nat.le_trans hle hstop
      exact ⟨Nat.le_max_right _ _, Nat.max_le.mpr
        ⟨ChangeSet.mapPos_le_afterLength_of_lt hn hspecs hstop .after,
          ChangeSet.mapPos_le_afterLength_of_lt hn hspecs hstart .before⟩⟩
    · intro a b hab hb
      exact ChangeSet.mapPos_mono_of_lt hn hspecs hab hb .before
  active_lt := by
    rw [Session.map, List.length_map]
    exact h.active_lt
  active_succ_lt := by
    rw [Session.map, List.length_map]
    exact h.active_succ_lt

/-- A stop that is not the last one may be selected instead. -/
theorem Sound.select (h : session.Sound length) (hindex : index < session.stops.length)
    {session' : Session} (hselect : session.select index = some session') :
    session'.Sound length := by
  rw [Session.select, Option.ite_none_left_eq_some, Option.some.injEq] at hselect
  obtain ⟨hlast, rfl⟩ := hselect
  refine ⟨h.stops_ne_nil, h.laid, hindex, fun _ => ?_⟩
  show index + 1 < session.stops.length
  omega

/-- What is selected at a stop is its first span. -/
theorem Sound.selectionAt (h : session.Sound length) (hindex : index < session.stops.length) :
    ∃ stop span, session.stops[index]? = some stop ∧ stop.spans.head? = some span ∧
      span.start ≤ span.stop ∧ span.stop ≤ length ∧
      session.selectionAt index = ⟨span.start, span.stop⟩ := by
  have hstop := h.laid.within _ (List.getElem_mem hindex)
  obtain ⟨span, rest, hspans⟩ := List.exists_cons_of_ne_nil hstop.spans_ne_nil
  have hhead : session.stops[index].spans.head? = some span := by
    rw [hspans, List.head?_cons]
  have hget := List.getElem?_eq_getElem hindex
  obtain ⟨hle, hlength⟩ := hstop.span_le span (List.mem_of_head? hhead)
  refine ⟨_, span, hget, hhead, hle, hlength, ?_⟩
  rw [Session.selectionAt, hget, Option.bind_some, hhead]

theorem Sound.clamp_selectionAt (h : session.Sound length) (hindex : index < session.stops.length) :
    (session.selectionAt index).clamp length = session.selectionAt index := by
  obtain ⟨stop, span, -, -, hle, hlength, hselection⟩ := h.selectionAt hindex
  rw [hselection, Selection.clamp, Nat.min_eq_left (Nat.le_trans hle hlength),
    Nat.min_eq_left hlength]

/-- Stops that have been inserted are a sound session, unless none is needed. -/
theorem sound_of_sessionOf {stops : List TabStop} (h : TabStop.Laid length stops)
    (hsession : TransactionSpec.sessionOf stops = some session) : session.Sound length := by
  match stops, hsession with
  | [stop], hsession =>
    rw [TransactionSpec.sessionOf, Option.ite_none_left_eq_some, Option.some.injEq] at hsession
    obtain ⟨-, rfl⟩ := hsession
    exact ⟨List.cons_ne_nil _ _, h, Nat.zero_lt_one, fun hne => absurd rfl hne⟩
  | first :: second :: rest, hsession =>
    obtain rfl : ⟨first :: second :: rest, 0⟩ = session := Option.some.inj hsession
    exact ⟨List.cons_ne_nil _ _, h, Nat.zero_lt_succ _, fun _ => by simp⟩

end Snippet.Session

-- ============================================================================
-- Transactions
-- ============================================================================

variable {κ : Type} [FieldSignature κ]

/-- Whether an effect starts a given session. -/
def Effect.startsSession : Effect κ → Bool
  | .startSnippet _ => true
  | .reconfigure _ | .appendConfig _ | .clearSnippet => false

/-- Without an effect that starts one, a session that is left was there before. -/
theorem Setup.session_foldl_apply {setup : Setup κ} {effects : List (Effect κ)}
    (h : ∀ e ∈ effects, e.startsSession = false) {session : Snippet.Session}
    (hsession : (effects.foldl Setup.apply setup).session = some session) :
    setup.session = some session := by
  induction effects generalizing setup with
  | nil => exact hsession
  | cons e rest ih =>
    obtain ⟨he, hrest⟩ := List.forall_mem_cons.mp h
    have hafter := ih hrest hsession
    cases e with
    | reconfigure extensions => exact hafter
    | appendConfig more => exact hafter
    | startSnippet session => cases he
    | clearSnippet => cases hafter

namespace State

variable {s : State κ} {session : Snippet.Session}

/-- If there is a session, it is sound for the document. -/
def SoundSession (s : State κ) : Prop :=
  ∀ session, s.session = some session → session.Sound s.doc.length

theorem SoundSession.mapSession (h : s.SoundSession) {specs : List Change}
    (hfits : s.doc.length < signedCount)
    (hafter : ((ChangeSet.of specs s.doc.length).apply s.doc).length < signedCount)
    (hsession : s.mapSession (.of specs s.doc.length) = some session) :
    session.Sound ((ChangeSet.of specs s.doc.length).apply s.doc).length := by
  rw [State.mapSession] at hsession
  by_cases hempty : (ChangeSet.of specs s.doc.length).isEmpty = true
  · rw [if_pos hempty] at hsession
    rw [ChangeSet.apply_of_isEmpty hempty]
    exact h session hsession
  · rw [if_neg hempty] at hsession
    obtain ⟨before, hbefore, rfl⟩ := Option.map_eq_some_iff.mp hsession
    have hinserted := ChangeSet.inserted_le_afterLength specs s.doc.length
    rw [ChangeSet.length_apply_of] at hafter ⊢
    exact (h before hbefore).map hfits (by omega)

variable [DecidableEq κ] [StateFields κ]

/-- Without changes, the selection of a stop is set as it is. -/
theorem selection_update_selectionAt {spec : TransactionSpec κ} {index : Nat}
    (hchanges : spec.changes = []) (hselection : spec.selection = some (session.selectionAt index))
    (hsound : session.Sound s.doc.length) (hindex : index < session.stops.length) :
    (s.update spec).state.selection = session.selectionAt index := by
  have hset : (s.update spec).state.selection
      = (spec.selection.getD (s.selection.map _)).clamp (s.update spec).state.doc.length := rfl
  rw [hset, doc_update_of_changes_eq_nil hchanges, hselection, Option.getD_some,
    hsound.clamp_selectionAt hindex]

theorem SoundSession.update (h : s.SoundSession) {spec : TransactionSpec κ}
    (hstarts : ∀ e ∈ spec.effects, e.startsSession = false) (hfits : s.doc.length < signedCount)
    (hafter : (s.update spec).state.doc.length < signedCount) :
    (s.update spec).state.SoundSession := by
  intro session hsession
  exact h.mapSession hfits hafter (Setup.session_foldl_apply hstarts hsession)

theorem soundSession_insertSnippet (s : State κ) (template : Text) (span : Span) :
    (s.update (.insertSnippet s (Snippet.parse template) span)).state.SoundSession := by
  intro session hsession
  rw [session_update_setSession rfl] at hsession
  have hlaid := (Snippet.laid_stops_parse template).shift (span.clamp s.doc.length).start
  have hlength := s.length_update_insertSnippet (Snippet.parse template) span
  exact Snippet.Session.sound_of_sessionOf (hlaid.mono hlength) hsession

theorem SoundSession.selectStop (h : s.SoundSession) (hs : s.session = some session) {index : Nat}
    (hindex : index < session.stops.length) :
    (s.update (.selectStop session index)).state.SoundSession := by
  intro session' hsession'
  rw [session_update_setSession rfl] at hsession'
  rw [doc_update_of_changes_eq_nil rfl]
  exact (h session hs).select hindex hsession'

/-- Moving to a stop selects its first span as it is. -/
theorem SoundSession.selection_selectStop (h : s.SoundSession) (hs : s.session = some session)
    {index : Nat} (hindex : index < session.stops.length) :
    ∃ stop span, session.stops[index]? = some stop ∧ stop.spans.head? = some span ∧
      (s.update (.selectStop session index)).state.selection = ⟨span.start, span.stop⟩ := by
  have hsound := h session hs
  obtain ⟨stop, span, hstop, hspan, -, -, hselection⟩ := hsound.selectionAt hindex
  exact ⟨stop, span, hstop, hspan,
    (selection_update_selectionAt rfl rfl hsound hindex).trans hselection⟩

-- ============================================================================
-- What is done in a view
-- ============================================================================

/-- What can be done in a view.  A transaction made by hand starts no session. -/
inductive Action (κ : Type) [FieldSignature κ] where
  | insertSnippet (template : Text) (span : Span)
  | insertText (text : Text) (span : Span)
  | nextStop
  | prevStop
  | clearSnippet
  | dispatch (spec : TransactionSpec κ) (h : ∀ e ∈ spec.effects, e.startsSession = false)

/-- The state of a view after an action; where there is no stop to move to, nothing happens. -/
def act (s : State κ) : Action κ → State κ
  | .insertSnippet template span =>
      (s.update (.insertSnippet s (Snippet.parse template) span)).state
  | .insertText text span => (s.update (.insertText s text span)).state
  | .nextStop => (s.nextStop?.map Transaction.state).getD s
  | .prevStop => (s.prevStop?.map Transaction.state).getD s
  | .clearSnippet => (s.clearSnippet?.map Transaction.state).getD s
  | .dispatch spec _ => (s.update spec).state

/-- The states a view gets into.  Its documents are not longer than the signed words can tell that
offsets are mapped in; none that fits into memory is. -/
inductive Visited : State κ → Prop where
  | create (config : StateConfig κ) (hfits : config.doc.length < signedCount) :
      Visited (create config)
  | act {s : State κ} (action : Action κ) (h : Visited s)
      (hfits : (s.act action).doc.length < signedCount) : Visited (s.act action)

theorem Visited.length_lt (h : s.Visited) : s.doc.length < signedCount := by
  cases h with
  | create config hfits => exact hfits
  | act action _ hfits => exact hfits

theorem nextStop?_eq_some_iff {tr : Transaction κ} :
    s.nextStop? = some tr ↔ ∃ session, s.session = some session ∧
      session.active + 1 < session.stops.length ∧
      tr = s.update (.selectStop session (session.active + 1)) := by
  rw [nextStop?]
  cases s.session with
  | none => simp
  | some session => simp [Snippet.Session.hasNext, eq_comm]

theorem prevStop?_eq_some_iff {tr : Transaction κ} :
    s.prevStop? = some tr ↔ ∃ session, s.session = some session ∧ 0 < session.active ∧
      tr = s.update (.selectStop session (session.active - 1)) := by
  rw [prevStop?]
  cases s.session with
  | none => simp
  | some session => simp [Snippet.Session.hasPrev, eq_comm]

theorem clearSnippet?_eq_some_iff {tr : Transaction κ} :
    s.clearSnippet? = some tr ↔ ∃ session, s.session = some session ∧
      tr = s.update { effects := [.clearSnippet] } := by
  rw [clearSnippet?]
  cases s.session with
  | none => simp
  | some session => simp [eq_comm]

/-- One action. -/
theorem SoundSession.act (h : s.SoundSession) (action : Action κ)
    (hfits : s.doc.length < signedCount) (hafter : (s.act action).doc.length < signedCount) :
    (s.act action).SoundSession := by
  cases action with
  | insertSnippet template span => exact soundSession_insertSnippet s template span
  | insertText text span => exact h.update (fun _ he => absurd he List.not_mem_nil) hfits hafter
  | nextStop =>
    rw [State.act]
    cases htr : s.nextStop? with
    | none => exact h
    | some tr =>
      obtain ⟨session, hs, hindex, rfl⟩ := nextStop?_eq_some_iff.mp htr
      exact h.selectStop hs hindex
  | prevStop =>
    rw [State.act]
    cases htr : s.prevStop? with
    | none => exact h
    | some tr =>
      obtain ⟨session, hs, -, rfl⟩ := prevStop?_eq_some_iff.mp htr
      have hactive := (h session hs).active_lt
      exact h.selectStop hs (by omega)
  | clearSnippet =>
    rw [State.act, clearSnippet?]
    cases s.session with
    | none => exact h
    | some _ =>
      intro session hsession
      have hnone : none = some session := hsession
      cases hnone
  | dispatch spec hstarts => exact h.update hstarts hfits hafter

/-- All actions. -/
theorem Visited.soundSession (h : s.Visited) : s.SoundSession := by
  induction h with
  | create config _ => exact fun _ hsession => nomatch hsession
  | act action hs hfits ih => exact ih.act action hs.length_lt hfits

/-- In every state of a view a session is sound, and moving on or back in it selects the first
span of the next stop or the one before: there is such a stop, and the span lies in the
document. -/
theorem session_of_visited (h : s.Visited) (hs : s.session = some session) :
    session.Sound s.doc.length ∧
      (∀ tr, s.nextStop? = some tr →
        ∃ stop span, session.stops[session.active + 1]? = some stop ∧
          stop.spans.head? = some span ∧ tr.state.selection = ⟨span.start, span.stop⟩) ∧
      ∀ tr, s.prevStop? = some tr →
        ∃ stop span, session.stops[session.active - 1]? = some stop ∧
          stop.spans.head? = some span ∧ tr.state.selection = ⟨span.start, span.stop⟩ := by
  have hsound := h.soundSession
  refine ⟨hsound session hs, fun tr htr => ?_, fun tr htr => ?_⟩
  · obtain ⟨session', hs', hindex, rfl⟩ := nextStop?_eq_some_iff.mp htr
    obtain rfl : session = session' := Option.some.inj (hs.symm.trans hs')
    exact hsound.selection_selectStop hs hindex
  · obtain ⟨session', hs', -, rfl⟩ := prevStop?_eq_some_iff.mp htr
    obtain rfl : session = session' := Option.some.inj (hs.symm.trans hs')
    have hactive := (hsound session hs).active_lt
    exact hsound.selection_selectStop hs (by omega)

/-- A snippet is inserted, and its first stop is typed at. -/
def typedAtStop : State (WithDocument Empty) :=
  ((create { doc := "ab".toList }).act (.insertSnippet "$\x7b2:x\x7d-$1$0".toList ⟨1, 1⟩)).act
    (.dispatch { changes := [.insertion 3 "yz".toList] } nofun)

/-- The next stop is the one before the typed text. -/
theorem session_of_typedAtStop :
    ∃ session, typedAtStop.session = some session ∧ session.Sound typedAtStop.doc.length ∧
      ∃ tr, typedAtStop.nextStop? = some tr ∧ tr.state.selection = ⟨1, 2⟩ := by
  have hvisited : typedAtStop.Visited :=
    .act _ (.act _ (.create _ (by decide)) (by decide +kernel)) (by decide +kernel)
  have hs : typedAtStop.session
      = some ⟨[⟨1, [⟨3, 5⟩]⟩, ⟨2, [⟨1, 2⟩]⟩, ⟨0, [⟨3, 5⟩]⟩], 0⟩ := by
    decide_cbv
  obtain ⟨hsound, hnext, -⟩ := session_of_visited hvisited hs
  obtain ⟨tr, htr⟩ : ∃ tr, typedAtStop.nextStop? = some tr :=
    ⟨_, nextStop?_eq_some_iff.mpr ⟨_, hs, by decide, rfl⟩⟩
  obtain ⟨stop, span, hstop, hspan, hselection⟩ := hnext tr htr
  obtain rfl : ⟨2, [⟨1, 2⟩]⟩ = stop := Option.some.inj hstop
  obtain rfl : ⟨1, 2⟩ = span := Option.some.inj hspan
  exact ⟨_, hs, hsound, tr, htr, hselection⟩

end State

end HeadlessEditor
