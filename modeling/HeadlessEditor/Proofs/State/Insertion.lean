/-
  HeadlessEditor.Proofs.State.Insertion

  What inserting comes to.  A text goes in the place of a span and has the
  cursor behind it (`Text.Placed`).  A snippet's text does too, and its tab
  stops go with it (`Snippet.Placed`): whatever the template, they lie in the
  text that is inserted, so they cover the same pieces of it in the document,
  and the one that is selected first need not be clamped.
-/

import HeadlessEditor.Proofs.Change.Normal
import HeadlessEditor.Proofs.Snippet.Extent
import HeadlessEditor.State.Snippet

namespace HeadlessEditor

variable {κ : Type} [FieldSignature κ]

-- ============================================================================
-- One change
-- ============================================================================

namespace State

variable [DecidableEq κ] [StateFields κ] {s : State κ} {spec : TransactionSpec κ}

/-- A transaction with a single change makes it where it is clamped to. -/
theorem doc_update_of_changes {span : Span} {text : Text}
    (h : spec.changes = [⟨span.start, span.stop, text⟩]) :
    (s.update spec).state.doc
      = s.doc.splice (span.clamp s.doc.length).start (span.clamp s.doc.length).stop text := by
  rw [doc_update, h, ChangeSet.apply_of_singleton]
  rfl

/-- A selection that lies in the new document is set as it is. -/
theorem selection_update_of_le {selection : Selection} (h : spec.selection = some selection)
    (hanchor : selection.anchor ≤ (s.update spec).state.doc.length)
    (hhead : selection.head ≤ (s.update spec).state.doc.length) :
    (s.update spec).state.selection = selection := by
  have hupdate : (s.update spec).state.selection
      = (spec.selection.getD (s.selection.map _)).clamp (s.update spec).state.doc.length := rfl
  rw [hupdate, h, Option.getD_some, Selection.clamp, Nat.min_eq_left hanchor,
    Nat.min_eq_left hhead]

/-- An effect that sets the session decides about it. -/
theorem session_update_setSession {spec : TransactionSpec κ} {started : Option Snippet.Session}
    (heffects : spec.effects = [TransactionSpec.setSession started]) :
    (s.update spec).state.session = started := by
  show (s.setup _ spec.effects).session = started
  rw [heffects]
  cases started <;> rfl

end State

-- ============================================================================
-- Texts
-- ============================================================================

/-- The state after a text has taken the place of a span of a document. -/
structure Text.Placed (text doc : Text) (span : Span) (after : State κ) : Prop where
  doc_eq : after.doc = doc.take span.start ++ text ++ doc.drop span.stop
  selection_eq : after.selection = Selection.cursor (span.start + text.length)

theorem Text.length_splice_clamp (doc : Text) (span : Span) (text : Text) :
    (span.clamp doc.length).start + text.length
      ≤ (doc.splice (span.clamp doc.length).start (span.clamp doc.length).stop text).length := by
  obtain ⟨hle, hlength⟩ := span.clamp_bounds doc.length
  rw [length_splice]
  omega

/-- Clamping the ends of a span one by one comes to the same in the end. -/
theorem Span.clamp_min_length (span : Span) (length : Nat) :
    clamp ⟨min span.start length, min span.stop length⟩ length = span.clamp length := by
  simp only [clamp, Nat.min_assoc, Nat.min_self]

section

variable [DecidableEq κ] [StateFields κ]

theorem State.doc_update_insertText (s : State κ) (text : Text) (span : Span) :
    (s.update (.insertText s text span)).state.doc
      = s.doc.splice (span.clamp s.doc.length).start (span.clamp s.doc.length).stop text := by
  rw [← Span.clamp_min_length]
  exact doc_update_of_changes rfl

/-- Inserting a text replaces the span with its ends clamped and in order. -/
theorem State.placed_insertText (s : State κ) (text : Text) (span : Span) :
    Text.Placed text s.doc (span.clamp s.doc.length)
      (s.update (.insertText s text span)).state := by
  have hdoc := s.doc_update_insertText text span
  have hlength := s.doc.length_splice_clamp span text
  rw [← hdoc] at hlength
  exact ⟨hdoc, selection_update_of_le rfl hlength hlength⟩

end

-- ============================================================================
-- Snippets
-- ============================================================================

/-- The state after a snippet has taken the place of a span of a document: the text is there, its
first span is selected, and the session has the stops, which cover what they cover in the
snippet.  If there is nothing to visit but the end, there is no session. -/
structure Snippet.Placed (snippet : Snippet) (doc : Text) (target : Span) (after : State κ) :
    Prop where
  doc_eq : after.doc = doc.take target.start ++ snippet.text ++ doc.drop target.stop
  laid : TabStop.Laid snippet.text.length snippet.stops
  selection_of_nil : snippet.stops = [] →
    after.selection = Selection.cursor (target.start + snippet.text.length)
  selection_of_cons : ∀ stop rest, snippet.stops = stop :: rest →
    ∃ span others, stop.spans = span :: others ∧
      after.selection = ⟨target.start + span.start, target.start + span.stop⟩
  session_eq : after.session =
    if (∃ stop ∈ snippet.stops, stop.number ≠ 0) ∨ 1 < snippet.stops.length then
      some ⟨snippet.stops.map (·.shift target.start), 0⟩
    else none
  covers : ∀ stop ∈ snippet.stops, ∀ span ∈ stop.spans,
    target.start + span.stop ≤ after.doc.length ∧
      after.doc.slice (target.start + span.start) (target.start + span.stop)
        = snippet.text.slice span.start span.stop

/-- A session is needed unless there are no stops or a final one only. -/
theorem TransactionSpec.sessionOf_eq (stops : List TabStop) :
    sessionOf stops =
      if (∃ stop ∈ stops, stop.number ≠ 0) ∨ 1 < stops.length then some ⟨stops, 0⟩ else none := by
  match stops with
  | [] => rfl
  | [stop] => by_cases hfinal : stop.number = 0 <;> simp [sessionOf, hfinal]
  | _ :: _ :: _ => simp [sessionOf]

/-- Whether a session is needed does not depend on where the stops are. -/
theorem TransactionSpec.sessionOf_map_shift (stops : List TabStop) (distance : Nat) :
    sessionOf (stops.map (·.shift distance)) =
      if (∃ stop ∈ stops, stop.number ≠ 0) ∨ 1 < stops.length then
        some ⟨stops.map (·.shift distance), 0⟩
      else none := by
  have hnumber : (∃ stop ∈ stops.map (·.shift distance), stop.number ≠ 0)
      ↔ ∃ stop ∈ stops, stop.number ≠ 0 := by
    constructor
    · rintro ⟨_, hmem, hne⟩
      obtain ⟨stop, hstop, rfl⟩ := List.mem_map.mp hmem
      exact ⟨stop, hstop, hne⟩
    · rintro ⟨stop, hstop, hne⟩
      exact ⟨_, List.mem_map_of_mem hstop, hne⟩
  rw [sessionOf_eq, List.length_map]
  simp only [hnumber]

namespace State

/-- The first span of the inserted stops is selected. -/
theorem selection_insertSnippet {s : State κ} {snippet : Snippet} {span first : Span}
    {stop : TabStop}
    (hstop : (snippet.stops.map (·.shift (span.clamp s.doc.length).start)).head? = some stop)
    (hfirst : stop.spans.head? = some first) :
    (TransactionSpec.insertSnippet s snippet span).selection = some ⟨first.start, first.stop⟩ := by
  rw [TransactionSpec.insertSnippet, hstop, Option.bind_some, hfirst]

variable [DecidableEq κ] [StateFields κ]

theorem doc_update_insertSnippet (s : State κ) (snippet : Snippet) (span : Span) :
    (s.update (.insertSnippet s snippet span)).state.doc
      = s.doc.splice (span.clamp s.doc.length).start (span.clamp s.doc.length).stop
          snippet.text := by
  rw [← Span.clamp_clamp]
  exact doc_update_of_changes rfl

theorem length_update_insertSnippet (s : State κ) (snippet : Snippet) (span : Span) :
    (span.clamp s.doc.length).start + snippet.text.length
      ≤ (s.update (.insertSnippet s snippet span)).state.doc.length := by
  rw [doc_update_insertSnippet]
  exact s.doc.length_splice_clamp span snippet.text

theorem session_update_insertSnippet (s : State κ) (snippet : Snippet) (span : Span) :
    (s.update (.insertSnippet s snippet span)).state.session =
      if (∃ stop ∈ snippet.stops, stop.number ≠ 0) ∨ 1 < snippet.stops.length then
        some ⟨snippet.stops.map (·.shift (span.clamp s.doc.length).start), 0⟩
      else none := by
  rw [session_update_setSession rfl]
  exact TransactionSpec.sessionOf_map_shift _ _

/-- What stops cover in the snippet, they cover in the document, as far behind its start. -/
theorem slice_update_insertSnippet (s : State κ) {snippet : Snippet}
    (hlaid : TabStop.Laid snippet.text.length snippet.stops) (span : Span) :
    ∀ stop ∈ snippet.stops, ∀ piece ∈ stop.spans,
      (span.clamp s.doc.length).start + piece.stop
          ≤ (s.update (.insertSnippet s snippet span)).state.doc.length ∧
        (s.update (.insertSnippet s snippet span)).state.doc.slice
            ((span.clamp s.doc.length).start + piece.start)
            ((span.clamp s.doc.length).start + piece.stop)
          = snippet.text.slice piece.start piece.stop := by
  intro stop hmem piece hpiece
  obtain ⟨-, hpieceStop⟩ := (hlaid.within stop hmem).span_le piece hpiece
  have hlength := s.length_update_insertSnippet snippet span
  obtain ⟨hle, hstop⟩ := span.clamp_bounds s.doc.length
  refine ⟨by omega, ?_⟩
  rw [doc_update_insertSnippet]
  exact Text.slice_splice (Nat.le_trans hle hstop) hpieceStop _

/-- The first span of the first stop is selected as it is. -/
theorem selection_update_insertSnippet_of_cons (s : State κ) {snippet : Snippet}
    (hlaid : TabStop.Laid snippet.text.length snippet.stops) {stop : TabStop}
    {rest : List TabStop} (hstops : snippet.stops = stop :: rest) (span : Span) :
    ∃ first others, stop.spans = first :: others ∧
      (s.update (.insertSnippet s snippet span)).state.selection
        = ⟨(span.clamp s.doc.length).start + first.start,
            (span.clamp s.doc.length).start + first.stop⟩ ∧
      (TransactionSpec.insertSnippet s snippet span).selection
        = some (s.update (.insertSnippet s snippet span)).state.selection := by
  have hstop : stop ∈ snippet.stops := by
    rw [hstops]
    exact List.mem_cons_self
  have hwithin := hlaid.within stop hstop
  obtain ⟨first, others, hspans⟩ := List.exists_cons_of_ne_nil hwithin.spans_ne_nil
  have hfirst : first ∈ stop.spans := by
    rw [hspans]
    exact List.mem_cons_self
  have hfirstStop : (snippet.stops.map (·.shift (span.clamp s.doc.length).start)).head?
      = some (stop.shift (span.clamp s.doc.length).start) := by
    rw [hstops, List.map_cons, List.head?_cons]
  have hfirstSpan : (stop.shift (span.clamp s.doc.length).start).spans.head?
      = some (first.shift (span.clamp s.doc.length).start) := by
    rw [TabStop.shift, hspans, List.map_cons, List.head?_cons]
  have hspec := selection_insertSnippet hfirstStop hfirstSpan
  obtain ⟨hle, -⟩ := hwithin.span_le first hfirst
  obtain ⟨hhead, -⟩ := s.slice_update_insertSnippet hlaid span stop hstop first hfirst
  have hselection := selection_update_of_le hspec
    (Nat.le_trans (Nat.add_le_add_left hle _) hhead) hhead
  exact ⟨first, others, hspans, hselection, hspec.trans (congrArg some hselection.symm)⟩

theorem selection_update_insertSnippet_of_nil (s : State κ) {snippet : Snippet}
    (hstops : snippet.stops = []) (span : Span) :
    (s.update (.insertSnippet s snippet span)).state.selection
        = Selection.cursor ((span.clamp s.doc.length).start + snippet.text.length) ∧
      (TransactionSpec.insertSnippet s snippet span).selection
        = some (s.update (.insertSnippet s snippet span)).state.selection := by
  have hspec : (TransactionSpec.insertSnippet s snippet span).selection
      = some (Selection.cursor ((span.clamp s.doc.length).start + snippet.text.length)) := by
    rw [TransactionSpec.insertSnippet, hstops]
    rfl
  have hlength := s.length_update_insertSnippet snippet span
  have hselection := selection_update_of_le hspec hlength hlength
  exact ⟨hselection, hspec.trans (congrArg some hselection.symm)⟩

/-- Inserting a template, over whatever session there is, places what is read from it.  The
selection is the one that is asked for. -/
theorem placed_insertSnippet (s : State κ) (template : Text) (span : Span) :
    (Snippet.parse template).Placed s.doc (span.clamp s.doc.length)
        (s.update (.insertSnippet s (Snippet.parse template) span)).state ∧
      (TransactionSpec.insertSnippet s (Snippet.parse template) span).selection
        = some (s.update (.insertSnippet s (Snippet.parse template) span)).state.selection := by
  have hlaid := Snippet.laid_stops_parse template
  generalize Snippet.parse template = snippet at *
  have hdoc := s.doc_update_insertSnippet snippet span
  have hsession := s.session_update_insertSnippet snippet span
  have hcovers := s.slice_update_insertSnippet hlaid span
  cases hstops : snippet.stops with
  | nil =>
    obtain ⟨hselection, hspec⟩ := s.selection_update_insertSnippet_of_nil hstops span
    refine ⟨⟨hdoc, hlaid, fun _ => hselection, ?_, hsession, hcovers⟩, hspec⟩
    intro stop rest hcons
    cases hstops.symm.trans hcons
  | cons stop rest =>
    obtain ⟨first, others, hspans, hselection, hspec⟩ :=
      s.selection_update_insertSnippet_of_cons hlaid hstops span
    refine ⟨⟨hdoc, hlaid, ?_, ?_, hsession, hcovers⟩, hspec⟩
    · intro hnil
      cases hstops.symm.trans hnil
    · intro stop' rest' hcons
      obtain ⟨rfl, rfl⟩ := List.cons.inj (hstops.symm.trans hcons)
      exact ⟨first, others, hspans, hselection⟩

end State

end HeadlessEditor
