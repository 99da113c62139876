/-
  HeadlessEditor.Proofs.Assist.Freshness

  Which answers are delivered while the view keeps its URI.  It is exactly
  those during which no transaction changed the text or the language id; it
  does not help that a later transaction takes the change back
  (`Inquiry.delivered_iff_not_revised`).

  A transaction whose changes do nothing, and whose effects concern at most
  the snippet, is idle (`TransactionSpec.Idle`).  Idle transactions, such as
  those that move between tab stops, keep the URI and revise nothing.
-/

import HeadlessEditor.Proofs.Assist.Staleness
import HeadlessEditor.Proofs.Change.Normal
import HeadlessEditor.State.Snippet

namespace HeadlessEditor

variable {κ : Type} [FieldSignature κ]

-- ============================================================================
-- Idle transactions
-- ============================================================================

/-- In a document of `length` characters the changes do nothing, and the effects leave the
configuration.  Whatever selection is set does not matter. -/
structure TransactionSpec.Idle (spec : TransactionSpec κ) (length : Nat) : Prop where
  isVoid_of_mem : ∀ c ∈ spec.changes, (c.clamp length).isVoid = true
  configures_of_mem : ∀ e ∈ spec.effects, e.configures = false

/-- Going to a tab stop is idle. -/
theorem TransactionSpec.idle_selectStop (session : Snippet.Session) (index length : Nat) :
    (selectStop session index : TransactionSpec κ).Idle length where
  isVoid_of_mem := fun _ hc => absurd hc List.not_mem_nil
  configures_of_mem := by
    intro e he
    rw [selectStop, List.mem_singleton] at he
    rw [he]
    cases session.select index <;> rfl

theorem Transaction.revises_eq_false_iff {tr : Transaction (WithDocument κ)} :
    tr.revises = false ↔
      tr.docChanged = false ∧ tr.state.languageId = tr.startState.languageId := by
  rw [revises, Bool.or_eq_false_iff, bne_eq_false_iff_eq, eq_comm (a := tr.state.languageId)]

theorem revisions_eq_zero_iff {trs : List (Transaction (WithDocument κ))} :
    revisions trs = 0 ↔
      ∀ tr ∈ trs, tr.docChanged = false ∧ tr.state.languageId = tr.startState.languageId := by
  simp only [revisions, List.countP_eq_zero, Bool.not_eq_true, Transaction.revises_eq_false_iff]

variable [DecidableEq κ]

/-- A transaction changes the text exactly if one of its changes does something. -/
theorem State.docChanged_update_eq_false_iff [StateFields κ] {s : State κ}
    {spec : TransactionSpec κ} :
    (s.update spec).docChanged = false ↔
      ∀ c ∈ spec.changes, (c.clamp s.doc.length).isVoid = true := by
  rw [Transaction.docChanged, Bool.not_eq_false', changes_update, ChangeSet.isEmpty_of_iff]

theorem TransactionSpec.Idle.extensions_update [StateFields κ] {s : State κ}
    {spec : TransactionSpec κ} (hidle : spec.Idle s.doc.length) :
    (s.update spec).state.extensions = s.extensions := by
  rw [State.extensions_update, State.setup_eq]
  exact Effect.foldl_configure_of_forall hidle.configures_of_mem s.extensions

variable [HostFields κ]

namespace State

variable {s : State (WithDocument κ)} {specs : List (TransactionSpec (WithDocument κ))}

/-- An idle transaction leaves the text, the language id and the URI. -/
theorem update_of_idle (h : s.Reachable) {spec : TransactionSpec (WithDocument κ)}
    (hidle : spec.Idle s.doc.length) :
    (s.update spec).docChanged = false ∧ (s.update spec).state.doc = s.doc ∧
      (s.update spec).state.languageId = s.languageId ∧
      (s.update spec).state.documentUri? = s.documentUri? := by
  have hdoc : (s.update spec).docChanged = false :=
    docChanged_update_eq_false_iff.mpr hidle.isVoid_of_mem
  have hafter : (s.update spec).state.Reachable := .update spec h
  refine ⟨hdoc, doc_update_of_not_docChanged hdoc, ?_, ?_⟩
  · rw [languageId_eq hafter.coherent, languageId_eq h.coherent, hidle.extensions_update]
  · rw [documentUri?_eq hafter, documentUri?_eq h, hidle.extensions_update]

/-- So do runs of them. -/
theorem transactions_of_idle (h : s.Reachable) (hidle : ∀ spec ∈ specs, spec.Idle s.doc.length) :
    ∀ tr ∈ s.transactions specs, tr.state.documentUri? = s.documentUri? ∧
      tr.docChanged = false ∧ tr.state.languageId = tr.startState.languageId := by
  induction specs generalizing s with
  | nil => exact fun tr htr => absurd htr List.not_mem_nil
  | cons spec rest ih =>
    rw [List.forall_mem_cons] at hidle
    obtain ⟨hfirst, hrest⟩ := hidle
    obtain ⟨hchanged, hdoc, hlanguage, huri⟩ := update_of_idle h hfirst
    rw [transactions, List.forall_mem_cons, ← huri]
    rw [← hdoc] at hrest
    exact ⟨⟨rfl, hchanged, hlanguage⟩, ih (.update spec h) hrest⟩

end State

-- ============================================================================
-- Delivered answers
-- ============================================================================

namespace Inquiry

variable {q : Inquiry κ} {view : State (WithDocument κ)} {t : Turn κ}

theorem delivered_iff_of_keeps (h : view.Reachable) (hturn : q.turn? view = some t)
    (hanswered : t.answered = true) (hfew : t.dispatched.length < Int32.size)
    (hkeep : ∀ tr ∈ view.transactions t.dispatched, tr.state.documentUri? = some t.asked.uri) :
    (q.report view).delivered = true ↔
      ∀ tr ∈ view.transactions t.dispatched,
        tr.docChanged = false ∧ tr.state.languageId = tr.startState.languageId := by
  have hd := document?_of_turn? hturn
  rw [report_of_turn? hturn, Turn.report, hanswered, Bool.true_and,
    State.isCurrent_replay_iff_of_keeps h hd hfew hkeep, revisions_eq_zero_iff]

/-- While the URI stays, an answer that has something to deliver is delivered exactly if no
transaction of the provider's turn changes the text or the language id, and so whenever they all
are idle. -/
theorem delivered_iff_not_revised (h : view.Reachable) (hturn : q.turn? view = some t)
    (hanswered : t.answered = true) (hfew : t.dispatched.length < Int32.size) :
    ((∀ tr ∈ view.transactions t.dispatched, tr.state.documentUri? = some t.asked.uri) →
        ((q.report view).delivered = true ↔
          ∀ tr ∈ view.transactions t.dispatched,
            tr.docChanged = false ∧ tr.state.languageId = tr.startState.languageId)) ∧
      ((∀ spec ∈ t.dispatched, spec.Idle view.doc.length) →
        (q.report view).delivered = true) := by
  refine ⟨delivered_iff_of_keeps h hturn hanswered hfew, fun hidle => ?_⟩
  have huri : view.documentUri? = some t.asked.uri :=
    State.documentUri?_eq_some_iff.mpr ⟨t.asked, document?_of_turn? hturn, rfl⟩
  have hall := State.transactions_of_idle h hidle
  rw [huri] at hall
  rw [delivered_iff_of_keeps h hturn hanswered hfew fun tr htr => (hall tr htr).1]
  exact fun tr htr => (hall tr htr).2

/-- A hover during which the given transactions are made. -/
def hoverDuring (dispatched : List (TransactionSpec (WithDocument Empty))) : Inquiry Empty :=
  .hover 0 fun _ =>
    { dispatched, answer := .ok (some { contents := .scalar (.markdown "found") }) }

theorem turn?_hoverDuring (dispatched : List (TransactionSpec (WithDocument Empty))) :
    (hoverDuring dispatched).turn? visitedView
      = some ⟨⟨"file:///a", "plaintext", 0, "one".toList⟩, dispatched, true⟩ :=
  rfl

/-- An edit that is taken back. -/
def editAndBack : List (TransactionSpec (WithDocument Empty)) :=
  [{ changes := [.insertion 0 ['x']] }, { changes := [.deletion 0 1] }]

/-- A session is started, its tab stops are walked, and what lies behind the text is deleted. -/
def walkStops : List (TransactionSpec (WithDocument Empty)) :=
  [{ effects := [.startSnippet ⟨[⟨1, [⟨0, 1⟩]⟩, ⟨0, [⟨3, 3⟩]⟩], 0⟩] },
    .selectStop ⟨[⟨1, [⟨0, 1⟩]⟩, ⟨0, [⟨3, 3⟩]⟩], 0⟩ 1, { changes := [.deletion 3 9] }]

/-- An edit makes the answer stale although the text is the same again, moving about does not. -/
theorem delivered_hoverDuring :
    ((hoverDuring editAndBack).report visitedView).view.doc = visitedView.doc ∧
      ((hoverDuring editAndBack).report visitedView).delivered = false ∧
      ((hoverDuring walkStops).report visitedView).delivered = true := by
  obtain ⟨hedit, -⟩ := delivered_iff_not_revised reachable_visitedView
    (turn?_hoverDuring editAndBack) rfl (show 2 < Int32.size by decide)
  obtain ⟨-, hidle⟩ := delivered_iff_not_revised reachable_visitedView
    (turn?_hoverDuring walkStops) rfl (show 3 < Int32.size by decide)
  refine ⟨by decide +kernel, ?_, hidle ?_⟩
  · rw [← Bool.not_eq_true, hedit (by decide +kernel)]
    decide +kernel
  · intro spec hspec
    simp only [walkStops, List.mem_cons, List.not_mem_nil, or_false] at hspec
    rcases hspec with rfl | rfl | rfl
    · exact ⟨by decide, by decide⟩
    · exact TransactionSpec.idle_selectStop _ _ _
    · exact ⟨by decide, by decide⟩

end Inquiry

end HeadlessEditor
