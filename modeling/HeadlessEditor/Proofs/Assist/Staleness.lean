/-
  HeadlessEditor.Proofs.Assist.Staleness

  Which answers are dropped as stale.  The URI and the version of a document
  tell it from every other one of a run that keeps the URI, as far as 32 bits
  go, and then a document that is current has the text that was asked about.
  They do not tell it from a document that began in the run: its version
  starts over, and may come to that of the one asked about
  (`State.isCurrent_replay_iff`).  So a stale answer is delivered exactly
  over runs that leave the URI and come back with that version.
-/

import HeadlessEditor.Proofs.Assist.Inquiry
import HeadlessEditor.Proofs.Document.Revision

namespace HeadlessEditor

variable {κ : Type} [FieldSignature κ] [DecidableEq κ] [HostFields κ]

namespace State

-- ============================================================================
-- Current documents
-- ============================================================================

variable {s : State (WithDocument κ)} {d : TextDocument}
  {specs : List (TransactionSpec (WithDocument κ))}

theorem length_transactions (s : State (WithDocument κ))
    (specs : List (TransactionSpec (WithDocument κ))) :
    (s.transactions specs).length = specs.length := by
  induction specs generalizing s with
  | nil => rfl
  | cons spec rest ih => rw [transactions, List.length_cons, ih, List.length_cons]

theorem revisions_transactions_le (s : State (WithDocument κ))
    (specs : List (TransactionSpec (WithDocument κ))) :
    revisions (s.transactions specs) ≤ specs.length := by
  rw [revisions, ← length_transactions s specs]
  exact List.countP_le_length

/-- Fewer revisions than there are versions add up to no version only if there are none. -/
theorem revisions_eq_zero {n : Nat} (hfew : n < Int32.size) {version : Int32}
    (h : version + Int32.ofNat n = version) : n = 0 := by
  rw [Int32.add_eq_left] at h
  have hbits : (Int32.ofNat n).toBitVec.toNat = 0 := by
    rw [h]
    rfl
  rw [Int32.toBitVec_ofNat', BitVec.toNat_ofNat] at hbits
  rwa [Nat.mod_eq_of_lt hfew] at hbits

/-- A document whose URI stays is current after a run exactly if the run does not revise it. -/
theorem isCurrent_replay_iff_of_keeps (h : s.Reachable) (hd : s.document? = some d)
    (hfew : specs.length < Int32.size)
    (hkeep : ∀ tr ∈ s.transactions specs, tr.state.documentUri? = some d.uri) :
    Exchange.isCurrent d (s.replay specs) = true ↔ revisions (s.transactions specs) = 0 := by
  obtain ⟨d', hd', -, hcount, hsame⟩ := document?_replay h hd hkeep
  rw [Exchange.isCurrent_iff]
  constructor
  · rintro ⟨d₁, hd₁, -, hversion⟩
    obtain rfl : d' = d₁ := Option.some.inj (hd'.symm.trans hd₁)
    rw [hcount] at hversion
    have hle := revisions_transactions_le s specs
    exact revisions_eq_zero (Nat.lt_of_le_of_lt hle hfew) hversion
  · intro hnone
    rw [hsame hnone] at hd'
    exact ⟨d, hd', rfl, rfl⟩

/-- A document is current after a run exactly if the run leaves it as it is, or another one with
its URI begins in the run and comes to its version. -/
theorem isCurrent_replay_iff (h : s.Reachable) (hd : s.document? = some d)
    (hfew : specs.length < Int32.size) :
    Exchange.isCurrent d (s.replay specs) = true ↔
      ((∀ tr ∈ s.transactions specs, tr.state.documentUri? = some d.uri) ∧
        revisions (s.transactions specs) = 0) ∨ s.BeginsAnew specs d.uri d.version := by
  constructor
  · intro hcurrent
    obtain ⟨d', hd', huri, hversion⟩ := Exchange.isCurrent_iff.mp hcurrent
    have hend : (s.replay specs).documentUri? = some d.uri :=
      documentUri?_eq_some_iff.mpr ⟨d', hd', huri⟩
    rcases keeps_or_beginsAnew hend with hkeep | ⟨version, hnew⟩
    · exact .inl ⟨hkeep, (isCurrent_replay_iff_of_keeps h hd hfew hkeep).mp hcurrent⟩
    · right
      obtain ⟨d₁, hd₁, -, hversion₁⟩ := hnew.document? h
      rw [hd'] at hd₁
      cases hd₁
      rw [← hversion, hversion₁]
      exact hnew
  · rintro (⟨hkeep, hnone⟩ | hnew)
    · exact (isCurrent_replay_iff_of_keeps h hd hfew hkeep).mpr hnone
    · exact Exchange.isCurrent_iff.mpr (hnew.document? h)

/-- A run that keeps the URI and revises nothing leaves the text. -/
theorem doc_replay_of_revisions_eq_zero (h : s.Reachable) (hd : s.document? = some d)
    (hkeep : ∀ tr ∈ s.transactions specs, tr.state.documentUri? = some d.uri)
    (hnone : revisions (s.transactions specs) = 0) : (s.replay specs).doc = d.text := by
  obtain ⟨d', hd', -, -, hsame⟩ := document?_replay h hd hkeep
  rw [hsame hnone] at hd'
  exact ((h.replay specs).inStep.mirrors d hd').text_eq.symm

end State

-- ============================================================================
-- Delivered answers
-- ============================================================================

namespace Inquiry

variable {q : Inquiry κ} {view : State (WithDocument κ)}

/-- What a source delivers is about the text the view has by then exactly if, whenever a document
with the URI and the version asked about began during the provider's turn and there is an answer,
the text is the same again. -/
theorem doc_of_delivered_iff (h : view.Reachable)
    (hfew : ∀ t, q.turn? view = some t → t.dispatched.length < Int32.size) :
    ((q.report view).delivered = true →
        ∃ d, (q.report view).given? = some d ∧ (q.report view).view.doc = d.text) ↔
      ∀ t, q.turn? view = some t → t.answered = true →
        view.BeginsAnew t.dispatched t.asked.uri t.asked.version →
          (view.replay t.dispatched).doc = t.asked.text := by
  cases hturn : q.turn? view with
  | none =>
    rw [report_of_turn?_eq_none hturn]
    simp
  | some t =>
    have hd := document?_of_turn? hturn
    have hcurrent := State.isCurrent_replay_iff h hd (hfew t hturn)
    have hdelivered : (q.report view).delivered = true ↔ t.answered = true ∧
        (((∀ tr ∈ view.transactions t.dispatched, tr.state.documentUri? = some t.asked.uri) ∧
          revisions (view.transactions t.dispatched) = 0) ∨
            view.BeginsAnew t.dispatched t.asked.uri t.asked.version) := by
      rw [report_of_turn? hturn, Turn.report, Bool.and_eq_true, hcurrent]
    rw [hdelivered, report_of_turn? hturn]
    constructor
    · intro hsound t' ht' hanswered hnew
      cases ht'
      obtain ⟨d, hgiven, htext⟩ := hsound ⟨hanswered, .inr hnew⟩
      cases hgiven
      exact htext
    · rintro hagain ⟨hanswered, ⟨hkeep, hnone⟩ | hnew⟩
      · exact ⟨t.asked, rfl, State.doc_replay_of_revisions_eq_zero h hd hkeep hnone⟩
      · exact ⟨t.asked, rfl, hagain t rfl hanswered hnew⟩

/-- A view with a text and a document. -/
def visitedView : State (WithDocument Empty) :=
  .create { doc := "one".toList, extensions := [.document "file:///a"] }

/-- A hover during which the view is edited, goes to another document and comes back. -/
def awayAndBack (changes : List Change) : Inquiry Empty :=
  .hover 0 fun _ =>
    { dispatched :=
        [{ changes, effects := [.reconfigure [.document "file:///b"]] },
          { effects := [.reconfigure [.document "file:///a"]] }]
      answer := .ok (some { contents := .scalar (.markdown "found") }) }

theorem reachable_visitedView : visitedView.Reachable :=
  .create _

theorem length_dispatched_awayAndBack {changes : List Change} {t : Turn Empty}
    (h : (awayAndBack changes).turn? visitedView = some t) :
    t.dispatched.length < Int32.size := by
  cases h
  show 2 < Int32.size
  decide

/-- Without an edit on the way, the tooltip is delivered and about the text of the view. -/
theorem doc_of_delivered_awayAndBack :
    ((awayAndBack []).report visitedView).delivered = true ∧
      ∃ d, ((awayAndBack []).report visitedView).given? = some d ∧
        ((awayAndBack []).report visitedView).view.doc = d.text := by
  have hdelivered : ((awayAndBack []).report visitedView).delivered = true := by decide +kernel
  have hsound := doc_of_delivered_iff reachable_visitedView
    (fun t (ht : (awayAndBack []).turn? visitedView = some t) => length_dispatched_awayAndBack ht)
  refine ⟨hdelivered, hsound.mpr ?_ hdelivered⟩
  intro t ht _ _
  cases ht
  decide +kernel

/-- With an edit on the way, the tooltip is delivered although the text is another one: the
document is back at version 0. -/
theorem not_doc_of_delivered_awayAndBack :
    ¬ ∀ (q : Inquiry Empty) (view : State (WithDocument Empty)), view.Reachable →
      (∀ t, q.turn? view = some t → t.dispatched.length < Int32.size) →
        (q.report view).delivered = true →
          ∃ d, (q.report view).given? = some d ∧ (q.report view).view.doc = d.text := by
  intro hclaim
  have hdelivered : ((awayAndBack [⟨0, 3, "two".toList⟩]).report visitedView).delivered = true := by
    decide +kernel
  obtain ⟨d, hd, htext⟩ := hclaim _ _ reachable_visitedView
    (fun _ ht => length_dispatched_awayAndBack ht) hdelivered
  have hgiven : ((awayAndBack [⟨0, 3, "two".toList⟩]).report visitedView).given?
      = some ⟨"file:///a", "plaintext", 0, "one".toList⟩ := by
    decide +kernel
  have hafter : ((awayAndBack [⟨0, 3, "two".toList⟩]).report visitedView).view.doc
      = "two".toList := by
    decide +kernel
  rw [hgiven] at hd
  rw [hafter, ← Option.some.inj hd] at htext
  exact absurd htext (by decide)

end Inquiry

end HeadlessEditor
