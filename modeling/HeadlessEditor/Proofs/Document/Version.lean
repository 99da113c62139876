/-
  HeadlessEditor.Proofs.Document.Version

  The law of versions.  A transaction that leaves a document with another URI
  leaves a new one, at version 0; one that revises the document raises its
  version by one; any other leaves the very same document
  (`State.document_update_cases`).  So the version of a document is the number
  of its revisions since it began (`State.Begins.version_replay`), and nothing
  else that happens in between has a part in it.
-/

import HeadlessEditor.Proofs.Document.Revision
import Mathlib

namespace HeadlessEditor

variable {κ : Type} [FieldSignature κ] [DecidableEq κ] [HostFields κ]

namespace State

variable {s : State (WithDocument κ)} {spec : TransactionSpec (WithDocument κ)} {uri : String}
  {d d' : TextDocument}

-- ============================================================================
-- From one document to the next
-- ============================================================================

theorem documentChanged_update_iff (hd : s.document? = some d)
    (hd' : (s.update spec).state.document? = some d') :
    (s.update spec).documentChanged = true ↔ d' ≠ d := by
  rw [Transaction.documentChanged, startState_update, hd, hd', decide_eq_true_iff, ne_eq,
    Option.some.injEq, eq_comm]

/-- What a transaction between two states with a document does to it.  Only the very same document
goes unnoticed: a revised one has another version, also where the versions start over after
32 bits. -/
theorem document_update_cases (h : s.Reachable) (hd : s.document? = some d)
    (hd' : (s.update spec).state.document? = some d') :
    (d'.uri ≠ d.uri ∧ d'.version = 0 ∧ (s.update spec).documentChanged = true) ∨
      (d'.uri = d.uri ∧ (s.update spec).revises = true ∧ d'.version = d.version + 1 ∧
        (s.update spec).documentChanged = true) ∨
      (d'.uri = d.uri ∧ (s.update spec).revises = false ∧ d' = d ∧
        (s.update spec).documentChanged = false) := by
  have hchanged := documentChanged_update_iff hd hd'
  by_cases huri : d'.uri = d.uri
  · right
    have hkeep : (s.update spec).state.documentUri? = some d.uri :=
      documentUri?_eq_some_iff.mpr ⟨d', hd', huri⟩
    obtain ⟨d₁, hd₁, -, hstep⟩ := document?_update_of_uri_eq h hd hkeep
    obtain rfl : d' = d₁ := Option.some.inj (hd'.symm.trans hd₁)
    by_cases hrevises : (s.update spec).revises = true
    · rw [if_pos hrevises] at hstep
      have hne : d' ≠ d := by
        rintro rfl
        rw [eq_comm, Int32.add_eq_left] at hstep
        exact absurd hstep (by decide)
      exact .inl ⟨huri, hrevises, hstep, hchanged.mpr hne⟩
    · rw [if_neg hrevises] at hstep
      refine .inr ⟨huri, (Bool.not_eq_true _).mp hrevises, hstep, ?_⟩
      rw [← Bool.not_eq_true, hchanged]
      exact not_not_intro hstep
  · left
    have hother : s.documentUri? ≠ some d'.uri := by
      rw [documentUri?, hd, Option.map_some]
      exact fun hsame => huri (Option.some.inj hsame).symm
    refine ⟨huri, version_of_documentUri?_ne h hd' hother, hchanged.mpr ?_⟩
    rintro rfl
    exact huri rfl

-- ============================================================================
-- The law
-- ============================================================================

/-- The version starts at 0 with each document, also where one was removed before, and from then
on is the number of transactions that changed the text or the language id, as far as 32 bits
go. -/
theorem version_law :
    (∀ (s : State (WithDocument κ)) (spec : TransactionSpec (WithDocument κ))
        (d d' : TextDocument), s.Reachable → s.document? = some d →
        (s.update spec).state.document? = some d' →
          (d'.uri ≠ d.uri ∧ d'.version = 0 ∧ (s.update spec).documentChanged = true) ∨
          (d'.uri = d.uri ∧ (s.update spec).revises = true ∧ d'.version = d.version + 1 ∧
            (s.update spec).documentChanged = true) ∨
          (d'.uri = d.uri ∧ (s.update spec).revises = false ∧ d' = d ∧
            (s.update spec).documentChanged = false)) ∧
      (∀ (uri : String) (s : State (WithDocument κ))
        (specs : List (TransactionSpec (WithDocument κ))), Begins uri s →
        (∀ tr ∈ s.transactions specs, tr.state.documentUri? = some uri) →
          ∃ d, (s.replay specs).document? = some d ∧ d.uri = uri ∧
            d.version = Int32.ofNat (revisions (s.transactions specs))) ∧
      (∀ (s : State (WithDocument κ)) (spec : TransactionSpec (WithDocument κ))
        (d : TextDocument), s.Reachable → s.document? = none →
        (s.update spec).state.document? = some d → d.version = 0) := by
  refine ⟨fun s spec d d' h hd hd' => document_update_cases h hd hd',
    fun uri s specs hbegins hkeep => hbegins.version_replay hkeep, ?_⟩
  intro s spec d h hnone hd
  have hmissing : s.documentUri? ≠ some d.uri := by
    rw [documentUri?, hnone, Option.map_none]
    exact (Option.some_ne_none _).symm
  exact version_of_documentUri?_ne h hd hmissing

/-- A state in which a document begins. -/
def opened : State (WithDocument Empty) :=
  .create { doc := "ab".toList, extensions := [.document "file:///a"] }

/-- Two edits in one transaction, a move of the selection, and another language. -/
def revisedTwice : List (TransactionSpec (WithDocument Empty)) :=
  [{ changes := [.insertion 0 ['x'], .deletion 1 2] },
    { selection := some (Selection.cursor 1) },
    { effects := [.appendConfig [.language ⟨"json"⟩]] }]

/-- The state without its document. -/
def closed : State (WithDocument Empty) :=
  ((opened.replay revisedTwice).update { effects := [.reconfigure []] }).state

/-- A move of the selection leaves the document, a run of three transactions revises it twice, and
it starts over after it was removed. -/
theorem version_of_revisedTwice :
    (opened.update { selection := some (Selection.cursor 1) }).documentChanged = false ∧
      (∃ d, (opened.replay revisedTwice).document? = some d ∧ d.uri = "file:///a" ∧
        d.version = 2) ∧
      ∃ d, (closed.update { effects := [.reconfigure [.document "file:///a"]] }).state.document?
        = some d ∧ d.version = 0 := by
  have hbegins : Begins "file:///a" opened := .create _ (by decide +kernel)
  have hclosed : closed.Reachable := .update _ (hbegins.reachable.replay _)
  obtain ⟨hstep, hrun, hagain⟩ := version_law (κ := Empty)
  refine ⟨?_, ?_, ?_⟩
  · have hd : opened.document? = some ⟨"file:///a", "plaintext", 0, "ab".toList⟩ := by
      decide +kernel
    have hd' : (opened.update { selection := some (Selection.cursor 1) }).state.document?
        = some ⟨"file:///a", "plaintext", 0, "ab".toList⟩ := by
      decide +kernel
    rcases hstep _ _ _ _ hbegins.reachable hd hd' with ⟨huri, -⟩ | ⟨-, -, hversion, -⟩ |
      ⟨-, -, -, hchanged⟩
    · exact absurd rfl huri
    · exact absurd hversion (by decide)
    · exact hchanged
  · have hcount : revisions (opened.transactions revisedTwice) = 2 := by decide_cbv
    have h := hrun _ opened revisedTwice hbegins (by decide_cbv)
    rwa [hcount] at h
  · have hd : (closed.update { effects := [.reconfigure [.document "file:///a"]] }).state.document?
        = some ⟨"file:///a", "plaintext", 0, "xa".toList⟩ := by
      cbv
    exact ⟨_, hd, hagain _ _ _ hclosed (by decide +kernel) hd⟩

end State

end HeadlessEditor
