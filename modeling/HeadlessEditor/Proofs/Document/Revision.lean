/-
  HeadlessEditor.Proofs.Document.Revision

  Versions of the document over runs.  A transaction either goes on with a
  document of the same URI, and then counts if it changes the text or the
  language id (`document?_update_of_uri_eq`), or begins a new one at version 0
  (`version_of_documentUri?_ne`).  While the URI stays the version so counts
  the revisions, as far as 32 bits go (`document?_replay`).

  A run may also leave a URI and come back to it.  Then the version counts
  from where the last document with that URI began (`BeginsAnew`), and tells
  nothing of the documents before.
-/

import HeadlessEditor.Proofs.Document.Synchrony

namespace HeadlessEditor

variable {κ : Type} [FieldSignature κ] [DecidableEq κ]

/-- The URI of the document of a state. -/
def State.documentUri? (s : State (WithDocument κ)) : Option String :=
  s.document?.map TextDocument.uri

theorem State.documentUri?_eq_some_iff {s : State (WithDocument κ)} {uri : String} :
    s.documentUri? = some uri ↔ ∃ d, s.document? = some d ∧ d.uri = uri := by
  rw [documentUri?, Option.map_eq_some_iff]

/-- Whether a transaction changes the text or the language id. -/
def Transaction.revises (tr : Transaction (WithDocument κ)) : Bool :=
  tr.docChanged || tr.startState.languageId != tr.state.languageId

/-- How many transactions change the text or the language id. -/
def revisions (trs : List (Transaction (WithDocument κ))) : Nat :=
  trs.countP Transaction.revises

namespace State

variable [HostFields κ] {s : State (WithDocument κ)} {uri : String} {d : TextDocument}

theorem documentUri?_eq (h : s.Reachable) :
    s.documentUri? = Extension.documentUri? s.extensions := by
  obtain ⟨hsome, hmirrors⟩ := h.inStep
  cases hd : s.document? with
  | none =>
    rw [hd, Option.isSome_none, eq_comm, Option.isSome_eq_false_iff, Option.isNone_iff_eq_none]
      at hsome
    rw [documentUri?, hd, hsome, Option.map_none]
  | some d => rw [documentUri?, hd, (hmirrors d hd).uri_eq, Option.map_some]

-- ============================================================================
-- One transaction
-- ============================================================================

/-- A transaction begins a new document unless the one before has the same URI. -/
theorem version_of_documentUri?_ne (h : s.Reachable) {spec : TransactionSpec (WithDocument κ)}
    (hd : (s.update spec).state.document? = some d) (hne : s.documentUri? ≠ some d.uri) :
    d.version = 0 := by
  rw [document?_update h.coherent, Option.map_eq_some_iff] at hd
  obtain ⟨uri, -, rfl⟩ := hd
  have hstart : (s.told spec).startState.document? = s.document? := rfl
  rw [FieldUpdate.uri_documentOf] at hne
  rw [FieldUpdate.documentOf, hstart]
  cases hd : s.document? with
  | none => rfl
  | some d =>
    have hother : d.uri ≠ uri := fun hsame => hne (documentUri?_eq_some_iff.mpr ⟨d, hd, hsame⟩)
    simp only [TextDocument.follow_of_uri_ne hother]
    rfl

/-- A transaction that keeps the URI counts if it revises the document, and else keeps that. -/
theorem document?_update_of_uri_eq (h : s.Reachable) (hd : s.document? = some d)
    {spec : TransactionSpec (WithDocument κ)}
    (huri : (s.update spec).state.documentUri? = some d.uri) :
    ∃ d', (s.update spec).state.document? = some d' ∧ d'.uri = d.uri ∧
      if (s.update spec).revises = true then d'.version = d.version + 1 else d' = d := by
  obtain ⟨d', hd', hsame⟩ := documentUri?_eq_some_iff.mp huri
  refine ⟨d', hd', hsame, ?_⟩
  have hstart : (s.told spec).startState.document? = s.document? := rfl
  rw [document?_update h.coherent, Option.map_eq_some_iff] at hd'
  obtain ⟨uri, -, rfl⟩ := hd'
  rw [FieldUpdate.uri_documentOf] at hsame
  have hlanguage := (h.inStep.mirrors d hd).languageId_eq
  rw [FieldUpdate.documentOf, hstart, hd]
  have hrevises_iff : (s.update spec).revises = true ↔ (s.told spec).docChanged = true ∨
      d.languageId ≠ (s.told spec).state.languageId := by
    rw [hlanguage, Transaction.revises, Bool.or_eq_true, bne_iff_ne]
    rfl
  by_cases hrevises : (s.update spec).revises = true
  · rw [if_pos hrevises]
    simp only [TextDocument.follow_of_revised hsame.symm (hrevises_iff.mp hrevises)]
  · rw [if_neg hrevises]
    rw [hrevises_iff, not_or, Bool.not_eq_true, Decidable.not_not] at hrevises
    exact TextDocument.follow_of_kept hsame.symm hrevises.1 hrevises.2

-- ============================================================================
-- Runs
-- ============================================================================

/-- Over a run that keeps the URI, the version counts the revisions. -/
theorem document?_replay (h : s.Reachable) (hd : s.document? = some d)
    {specs : List (TransactionSpec (WithDocument κ))}
    (hkeep : ∀ tr ∈ s.transactions specs, tr.state.documentUri? = some d.uri) :
    ∃ d', (s.replay specs).document? = some d' ∧ d'.uri = d.uri ∧
      d'.version = d.version + Int32.ofNat (revisions (s.transactions specs)) ∧
      (revisions (s.transactions specs) = 0 → d' = d) := by
  induction specs generalizing s d with
  | nil => exact ⟨d, hd, rfl, (Int32.add_zero _).symm, fun _ => rfl⟩
  | cons spec rest ih =>
    rw [transactions, List.forall_mem_cons] at hkeep
    obtain ⟨hfirst, hrest⟩ := hkeep
    obtain ⟨d₁, hd₁, huri₁, hstep⟩ := document?_update_of_uri_eq h hd hfirst
    rw [← huri₁] at hrest
    obtain ⟨d', hd', huri, hversion, hsame⟩ := ih (.update spec h) hd₁ hrest
    refine ⟨d', hd', huri.trans huri₁, ?_⟩
    rw [transactions, revisions, List.countP_cons, ← revisions]
    by_cases hrevises : (s.update spec).revises = true
    · rw [if_pos hrevises] at hstep
      rw [if_pos hrevises]
      refine ⟨?_, fun hzero => absurd hzero (Nat.succ_ne_zero _)⟩
      rw [hversion, hstep, Int32.ofNat_add, Int32.add_assoc, Int32.add_comm 1]
      rfl
    · rw [if_neg hrevises] at hstep
      rw [if_neg hrevises]
      exact ⟨hstep ▸ hversion, fun hzero => hstep ▸ hsame hzero⟩

-- ============================================================================
-- Since the document began
-- ============================================================================

/-- A document with the URI begins in the state: with the state itself, or with a transaction
before which there was none or another one. -/
inductive Begins (uri : String) : State (WithDocument κ) → Prop where
  | create (config : StateConfig (WithDocument κ))
      (huri : (create config).documentUri? = some uri) : Begins uri (create config)
  | update {s : State (WithDocument κ)} (h : s.Reachable)
      (spec : TransactionSpec (WithDocument κ)) (hne : s.documentUri? ≠ some uri)
      (huri : (s.update spec).state.documentUri? = some uri) : Begins uri (s.update spec).state

theorem Begins.reachable (h : Begins uri s) : s.Reachable := by
  cases h with
  | create config => exact .create config
  | update h spec => exact .update spec h

theorem Begins.document? (h : Begins uri s) :
    ∃ d, s.document? = some d ∧ d.uri = uri ∧ d.version = 0 := by
  cases h with
  | create config huri =>
    obtain ⟨d, hd, rfl⟩ := documentUri?_eq_some_iff.mp huri
    refine ⟨d, hd, rfl, ?_⟩
    rw [document?_create, Option.map_eq_some_iff] at hd
    obtain ⟨uri, -, rfl⟩ := hd
    rfl
  | update h spec hne huri =>
    obtain ⟨d, hd, rfl⟩ := documentUri?_eq_some_iff.mp huri
    exact ⟨d, hd, rfl, version_of_documentUri?_ne h hd hne⟩

/-- While its URI stays, a document has the version that counts its revisions. -/
theorem Begins.version_replay (h : Begins uri s) {specs : List (TransactionSpec (WithDocument κ))}
    (hkeep : ∀ tr ∈ s.transactions specs, tr.state.documentUri? = some uri) :
    ∃ d, (s.replay specs).document? = some d ∧ d.uri = uri ∧
      d.version = Int32.ofNat (revisions (s.transactions specs)) := by
  obtain ⟨d₀, hd₀, rfl, hzero⟩ := h.document?
  obtain ⟨d, hd, huri, hversion, -⟩ := document?_replay h.reachable hd₀ hkeep
  rw [hzero, Int32.zero_add] at hversion
  exact ⟨d, hd, huri, hversion⟩

-- ============================================================================
-- Runs in which a document begins
-- ============================================================================

/-- Somewhere in a run a document with the URI begins.  It is there from then on, and is revised
as often as its version says. -/
def BeginsAnew (s : State (WithDocument κ)) (specs : List (TransactionSpec (WithDocument κ)))
    (uri : String) (version : Int32) : Prop :=
  ∃ before spec rest, specs = before ++ spec :: rest ∧
    (s.replay before).documentUri? ≠ some uri ∧
    (∀ tr ∈ (s.replay before).transactions (spec :: rest),
      tr.state.documentUri? = some uri) ∧
    Int32.ofNat (revisions (((s.replay before).update spec).state.transactions rest)) = version

/-- A document that began in a run has the version that counts from there. -/
theorem BeginsAnew.document? (h : s.Reachable)
    {specs : List (TransactionSpec (WithDocument κ))} {version : Int32}
    (hnew : s.BeginsAnew specs uri version) :
    ∃ d, (s.replay specs).document? = some d ∧ d.uri = uri ∧ d.version = version := by
  obtain ⟨before, spec, rest, rfl, hne, hkeep, hversion⟩ := hnew
  rw [transactions, List.forall_mem_cons] at hkeep
  obtain ⟨hfirst, hrest⟩ := hkeep
  rw [replay_append, replay_cons, ← hversion]
  exact (Begins.update (h.replay before) spec hne hfirst).version_replay hrest

/-- A run that ends with a URI has kept it, or its document began somewhere in the run. -/
theorem keeps_or_beginsAnew {specs : List (TransactionSpec (WithDocument κ))}
    (hend : (s.replay specs).documentUri? = some uri) :
    (∀ tr ∈ s.transactions specs, tr.state.documentUri? = some uri) ∨
      ∃ version, s.BeginsAnew specs uri version := by
  rcases holds_or_begins (P := fun s => s.documentUri? = some uri) hend with
    ⟨-, hkeep⟩ | ⟨before, spec, rest, hspecs, hne, hkeep⟩
  · exact .inl hkeep
  · exact .inr ⟨_, before, spec, rest, hspecs, hne, hkeep, rfl⟩

end State

end HeadlessEditor
