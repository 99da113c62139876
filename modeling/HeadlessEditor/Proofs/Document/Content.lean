/-
  HeadlessEditor.Proofs.Document.Content

  Which transactions a document reports as a change.  It goes by what the
  transaction carries, not by what comes of it: changes that write the text
  that is there already make a new version of the same content
  (`State.documentChanged_update_eq`).  All other transactions are reported
  exactly if the URI, the language id or the text is another one afterwards,
  or the document comes or goes.
-/

import HeadlessEditor.Proofs.Document.Version

namespace HeadlessEditor

variable {κ : Type} [FieldSignature κ] [DecidableEq κ]

-- ============================================================================
-- What a document says
-- ============================================================================

/-- Whether two documents differ in what they say, whatever their versions. -/
def TextDocument.differs (d d' : TextDocument) : Bool :=
  d.uri != d'.uri || d.languageId != d'.languageId || d.text != d'.text

theorem TextDocument.differs_eq_false_iff {d d' : TextDocument} :
    d.differs d' = false ↔ d.uri = d'.uri ∧ d.languageId = d'.languageId ∧ d.text = d'.text := by
  rw [differs, Bool.or_eq_false_iff, Bool.or_eq_false_iff, bne_eq_false_iff_eq,
    bne_eq_false_iff_eq, bne_eq_false_iff_eq, and_assoc]

/-- Whether a document is there on one side of a transaction only, or says something else on the
other side. -/
def Transaction.contentChanged (tr : Transaction (WithDocument κ)) : Bool :=
  match tr.startState.document?, tr.state.document? with
  | none, none => false
  | some d, some d' => d.differs d'
  | _, _ => true

namespace State

variable [HostFields κ] {s : State (WithDocument κ)} {spec : TransactionSpec (WithDocument κ)}
  {d d' : TextDocument}

theorem contentChanged_update (hd : s.document? = some d)
    (hd' : (s.update spec).state.document? = some d') :
    (s.update spec).contentChanged = d.differs d' := by
  rw [Transaction.contentChanged, startState_update, hd, hd']

-- ============================================================================
-- The same content again
-- ============================================================================

/-- A transaction that leaves what a document says revises it exactly if it carries changes. -/
theorem revises_update_of_same (h : s.Reachable) (hd : s.document? = some d)
    (hd' : (s.update spec).state.document? = some d') (hsame : d.differs d' = false) :
    (s.update spec).revises = (s.update spec).docChanged := by
  obtain ⟨-, hlanguage, -⟩ := TextDocument.differs_eq_false_iff.mp hsame
  have hstart := (h.inStep.mirrors d hd).languageId_eq
  have hend := ((h.update spec).inStep.mirrors d' hd').languageId_eq
  rw [Transaction.revises, startState_update, ← hstart, ← hend, hlanguage, bne_self_eq_false,
    Bool.or_false]

/-- It is then the next version that says the same. -/
theorem document?_update_of_same (h : s.Reachable) (hd : s.document? = some d)
    (hd' : (s.update spec).state.document? = some d') (hsame : d.differs d' = false) :
    d' = { d with version := if (s.update spec).docChanged then d.version + 1 else d.version } := by
  have hrevises := revises_update_of_same h hd hd' hsame
  obtain ⟨huri, hlanguage, htext⟩ := TextDocument.differs_eq_false_iff.mp hsame
  rcases document_update_cases h hd hd' with ⟨hother, -⟩ | ⟨-, hrevised, hversion, -⟩ |
    ⟨-, hkept, rfl, -⟩
  · exact absurd huri.symm hother
  · rw [hrevised] at hrevises
    rw [← hrevises, if_pos rfl, ← hversion]
    cases d'
    cases huri
    cases hlanguage
    cases htext
    rfl
  · rw [hkept] at hrevises
    rw [← hrevises]
    rfl

-- ============================================================================
-- What is reported
-- ============================================================================

theorem documentChanged_update_of_some (h : s.Reachable) (hd : s.document? = some d)
    (hd' : (s.update spec).state.document? = some d') :
    (s.update spec).documentChanged = (d.differs d' || (s.update spec).docChanged) := by
  cases hdiffers : d.differs d' with
  | true =>
    rw [Bool.true_or, documentChanged_update_iff hd hd']
    rintro rfl
    rw [TextDocument.differs_eq_false_iff.mpr ⟨rfl, rfl, rfl⟩] at hdiffers
    cases hdiffers
  | false =>
    have hrevises := revises_update_of_same h hd hd' hdiffers
    obtain ⟨huri, -⟩ := TextDocument.differs_eq_false_iff.mp hdiffers
    rw [Bool.false_or, ← hrevises]
    rcases document_update_cases h hd hd' with ⟨hother, -⟩ | ⟨-, hrevised, -, hchanged⟩ |
      ⟨-, hkept, -, hchanged⟩
    · exact absurd huri.symm hother
    · rw [hrevised, hchanged]
    · rw [hkept, hchanged]

/-- A transaction is reported if the document comes or goes or says something else, and besides
that if it carries changes while there is a document.  Where the document says the same as before,
it is the very same one without changes, and the next version with them. -/
theorem documentChanged_update_eq (h : s.Reachable)
    (spec : TransactionSpec (WithDocument κ)) :
    (s.update spec).documentChanged
        = ((s.update spec).contentChanged || s.document?.isSome && (s.update spec).docChanged) ∧
      ∀ d d', s.document? = some d → (s.update spec).state.document? = some d' →
        d.differs d' = false → d' =
          { d with version := if (s.update spec).docChanged then d.version + 1 else d.version } := by
  refine ⟨?_, fun d d' hd hd' hsame => document?_update_of_same h hd hd' hsame⟩
  cases hd : s.document? with
  | none =>
    rw [Transaction.documentChanged, Transaction.contentChanged, startState_update, hd]
    cases (s.update spec).state.document? <;> rfl
  | some d =>
    cases hd' : (s.update spec).state.document? with
    | none =>
      rw [Transaction.documentChanged, Transaction.contentChanged, startState_update, hd, hd']
      rfl
    | some d' =>
      rw [documentChanged_update_of_some h hd hd', contentChanged_update hd hd', Option.isSome_some,
        Bool.true_and]

/-- Two overlapping changes that come to the text they replace. -/
def rewritten : TransactionSpec (WithDocument Empty) :=
  { changes := [.deletion 0 2, ⟨0, 1, "ab".toList⟩] }

theorem reachable_opened : opened.Reachable :=
  .create _

theorem document?_rewritten :
    opened.document? = some ⟨"file:///a", "plaintext", 0, "ab".toList⟩ ∧
      (opened.update rewritten).state.document?
        = some ⟨"file:///a", "plaintext", 1, "ab".toList⟩ := by
  constructor
  · cbv
  · cbv

/-- They are reported, and raise the version. -/
theorem documentChanged_rewritten :
    (opened.update rewritten).documentChanged = true ∧
      ∃ d', (opened.update rewritten).state.document? = some d' ∧ d'.version = 1 := by
  obtain ⟨hchanged, hversion⟩ := documentChanged_update_eq reachable_opened rewritten
  obtain ⟨hd, hd'⟩ := document?_rewritten
  have hcarried : (opened.update rewritten).docChanged = true := by decide_cbv
  rw [hcarried, hd, Option.isSome_some, Bool.and_self, Bool.or_true] at hchanged
  have hsame := hversion _ _ hd hd' (by decide +kernel)
  rw [hcarried, if_pos rfl] at hsame
  refine ⟨hchanged, _, hd', ?_⟩
  rw [hsame]
  rfl

/-- So what is reported is not what says something else. -/
theorem not_documentChanged_eq_contentChanged :
    ¬ ∀ (s : State (WithDocument Empty)) (spec : TransactionSpec (WithDocument Empty)),
      s.Reachable →
        ((s.update spec).documentChanged = true ↔ (s.update spec).contentChanged = true) := by
  intro hclaim
  have hreported : (opened.update rewritten).documentChanged = true := by decide_cbv
  have hsame : (opened.update rewritten).contentChanged = false := by decide_cbv
  rw [hclaim opened rewritten reachable_opened, hsame] at hreported
  cases hreported

end State

end HeadlessEditor
