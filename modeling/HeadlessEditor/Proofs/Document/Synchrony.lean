/-
  HeadlessEditor.Proofs.Document.Synchrony

  The text document beside a state is in step with it (`State.InStep`): it is
  there exactly if the configuration has a document somewhere, and then its
  text is that of the state, its language id comes from the last language and
  its URI from the last document of the configuration.  What a transaction
  makes of the document is `document?_update`; each of its three ways, a new
  document, one of the next version or the old one, keeps step.
-/

import HeadlessEditor.Document.Tracking
import HeadlessEditor.Proofs.State.Configuration

namespace HeadlessEditor

/-- A host without fields of its own. -/
instance : FieldSignature Empty where
  Config kind := nomatch kind
  Value kind := nomatch kind

instance : HostFields Empty where
  create kind := nomatch kind
  update kind := nomatch kind

variable {κ : Type} [FieldSignature κ]

-- ============================================================================
-- What the configuration says of the document
-- ============================================================================

theorem Field.uri?_eq_some_iff {f : Field (WithDocument κ)} {uri : String} :
    f.uri? = some uri ↔ f = ⟨.document, uri⟩ := by
  obtain ⟨kind, config⟩ := f
  cases kind with
  | document => simp [uri?]
  | host kind => simp [uri?]

theorem Extension.isSome_documentUri?_iff (extensions : List (Extension (WithDocument κ))) :
    (documentUri? extensions).isSome = true ↔ ∃ uri, Contains ⟨.document, uri⟩ extensions := by
  rw [documentUri?, List.getLast?_isSome, ← List.length_pos_iff, List.length_pos_iff_exists_mem]
  constructor
  · rintro ⟨uri, huri⟩
    obtain ⟨f, hf, hfuri⟩ := List.mem_filterMap.mp huri
    rw [Field.uri?_eq_some_iff] at hfuri
    exact ⟨uri, contains_iff_mem_fieldsOfAll.mpr (hfuri ▸ hf)⟩
  · rintro ⟨uri, huri⟩
    have hmem := contains_iff_mem_fieldsOfAll.mp huri
    exact ⟨uri, List.mem_filterMap.mpr ⟨_, hmem, Field.uri?_eq_some_iff.mpr rfl⟩⟩

variable [DecidableEq κ]

theorem Extension.documentUri?_eq_config? (extensions : List (Extension (WithDocument κ))) :
    Extension.documentUri? extensions = Extension.config? extensions .document := by
  have huri : (Field.uri? : Field (WithDocument κ) → Option String)
      = Field.config? WithDocument.document := by
    funext f
    obtain ⟨kind, config⟩ := f
    cases kind <;> rfl
  rw [documentUri?, config?, huri]

/-- The language id of a state in terms of its configuration. -/
theorem State.languageId_eq {s : State (WithDocument κ)} (h : s.Coherent) :
    s.languageId = (((Extension.languagesOfAll s.extensions).getLast?.map Language.name).filter
      fun name => !name.isEmpty).getD fallbackLanguageId := by
  rw [languageId, h.language_eq, Extension.activeLanguage]
  cases (Extension.languagesOfAll s.extensions).getLast? with
  | none => rfl
  | some language => by_cases hname : language.name.isEmpty = true <;> simp [hname, Option.filter]

-- ============================================================================
-- What a transaction makes of the document
-- ============================================================================

/-- The document with a URI after a transaction. -/
def FieldUpdate.documentOf (u : FieldUpdate (WithDocument κ)) (uri : String) : TextDocument :=
  match u.startState.document? with
  | some d => d.follow uri u
  | none => .createIn uri u.state

@[simp] theorem FieldUpdate.uri_documentOf (u : FieldUpdate (WithDocument κ)) (uri : String) :
    (u.documentOf uri).uri = uri := by
  rw [documentOf]
  cases u.startState.document? with
  | none => rfl
  | some d => exact d.uri_follow uri u

variable [HostFields κ]

theorem FieldUpdate.valueOf_document (u : FieldUpdate (WithDocument κ)) :
    u.valueOf .document = u.documentOf := by
  funext uri
  rw [valueOf, documentOf, State.document?]
  cases u.startState.value? .document <;> rfl

namespace State

variable {s : State (WithDocument κ)}

theorem document?_create (config : StateConfig (WithDocument κ)) :
    (create config).document?
      = (Extension.documentUri? config.extensions).map fun uri =>
          .createIn uri (create config).withoutValues := by
  rw [Extension.documentUri?_eq_config?]
  exact value?_create config .document

theorem document?_update (h : s.Coherent) (spec : TransactionSpec (WithDocument κ)) :
    (s.update spec).state.document?
      = (Extension.documentUri? (s.update spec).state.extensions).map
          (s.told spec).documentOf := by
  rw [Extension.documentUri?_eq_config?, ← FieldUpdate.valueOf_document]
  exact value?_update h spec .document

-- ============================================================================
-- Staying in step
-- ============================================================================

/-- A document says of a state what there is to say. -/
structure Mirrors (s : State (WithDocument κ)) (d : TextDocument) : Prop where
  text_eq : d.text = s.doc
  languageId_eq : d.languageId = s.languageId
  uri_eq : Extension.documentUri? s.extensions = some d.uri

/-- The document of a state is there if its configuration has one, and mirrors the state. -/
structure InStep (s : State (WithDocument κ)) : Prop where
  isSome_eq : s.document?.isSome = (Extension.documentUri? s.extensions).isSome
  mirrors : ∀ d, s.document? = some d → s.Mirrors d

theorem inStep_create (config : StateConfig (WithDocument κ)) : (create config).InStep where
  isSome_eq := by
    rw [document?_create, Option.isSome_map]
    rfl
  mirrors := by
    intro d hd
    rw [document?_create, Option.map_eq_some_iff] at hd
    obtain ⟨uri, huri, rfl⟩ := hd
    exact ⟨rfl, rfl, huri⟩

theorem doc_update_of_not_docChanged {spec : TransactionSpec (WithDocument κ)}
    (h : (s.told spec).docChanged = false) : (s.update spec).state.doc = s.doc := by
  rw [FieldUpdate.docChanged, told, Bool.not_eq_false', changes_update] at h
  rw [doc_update, ChangeSet.apply_of_isEmpty h]

/-- Whichever way a document takes, it mirrors the new state. -/
theorem InStep.mirrors_documentOf (h : s.InStep) (spec : TransactionSpec (WithDocument κ))
    {uri : String} (huri : Extension.documentUri? (s.update spec).state.extensions = some uri) :
    (s.update spec).state.Mirrors ((s.told spec).documentOf uri) := by
  have hstart : (s.told spec).startState.document? = s.document? := rfl
  have hnew : (s.update spec).state.Mirrors (.createIn uri (s.told spec).state) :=
    ⟨rfl, rfl, huri⟩
  rw [FieldUpdate.documentOf, hstart]
  cases hd : s.document? with
  | none => exact hnew
  | some d =>
    obtain ⟨htext, hlanguage, -⟩ := h.mirrors d hd
    simp only
    by_cases hsame : d.uri = uri
    · by_cases hrevised : (s.told spec).docChanged = true ∨
          d.languageId ≠ (s.told spec).state.languageId
      · rw [TextDocument.follow_of_revised hsame hrevised]
        exact ⟨rfl, rfl, huri⟩
      · -- neither the text nor the language id is another one, so the old document will do
        rw [not_or, Bool.not_eq_true, Decidable.not_not] at hrevised
        obtain ⟨hdoc, hid⟩ := hrevised
        rw [TextDocument.follow_of_kept hsame hdoc hid]
        exact ⟨htext.trans (doc_update_of_not_docChanged hdoc).symm, hid, hsame ▸ huri⟩
    · rw [TextDocument.follow_of_uri_ne hsame]
      exact hnew

theorem InStep.update (hstep : s.InStep) (h : s.Coherent)
    (spec : TransactionSpec (WithDocument κ)) : (s.update spec).state.InStep where
  isSome_eq := by
    rw [document?_update h, Option.isSome_map]
  mirrors := by
    intro d hd
    rw [document?_update h, Option.map_eq_some_iff] at hd
    obtain ⟨uri, huri, rfl⟩ := hd
    exact hstep.mirrors_documentOf spec huri

theorem Reachable.inStep (h : s.Reachable) : s.InStep := by
  induction h with
  | create config => exact inStep_create config
  | update spec hs ih => exact ih.update hs.coherent spec

/-- In every state that can be reached, there is a document exactly if one stands somewhere in
the configuration, and then its text is that of the state, its language id is the name of the
last language, if it has one that is not empty, and its URI is that of the last document. -/
theorem document?_of_reachable (h : s.Reachable) :
    (s.document?.isSome = true ↔ ∃ uri, Extension.Contains ⟨.document, uri⟩ s.extensions) ∧
      ∀ d, s.document? = some d → d.text = s.doc ∧
        d.languageId = (((Extension.languagesOfAll s.extensions).getLast?.map
          Language.name).filter fun name => !name.isEmpty).getD fallbackLanguageId ∧
        ((Extension.fieldsOfAll s.extensions).filterMap Field.uri?).getLast? = some d.uri := by
  constructor
  · rw [h.inStep.isSome_eq, Extension.isSome_documentUri?_iff]
  · intro d hd
    obtain ⟨htext, hlanguage, huri⟩ := h.inStep.mirrors d hd
    exact ⟨htext, hlanguage.trans (languageId_eq h.coherent), huri⟩

/-- A run that regroups the configuration twice: the document that is left is the last one. -/
theorem document?_of_regrouped :
    ∃ s : State (WithDocument Empty), s.Reachable ∧
      (∃ uri, Extension.Contains ⟨.document, uri⟩ s.extensions) ∧
      s.document? = some ⟨"file:///c", "toml", 0, ['a', 'x', 'b']⟩ ∧
      ((Extension.fieldsOfAll s.extensions).filterMap Field.uri?).getLast? = some "file:///c" := by
  let first : TransactionSpec (WithDocument Empty) :=
    { changes := [.insertion 1 ['x']]
      effects := [.appendConfig [.group [.language ⟨"json"⟩]]] }
  let second : TransactionSpec (WithDocument Empty) :=
    { effects :=
        [.reconfigure [.group [.group [.document "file:///b"], .document "file:///c"]],
          .appendConfig [.language ⟨"toml"⟩]] }
  have h : ((create { doc := ['a', 'b'], extensions := [.group [.document "file:///a"]] }).replay
      [first, second]).Reachable := (Reachable.create _).replay _
  have hd : ((create { doc := ['a', 'b'], extensions := [.group [.document "file:///a"]] }).replay
      [first, second]).document? = some ⟨"file:///c", "toml", 0, ['a', 'x', 'b']⟩ := by
    decide +kernel
  obtain ⟨hsome, hall⟩ := document?_of_reachable h
  exact ⟨_, h, hsome.mp (by rw [hd]; rfl), hd, (hall _ hd).2.2⟩

end State

end HeadlessEditor
