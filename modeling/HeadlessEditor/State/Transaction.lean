/-
  HeadlessEditor.State.Transaction

  Transactions.  A state is never changed; a transaction leads to a new one.
  It changes the document, moves the selection, and then has its effects, in
  order: they set the configuration and the snippet session.

  Unless a transaction sets the selection, the old one follows the changes,
  and so does the snippet session.  Each field that stays installed is told
  of the transaction once; a field that was not installed before starts anew.
-/

import HeadlessEditor.State.Basic

namespace HeadlessEditor

/-- What a transaction does beside changing the document. -/
inductive Effect (κ : Type) [FieldSignature κ] where
  | reconfigure (extensions : List (Extension κ))
  | appendConfig (extensions : List (Extension κ))
  | startSnippet (session : Snippet.Session)
  | clearSnippet

/-- What a transaction is asked to do.  The changes address the document before it, the selection
the one after it. -/
structure TransactionSpec (κ : Type) [FieldSignature κ] where
  changes : List Change := []
  selection : Option Selection := none
  effects : List (Effect κ) := []

/-- A transaction that has been made. -/
structure Transaction (κ : Type) [FieldSignature κ] where
  startState : State κ
  state : State κ
  changes : ChangeSet
  reconfigured : Bool

variable {κ : Type} [FieldSignature κ]

def Transaction.docChanged (tr : Transaction κ) : Bool :=
  !tr.changes.isEmpty

-- ============================================================================
-- Effects
-- ============================================================================

/-- What effects act on: the configuration, whether one of them set it, and the session. -/
structure Setup (κ : Type) [FieldSignature κ] where
  extensions : List (Extension κ)
  reconfigured : Bool
  session : Option Snippet.Session

def Setup.apply (s : Setup κ) : Effect κ → Setup κ
  | .reconfigure extensions => { s with extensions, reconfigured := true }
  | .appendConfig more => { s with extensions := s.extensions ++ more, reconfigured := true }
  | .startSnippet session => { s with session := some session }
  | .clearSnippet => { s with session := none }

namespace State

/-- The snippet session after changes; without changes it stays as it is. -/
def mapSession (s : State κ) (changes : ChangeSet) : Option Snippet.Session :=
  if changes.isEmpty then s.session else s.session.map (·.map changes)

/-- What the effects of a transaction leave. -/
def setup (s : State κ) (changes : ChangeSet) (effects : List (Effect κ)) : Setup κ :=
  effects.foldl Setup.apply ⟨s.extensions, false, s.mapSession changes⟩

-- ============================================================================
-- Updating
-- ============================================================================

variable [DecidableEq κ]

/-- A field after a transaction: updated if its kind had a value before, else created. -/
def carry [StateFields κ] (update : FieldUpdate κ) (f : Field κ) : Slot κ :=
  match update.startState.value? f.kind with
  | some value => ⟨f.kind, f.config, StateFields.update f.kind f.config value update⟩
  | none => f.createIn update.state

/-- Makes a transaction.  The configuration is resolved again only if an effect set it. -/
def update [StateFields κ] (s : State κ) (spec : TransactionSpec κ) : Transaction κ :=
  let changes := ChangeSet.of spec.changes s.doc.length
  let doc := changes.apply s.doc
  let setup := s.setup changes spec.effects
  let language :=
    if setup.reconfigured then Extension.activeLanguage setup.extensions else s.language
  let fields :=
    if setup.reconfigured then Extension.installed setup.extensions
    else s.slots.map Slot.field
  let bare : State κ :=
    { doc
      selection := (spec.selection.getD (s.selection.map changes)).clamp doc.length
      extensions := setup.extensions
      language
      slots := []
      session := setup.session }
  { startState := s
    state := { bare with slots := fields.map (carry ⟨s, bare, changes⟩) }
    changes
    reconfigured := setup.reconfigured }

/-- The state after transactions made one after the other. -/
def replay [StateFields κ] (s : State κ) (specs : List (TransactionSpec κ)) : State κ :=
  specs.foldl (fun current spec => (current.update spec).state) s

/-- The transactions that `replay` makes. -/
def transactions [StateFields κ] (s : State κ) :
    List (TransactionSpec κ) → List (Transaction κ)
  | [] => []
  | spec :: rest => s.update spec :: transactions (s.update spec).state rest

/-- The states a created state can lead to. -/
inductive Reachable [StateFields κ] : State κ → Prop where
  | create (config : StateConfig κ) : Reachable (create config)
  | update {s : State κ} (spec : TransactionSpec κ) (h : Reachable s) :
      Reachable (s.update spec).state

/-! ## What a transaction leads to -/

@[simp] theorem startState_update [StateFields κ] (s : State κ) (spec : TransactionSpec κ) :
    (s.update spec).startState = s :=
  rfl

@[simp] theorem changes_update [StateFields κ] (s : State κ) (spec : TransactionSpec κ) :
    (s.update spec).changes = ChangeSet.of spec.changes s.doc.length :=
  rfl

@[simp] theorem doc_update [StateFields κ] (s : State κ) (spec : TransactionSpec κ) :
    (s.update spec).state.doc = (ChangeSet.of spec.changes s.doc.length).apply s.doc :=
  rfl

theorem doc_update_of_changes_eq_nil [StateFields κ] {s : State κ} {spec : TransactionSpec κ}
    (h : spec.changes = []) : (s.update spec).state.doc = s.doc := by
  rw [doc_update, h, ChangeSet.of_nil]
  rfl

/-! ## Runs -/

@[simp] theorem replay_nil [StateFields κ] (s : State κ) : s.replay [] = s :=
  rfl

@[simp] theorem replay_cons [StateFields κ] (s : State κ) (spec : TransactionSpec κ)
    (rest : List (TransactionSpec κ)) :
    s.replay (spec :: rest) = (s.update spec).state.replay rest :=
  rfl

theorem replay_append [StateFields κ] (s : State κ) (a b : List (TransactionSpec κ)) :
    s.replay (a ++ b) = (s.replay a).replay b := by
  simp [replay]

/-- What holds at the end of a run has held all along, or began to with some transaction and has
held since. -/
theorem holds_or_begins [StateFields κ] {P : State κ → Prop} {s : State κ}
    {specs : List (TransactionSpec κ)} (hend : P (s.replay specs)) :
    (P s ∧ ∀ tr ∈ s.transactions specs, P tr.state) ∨
      ∃ before spec rest, specs = before ++ spec :: rest ∧ ¬P (s.replay before) ∧
        ∀ tr ∈ (s.replay before).transactions (spec :: rest), P tr.state := by
  induction specs generalizing s with
  | nil => exact .inl ⟨hend, fun tr htr => absurd htr List.not_mem_nil⟩
  | cons spec rest ih =>
    rw [replay_cons] at hend
    rcases ih hend with ⟨hfirst, hrest⟩ | ⟨before, next, after, rfl, hnot, hafter⟩
    · have hall : ∀ tr ∈ s.transactions (spec :: rest), P tr.state :=
        List.forall_mem_cons.mpr ⟨hfirst, hrest⟩
      by_cases hs : P s
      · exact .inl ⟨hs, hall⟩
      · exact .inr ⟨[], spec, rest, rfl, hs, hall⟩
    · exact .inr ⟨spec :: before, next, after, rfl, hnot, hafter⟩

theorem Reachable.replay [StateFields κ] {s : State κ} (h : Reachable s)
    (specs : List (TransactionSpec κ)) : Reachable (s.replay specs) := by
  induction specs generalizing s with
  | nil => exact h
  | cons spec rest ih => exact ih (.update spec h)

end State

end HeadlessEditor
