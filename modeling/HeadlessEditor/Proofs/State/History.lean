/-
  HeadlessEditor.Proofs.State.History

  The value of a field as a fold over the history of a state.  A run falls
  into what came before the field was last installed and what came since
  (`State.InstalledSince`).  The value begins with the state in between, and
  each transaction since then updates it once, with the instance that is
  installed after the transaction (`State.folded?`).

  Only the configuration that a transaction ends with counts.  Effects that
  take a field out and put it back in leave it installed, and a transaction
  that leaves it out ends its value.
-/

import HeadlessEditor.Proofs.State.Configuration
import Mathlib

namespace HeadlessEditor

variable {κ : Type} [FieldSignature κ] [DecidableEq κ]

-- ============================================================================
-- The fold
-- ============================================================================

/-- Whether a kind of field is installed. -/
def State.installs (s : State κ) (kind : κ) : Bool :=
  (Extension.config? s.extensions kind).isSome

/-- What the instance of a kind that is installed after a transaction makes of a value. -/
def Transaction.updated? [StateFields κ] (kind : κ) (value : Value kind) (tr : Transaction κ) :
    Option (Value kind) :=
  (Extension.config? tr.state.extensions kind).map fun config =>
    StateFields.update kind config value ⟨tr.startState, tr.state.withoutValues, tr.changes⟩

/-- The value that the instance of a kind that is installed in a state begins with. -/
def State.created? [StateFields κ] (s : State κ) (kind : κ) : Option (Value kind) :=
  (Extension.config? s.extensions kind).map fun config =>
    StateFields.create kind config s.withoutValues

/-- The value of a kind that is created in a state and updated by each of the transactions that
follow, in their order. -/
def State.folded? [StateFields κ] (s : State κ) (kind : κ) (trs : List (Transaction κ)) :
    Option (Value kind) := do
  trs.foldlM (Transaction.updated? kind) (← s.created? kind)

namespace State

variable [StateFields κ] {s : State κ} {kind : κ}

/-- The transactions `before` end with a kind installed, which it was not before the last one, and
those `after` leave it installed. -/
structure InstalledSince (s : State κ) (kind : κ) (before after : List (TransactionSpec κ)) :
    Prop where
  absent : ∀ earlier spec, before = earlier ++ [spec] → (s.replay earlier).installs kind = false
  installed : (s.replay before).installs kind = true
  stays : ∀ tr ∈ (s.replay before).transactions after, tr.state.installs kind = true

/-- A run that ends with a kind installed has installed it somewhere for the last time. -/
theorem exists_installedSince {specs : List (TransactionSpec κ)}
    (hend : (s.replay specs).installs kind = true) :
    ∃ before after, specs = before ++ after ∧ s.InstalledSince kind before after := by
  rcases holds_or_begins (P := fun s => s.installs kind = true) hend with
    ⟨hstart, hstays⟩ | ⟨before, spec, rest, rfl, habsent, hstays⟩
  · refine ⟨[], specs, rfl, ?_, hstart, hstays⟩
    intro earlier spec h
    exact absurd h.symm (List.append_ne_nil_of_right_ne_nil _ (List.cons_ne_nil _ _))
  · rw [transactions, List.forall_mem_cons] at hstays
    obtain ⟨hinstalled, hstays⟩ := hstays
    refine ⟨before ++ [spec], rest, ?_, ?_, ?_, ?_⟩
    · rw [List.append_assoc, List.singleton_append]
    · intro earlier last h
      obtain ⟨rfl, -⟩ := List.append_inj' h rfl
      exact (Bool.not_eq_true _).mp habsent
    · rwa [replay_append]
    · rwa [replay_append]

-- ============================================================================
-- One transaction
-- ============================================================================

theorem Reachable.isSome_value? (h : s.Reachable) (kind : κ) :
    (s.value? kind).isSome = s.installs kind := by
  cases h with
  | create config => rw [value?_create, Option.isSome_map]; rfl
  | update spec hs => rw [value?_update hs.coherent, Option.isSome_map, installs]

theorem Reachable.value?_eq_none (h : s.Reachable) (habsent : s.installs kind = false) :
    s.value? kind = none := by
  rwa [← Option.isNone_iff_eq_none, ← Option.isSome_eq_false_iff, h.isSome_value?]

/-- A kind that had a value goes on with it. -/
theorem value?_update_of_some (h : s.Reachable) {value : Value kind}
    (hvalue : s.value? kind = some value) (spec : TransactionSpec κ) :
    (s.update spec).state.value? kind = (s.update spec).updated? kind value := by
  have hstart : (s.told spec).startState.value? kind = some value := hvalue
  rw [value?_update h.coherent, Transaction.updated?]
  congr 1
  funext config
  rw [FieldUpdate.valueOf, hstart]
  rfl

/-- A kind without one starts anew. -/
theorem value?_update_of_none (h : s.Reachable) (hvalue : s.value? kind = none)
    (spec : TransactionSpec κ) :
    (s.update spec).state.value? kind = (s.update spec).state.created? kind := by
  have hstart : (s.told spec).startState.value? kind = none := hvalue
  rw [value?_update h.coherent, created?]
  congr 1
  funext config
  rw [FieldUpdate.valueOf, hstart]
  rfl

-- ============================================================================
-- Runs
-- ============================================================================

/-- While a kind stays installed, each transaction updates its value. -/
theorem value?_replay_of_some (h : s.Reachable) {value : Value kind}
    (hvalue : s.value? kind = some value) {specs : List (TransactionSpec κ)}
    (hstays : ∀ tr ∈ s.transactions specs, tr.state.installs kind = true) :
    (s.replay specs).value? kind = (s.transactions specs).foldlM (Transaction.updated? kind) value := by
  induction specs generalizing s value with
  | nil => exact hvalue
  | cons spec rest ih =>
    rw [transactions, List.forall_mem_cons] at hstays
    obtain ⟨hfirst, hrest⟩ := hstays
    have hafter : (s.update spec).state.Reachable := .update spec h
    rw [← hafter.isSome_value?, Option.isSome_iff_exists] at hfirst
    obtain ⟨next, hnext⟩ := hfirst
    rw [replay_cons, ih hafter hnext hrest, transactions, List.foldlM_cons,
      ← value?_update_of_some h hvalue, hnext]
    rfl

/-- In the state in which a kind was last installed its value is created. -/
theorem InstalledSince.value?_replay {config : StateConfig κ}
    {before after : List (TransactionSpec κ)}
    (h : (create config).InstalledSince kind before after) :
    ((create config).replay before).value? kind
      = ((create config).replay before).created? kind := by
  rcases List.eq_nil_or_concat before with rfl | ⟨earlier, spec, rfl⟩
  · exact value?_create config kind
  · rw [List.concat_eq_append] at h ⊢
    have hearlier : ((create config).replay earlier).Reachable := (Reachable.create config).replay _
    have hnone := hearlier.value?_eq_none (h.absent earlier spec rfl)
    rw [replay_append]
    exact value?_update_of_none hearlier hnone spec

/-- After a run, a kind has a value exactly if it is installed.  Then the run falls into what came
before it was last installed and what came since, and the value is the one created in the state in
between and updated once by each transaction since then. -/
theorem value?_eq_folded (config : StateConfig κ) (specs : List (TransactionSpec κ)) (kind : κ) :
    (((create config).replay specs).value? kind).isSome
        = ((create config).replay specs).installs kind ∧
      (((create config).replay specs).installs kind = true →
        ∃ before after, specs = before ++ after ∧
          (create config).InstalledSince kind before after) ∧
      ∀ before after, specs = before ++ after →
        (create config).InstalledSince kind before after →
          ((create config).replay specs).value? kind
            = ((create config).replay before).folded? kind
                (((create config).replay before).transactions after) := by
  have hreachable : (create config).Reachable := .create config
  refine ⟨(hreachable.replay specs).isSome_value? kind, exists_installedSince, ?_⟩
  rintro before after rfl hsince
  have hbefore := hreachable.replay before
  have hvalue := hsince.value?_replay
  have hinstalled := hsince.installed
  rw [← hbefore.isSome_value?, Option.isSome_iff_exists] at hinstalled
  obtain ⟨value, hsome⟩ := hinstalled
  rw [replay_append, value?_replay_of_some hbefore hsome hsince.stays, folded?, ← hvalue, hsome]
  rfl

-- ============================================================================
-- A field that keeps a journal
-- ============================================================================

/-- A host with one kind of field. -/
inductive Journal where
  | journal
deriving DecidableEq, Repr

/-- What is noted: where the field began, and each transaction with the instance that it was
told. -/
inductive Journal.Entry where
  | created (label : String) (doc : Text)
  | updated (label : String) (before after : Text) (changes : Nat)
deriving DecidableEq, Repr

instance : FieldSignature Journal where
  Config _ := String
  Value _ := List Journal.Entry

def Journal.note (label : String) (entries : List Journal.Entry) (u : FieldUpdate Journal) :
    List Journal.Entry :=
  entries ++ [.updated label u.startState.doc u.state.doc u.changes.changes.length]

instance : StateFields Journal where
  create _ label s := [.created label s.doc]
  update _ := Journal.note

def journaled : StateConfig Journal :=
  { doc := "a".toList, extensions := [.field ⟨.journal, "first"⟩] }

/-- The field is edited, taken out, and put back in later. -/
def reinstalled : List (TransactionSpec Journal) :=
  [{ changes := [.insertion 1 ['b']] }, { effects := [.reconfigure []] },
    { changes := [.deletion 0 1], effects := [.appendConfig [.field ⟨.journal, "second"⟩]] }]

/-- It is taken out and put back in by one transaction, and another one moves the selection. -/
def regroupedAtOnce : List (TransactionSpec Journal) :=
  [{ changes := [.insertion 0 ['x'], .insertion 1 ['y']]
     effects := [.reconfigure [], .appendConfig [.group [.field ⟨.journal, "third"⟩]]] },
    { selection := some (Selection.cursor 0) }]

theorem value?_of_reinstalled :
    (create journaled).InstalledSince .journal reinstalled regroupedAtOnce ∧
      ((create journaled).replay (reinstalled ++ regroupedAtOnce)).value? .journal
        = some [.created "second" "b".toList, .updated "third" "b".toList "xby".toList 2,
            .updated "third" "xby".toList "xby".toList 0] := by
  have hsince : (create journaled).InstalledSince .journal reinstalled regroupedAtOnce := by
    refine ⟨?_, by decide +kernel, by decide +kernel⟩
    intro earlier spec h
    have hearlier : reinstalled.take 2 ++ reinstalled.drop 2 = earlier ++ [spec] := h
    obtain ⟨rfl, -⟩ := List.append_inj' hearlier rfl
    decide +kernel
  obtain ⟨-, -, hfold⟩ := value?_eq_folded journaled (reinstalled ++ regroupedAtOnce) .journal
  refine ⟨hsince, ?_⟩
  rw [hfold _ _ rfl hsince]
  cbv

end State

end HeadlessEditor
