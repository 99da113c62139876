/-
  HeadlessEditor.Proofs.State.Configuration

  What a state keeps of its configuration.  A transaction resolves the
  configuration again only if an effect sets it, and otherwise takes the
  language and the fields from the state before.  Both come to the same
  (`State.Coherent`), so the value of any kind of field after a transaction
  is told from the new configuration and the old value alone (`value?_update`).
-/

import HeadlessEditor.State.Transaction

namespace HeadlessEditor

variable {κ : Type} [FieldSignature κ]

-- ============================================================================
-- Leaves of a configuration
-- ============================================================================

namespace Extension

/-- A field stands somewhere in a list of extensions, at any depth. -/
inductive Contains (f : Field κ) : List (Extension κ) → Prop where
  | here {rest : List (Extension κ)} : Contains f (.field f :: rest)
  | inGroup {members rest : List (Extension κ)} (h : Contains f members) :
      Contains f (.group members :: rest)
  | later {e : Extension κ} {rest : List (Extension κ)} (h : Contains f rest) :
      Contains f (e :: rest)

theorem mem_fieldsOfAll_of_contains {f : Field κ} {es : List (Extension κ)}
    (h : Contains f es) : f ∈ fieldsOfAll es := by
  induction h with
  | here => simp [fieldsOfAll, fields]
  | inGroup _ ih =>
    rw [fieldsOfAll, fields]
    exact List.mem_append_left _ ih
  | later _ ih =>
    rw [fieldsOfAll]
    exact List.mem_append_right _ ih

mutual

theorem contains_of_mem_fields {f : Field κ} {rest : List (Extension κ)} :
    ∀ {e : Extension κ}, f ∈ fields e → Contains f (e :: rest)
  | .language _, h => by simp [fields] at h
  | .field g, h => by
    rw [fields, List.mem_singleton] at h
    exact h ▸ .here
  | .group members, h => by
    rw [fields] at h
    exact .inGroup (contains_of_mem_fieldsOfAll h)

theorem contains_of_mem_fieldsOfAll {f : Field κ} :
    ∀ {es : List (Extension κ)}, f ∈ fieldsOfAll es → Contains f es
  | [], h => by simp [fieldsOfAll] at h
  | e :: rest, h => by
    rw [fieldsOfAll, List.mem_append] at h
    rcases h with h | h
    · exact contains_of_mem_fields h
    · exact .later (contains_of_mem_fieldsOfAll h)

end

theorem contains_iff_mem_fieldsOfAll {f : Field κ} {es : List (Extension κ)} :
    Contains f es ↔ f ∈ fieldsOfAll es :=
  ⟨mem_fieldsOfAll_of_contains, contains_of_mem_fieldsOfAll⟩

end Extension

-- ============================================================================
-- Effects
-- ============================================================================

namespace Effect

/-- Whether an effect sets the configuration. -/
def configures : Effect κ → Bool
  | .reconfigure _ => true
  | .appendConfig _ => true
  | .startSnippet _ => false
  | .clearSnippet => false

/-- The configuration after an effect. -/
def configure (extensions : List (Extension κ)) : Effect κ → List (Extension κ)
  | .reconfigure next => next
  | .appendConfig more => extensions ++ more
  | .startSnippet _ => extensions
  | .clearSnippet => extensions

/-- The snippet session after an effect. -/
def conduct (session : Option Snippet.Session) : Effect κ → Option Snippet.Session
  | .reconfigure _ => session
  | .appendConfig _ => session
  | .startSnippet next => some next
  | .clearSnippet => none

theorem configure_of_not_configures (extensions : List (Extension κ)) {e : Effect κ}
    (h : e.configures = false) : configure extensions e = extensions := by
  cases e with
  | reconfigure next => cases h
  | appendConfig more => cases h
  | startSnippet next => rfl
  | clearSnippet => rfl

theorem conduct_of_configures (session : Option Snippet.Session) {e : Effect κ}
    (h : e.configures = true) : conduct session e = session := by
  cases e with
  | reconfigure next => rfl
  | appendConfig more => rfl
  | startSnippet next => cases h
  | clearSnippet => cases h

/-- Effects on the session leave the configuration. -/
theorem foldl_configure_of_forall {effects : List (Effect κ)}
    (h : ∀ e ∈ effects, e.configures = false) (extensions : List (Extension κ)) :
    effects.foldl configure extensions = extensions := by
  induction effects with
  | nil => rfl
  | cons e rest ih =>
    obtain ⟨he, hrest⟩ := List.forall_mem_cons.mp h
    rw [List.foldl_cons, configure_of_not_configures extensions he, ih hrest]

theorem any_configures_eq_false_iff {effects : List (Effect κ)} :
    effects.any configures = false ↔ ∀ e ∈ effects, e.configures = false := by
  simp only [List.any_eq_false, Bool.not_eq_true]

end Effect

/-- The configuration and the session go their own ways. -/
theorem Setup.foldl_apply (setup : Setup κ) (effects : List (Effect κ)) :
    effects.foldl Setup.apply setup =
      ⟨effects.foldl Effect.configure setup.extensions,
        setup.reconfigured || effects.any Effect.configures,
        effects.foldl Effect.conduct setup.session⟩ := by
  induction effects generalizing setup with
  | nil => simp
  | cons e rest ih =>
    rw [List.foldl_cons, ih]
    cases e <;> simp [Setup.apply, Effect.configure, Effect.conduct, Effect.configures]

namespace State

theorem setup_eq (s : State κ) (changes : ChangeSet) (effects : List (Effect κ)) :
    s.setup changes effects =
      ⟨effects.foldl Effect.configure s.extensions, effects.any Effect.configures,
        effects.foldl Effect.conduct (s.mapSession changes)⟩ := by
  rw [setup, Setup.foldl_apply, Bool.false_or]

/-- Effects that do not set the configuration leave it. -/
theorem extensions_setup {s : State κ} {changes : ChangeSet} {effects : List (Effect κ)}
    (h : (s.setup changes effects).reconfigured = false) :
    (s.setup changes effects).extensions = s.extensions := by
  rw [setup_eq] at h ⊢
  exact Effect.foldl_configure_of_forall (Effect.any_configures_eq_false_iff.mp h) s.extensions

end State

-- ============================================================================
-- The installed instance of a kind
-- ============================================================================

variable [DecidableEq κ]

/-- What a field is configured with, if it is of the given kind. -/
def Field.config? (kind : κ) (f : Field κ) : Option (Config kind) :=
  if h : f.kind = kind then some (h ▸ f.config) else none

theorem Field.config?_eq_none {kind : κ} {f : Field κ} (h : f.kind ≠ kind) :
    f.config? kind = none :=
  dif_neg h

theorem Field.config?_self (f : Field κ) : f.config? f.kind = some f.config :=
  dif_pos rfl

namespace Extension

/-- What the last instance of a kind is configured with. -/
def config? (extensions : List (Extension κ)) (kind : κ) : Option (Config kind) :=
  ((fieldsOfAll extensions).filterMap (Field.config? kind)).getLast?

/-- Of each kind, the last instance is kept and no other. -/
theorem filterMap_lastOfEachKind (kind : κ) (fs : List (Field κ)) :
    (lastOfEachKind fs).filterMap (Field.config? kind)
      = (fs.filterMap (Field.config? kind)).getLast?.toList := by
  induction fs with
  | nil => rfl
  | cons f rest ih =>
    rw [lastOfEachKind]
    by_cases hlater : rest.any (·.kind = f.kind) = true
    · rw [if_pos hlater, ih]
      by_cases hkind : f.kind = kind
      · -- a later instance of the kind makes the rest decide
        obtain ⟨g, hg, hgf⟩ := List.any_eq_true.mp hlater
        have hgkind : g.kind = kind := (of_decide_eq_true hgf).trans hkind
        have hne : rest.filterMap (Field.config? kind) ≠ [] := by
          subst hgkind
          exact List.ne_nil_of_mem (List.mem_filterMap.mpr ⟨g, hg, g.config?_self⟩)
        subst hkind
        rw [List.filterMap_cons_some f.config?_self, List.getLast?_cons_of_ne_nil hne]
      · rw [List.filterMap_cons_none (Field.config?_eq_none hkind)]
    · rw [if_neg hlater]
      by_cases hkind : f.kind = kind
      · subst hkind
        have hnil : rest.filterMap (Field.config? f.kind) = [] := by
          rw [List.filterMap_eq_nil_iff]
          intro g hg
          apply Field.config?_eq_none
          intro hgf
          exact hlater (List.any_eq_true.mpr ⟨g, hg, decide_eq_true hgf⟩)
        rw [List.filterMap_cons_some f.config?_self, List.filterMap_cons_some f.config?_self, ih,
          hnil]
        rfl
      · rw [List.filterMap_cons_none (Field.config?_eq_none hkind), ih,
          List.filterMap_cons_none (Field.config?_eq_none hkind)]

theorem findSome?_lastOfEachKind (kind : κ) (fs : List (Field κ)) :
    (lastOfEachKind fs).findSome? (Field.config? kind)
      = (fs.filterMap (Field.config? kind)).getLast? := by
  rw [← List.head?_filterMap, filterMap_lastOfEachKind, Option.head?_toList]

end Extension

-- ============================================================================
-- Values after a transaction
-- ============================================================================

/-- The value of a field after a transaction: updated if its kind had a value before, else
created. -/
def FieldUpdate.valueOf [StateFields κ] (u : FieldUpdate κ) (kind : κ) (config : Config kind) :
    Value kind :=
  match u.startState.value? kind with
  | some value => StateFields.update kind config value u
  | none => StateFields.create kind config u.state

namespace State

variable {s : State κ}

/-- What the fields are told about a transaction. -/
def told [StateFields κ] (s : State κ) (spec : TransactionSpec κ) : FieldUpdate κ :=
  ⟨s, (s.update spec).state.withoutValues, (s.update spec).changes⟩

theorem carry_eq [StateFields κ] (u : FieldUpdate κ) :
    carry u = fun f => ⟨f.kind, f.config, u.valueOf f.kind f.config⟩ := by
  funext f
  rw [carry, FieldUpdate.valueOf]
  cases u.startState.value? f.kind <;> rfl

/-- A value is found through the configuration of its kind. -/
theorem findSome?_map_slot (value : (kind : κ) → Config kind → Value kind) (fs : List (Field κ))
    (kind : κ) :
    (fs.map fun f => (⟨f.kind, f.config, value f.kind f.config⟩ : Slot κ)).findSome?
        (fun slot => if h : slot.kind = kind then some (h ▸ slot.value) else none)
      = (fs.findSome? (Field.config? kind)).map (value kind) := by
  rw [List.findSome?_map, List.map_findSome?]
  congr 1
  funext f
  simp only [Function.comp_apply]
  by_cases hkind : f.kind = kind
  · subst hkind
    rw [dif_pos rfl, f.config?_self, Option.map_some]
  · rw [dif_neg hkind, Field.config?_eq_none hkind, Option.map_none]

theorem value?_create [StateFields κ] (config : StateConfig κ) (kind : κ) :
    (create config).value? kind
      = (Extension.config? config.extensions kind).map fun c =>
          StateFields.create kind c (create config).withoutValues := by
  rw [Extension.config?, ← Extension.findSome?_lastOfEachKind]
  exact findSome?_map_slot (fun k c => StateFields.create k c (create config).withoutValues) _ kind

-- ============================================================================
-- Coherence
-- ============================================================================

/-- The language and the fields of a state are those that its configuration comes to. -/
structure Coherent (s : State κ) : Prop where
  language_eq : s.language = Extension.activeLanguage s.extensions
  fields_eq : s.slots.map Slot.field = Extension.installed s.extensions

theorem coherent_create [StateFields κ] (config : StateConfig κ) : (create config).Coherent where
  language_eq := rfl
  fields_eq := by
    have h : (Slot.field ∘ fun f : Field κ => f.createIn (create config).withoutValues) = id := rfl
    show ((Extension.installed config.extensions).map
      (·.createIn (create config).withoutValues)).map Slot.field = _
    rw [List.map_map, h, List.map_id]
    rfl

variable [StateFields κ]

@[simp] theorem extensions_update (s : State κ) (spec : TransactionSpec κ) :
    (s.update spec).state.extensions
      = (s.setup (s.update spec).changes spec.effects).extensions :=
  rfl

/-- The fields installed after a transaction are those of its configuration. -/
theorem slots_update (h : s.Coherent) (spec : TransactionSpec κ) :
    (s.update spec).state.slots
      = (Extension.installed (s.update spec).state.extensions).map (carry (s.told spec)) := by
  have hfields : (if (s.setup (s.update spec).changes spec.effects).reconfigured = true
      then Extension.installed (s.update spec).state.extensions else s.slots.map Slot.field)
      = Extension.installed (s.update spec).state.extensions := by
    by_cases hflag : (s.setup (s.update spec).changes spec.effects).reconfigured = true
    · rw [if_pos hflag]
    · rw [if_neg hflag, h.fields_eq, extensions_update,
        extensions_setup ((Bool.not_eq_true _).mp hflag)]
  rw [← hfields]
  rfl

theorem language_update (h : s.Coherent) (spec : TransactionSpec κ) :
    (s.update spec).state.language
      = Extension.activeLanguage (s.update spec).state.extensions := by
  have hlanguage : (s.update spec).state.language
      = if (s.setup (s.update spec).changes spec.effects).reconfigured = true
        then Extension.activeLanguage (s.update spec).state.extensions else s.language := rfl
  rw [hlanguage]
  by_cases hflag : (s.setup (s.update spec).changes spec.effects).reconfigured = true
  · rw [if_pos hflag]
  · rw [if_neg hflag, h.language_eq, extensions_update,
      extensions_setup ((Bool.not_eq_true _).mp hflag)]

theorem Coherent.update (h : s.Coherent) (spec : TransactionSpec κ) :
    (s.update spec).state.Coherent where
  language_eq := language_update h spec
  fields_eq := by
    have hfield : Slot.field ∘ carry (s.told spec) = id := by
      rw [carry_eq]
      rfl
    rw [slots_update h, List.map_map, hfield, List.map_id]

theorem Reachable.coherent (h : s.Reachable) : s.Coherent := by
  induction h with
  | create config => exact coherent_create config
  | update spec _ ih => exact ih.update spec

/-- The value of a kind of field after a transaction. -/
theorem value?_update (h : s.Coherent) (spec : TransactionSpec κ) (kind : κ) :
    (s.update spec).state.value? kind
      = (Extension.config? (s.update spec).state.extensions kind).map
          ((s.told spec).valueOf kind) := by
  rw [Extension.config?, ← Extension.findSome?_lastOfEachKind, value?, slots_update h, carry_eq]
  exact findSome?_map_slot (s.told spec).valueOf _ kind

end State

end HeadlessEditor
