/-
  HeadlessEditor.Proofs.State.Effects

  What a list of effects comes to.  Some effects set the configuration and the
  others the snippet session, and neither sort is concerned with what the other
  one does (`State.setup_eq`).  The last effect on the session decides, and
  what the configuration becomes can be said in one effect, so that two effects
  are enough (`Effect.condensed`).

  Whether the configuration is set again or not, the language and the fields
  are those that it comes to; so setting it to what it is leaves the state that
  a transaction without it leads to.
-/

import HeadlessEditor.Proofs.Document.Synchrony

namespace HeadlessEditor

variable {κ : Type} [FieldSignature κ]

-- ============================================================================
-- One sort of effect at a time
-- ============================================================================

/-- Folding over a list can pass over what has no influence. -/
theorem foldl_filter_of_neutral {α β : Type} {f : β → α → β} {p : α → Bool}
    (hneutral : ∀ b a, p a = false → f b a = b) (l : List α) (b : β) :
    (l.filter p).foldl f b = l.foldl f b := by
  induction l generalizing b with
  | nil => rfl
  | cons a rest ih =>
    rw [List.foldl_cons]
    cases ha : p a with
    | true => rw [List.filter_cons_of_pos ha, List.foldl_cons, ih]
    | false => rw [List.filter_cons_of_neg (by rw [ha]; exact Bool.false_ne_true), ih,
        hneutral b a ha]

namespace Effect

/-- An effect on the session says what it is after it, whatever it was before. -/
theorem conduct_of_not_configures (session session' : Option Snippet.Session) {e : Effect κ}
    (h : e.configures = false) : conduct session e = conduct session' e := by
  cases e with
  | reconfigure next => cases h
  | appendConfig more => cases h
  | startSnippet next => rfl
  | clearSnippet => rfl

theorem foldl_configure_filter (effects : List (Effect κ)) (extensions : List (Extension κ)) :
    (effects.filter (·.configures)).foldl configure extensions
      = effects.foldl configure extensions :=
  foldl_filter_of_neutral (fun extensions _ => configure_of_not_configures extensions) effects
    extensions

theorem foldl_conduct_filter (effects : List (Effect κ)) (session : Option Snippet.Session) :
    (effects.filter (!·.configures)).foldl conduct session = effects.foldl conduct session := by
  apply foldl_filter_of_neutral
  intro session e he
  exact conduct_of_configures session (Bool.not_eq_eq_eq_not.mp he)

/-- Among effects on the session the last one decides. -/
theorem foldl_conduct_getLast? {effects : List (Effect κ)}
    (h : ∀ e ∈ effects, e.configures = false) (session : Option Snippet.Session) :
    effects.getLast?.toList.foldl conduct session = effects.foldl conduct session := by
  cases hlast : effects.getLast? with
  | none => rw [List.getLast?_eq_none_iff.mp hlast, Option.toList_none]
  | some last =>
    obtain ⟨before, rfl⟩ := List.getLast?_eq_some_iff.mp hlast
    have hothers : last.configures = false := h last (List.mem_of_getLast? hlast)
    rw [Option.toList_some, List.foldl_append]
    exact conduct_of_not_configures _ _ hothers

-- ============================================================================
-- Two effects for a list
-- ============================================================================

/-- One effect for all that set the configuration, and the last one on the session. -/
def condensed (extensions : List (Extension κ)) (effects : List (Effect κ)) : List (Effect κ) :=
  (if effects.any configures then [.reconfigure (effects.foldl configure extensions)] else []) ++
    (effects.filter (!·.configures)).getLast?.toList

theorem not_configures_of_mem_filter {effects : List (Effect κ)} :
    ∀ e ∈ effects.filter (!·.configures), e.configures = false :=
  fun _ he => Bool.not_eq_eq_eq_not.mp (List.mem_filter.mp he).2

theorem not_configures_of_mem_getLast? {effects : List (Effect κ)} :
    ∀ e ∈ (effects.filter (!·.configures)).getLast?.toList, e.configures = false :=
  fun e he => not_configures_of_mem_filter e (List.mem_of_getLast? (Option.mem_toList.mp he))

theorem length_condensed_le (extensions : List (Extension κ)) (effects : List (Effect κ)) :
    (condensed extensions effects).length ≤ 2 := by
  have hlast : (effects.filter (!·.configures)).getLast?.toList.length ≤ 1 := by
    cases (effects.filter (!·.configures)).getLast? <;> simp
  rw [condensed, List.length_append]
  split
  · rw [List.length_singleton]
    omega
  · rw [List.length_nil]
    omega

theorem any_configures_condensed (extensions : List (Extension κ)) (effects : List (Effect κ)) :
    (condensed extensions effects).any configures = effects.any configures := by
  have hlast : (effects.filter (!·.configures)).getLast?.toList.any configures = false :=
    any_configures_eq_false_iff.mpr not_configures_of_mem_getLast?
  rw [condensed, List.any_append, hlast, Bool.or_false]
  cases effects.any configures <;> rfl

theorem foldl_configure_condensed (extensions : List (Extension κ)) (effects : List (Effect κ)) :
    (condensed extensions effects).foldl configure extensions
      = effects.foldl configure extensions := by
  rw [condensed, List.foldl_append, foldl_configure_of_forall not_configures_of_mem_getLast?]
  cases hany : effects.any configures with
  | true => rfl
  | false =>
    have hnone := any_configures_eq_false_iff.mp hany
    exact (foldl_configure_of_forall hnone extensions).symm

theorem foldl_conduct_condensed (extensions : List (Extension κ)) (effects : List (Effect κ))
    (session : Option Snippet.Session) :
    (condensed extensions effects).foldl conduct session = effects.foldl conduct session := by
  have hreconfigure : (if effects.any configures then
      [Effect.reconfigure (effects.foldl configure extensions)] else []).foldl conduct session
        = session := by
    split <;> rfl
  rw [condensed, List.foldl_append, hreconfigure,
    foldl_conduct_getLast? not_configures_of_mem_filter, foldl_conduct_filter]

end Effect

-- ============================================================================
-- What effects leave
-- ============================================================================

namespace State

variable {s : State κ} {changes : ChangeSet} {effects effects' : List (Effect κ)}

/-- Only the order within each sort of effect counts. -/
theorem setup_eq_of_filter_eq
    (hconfigures : effects'.filter (·.configures) = effects.filter (·.configures))
    (hothers : effects'.filter (!·.configures) = effects.filter (!·.configures)) :
    s.setup changes effects' = s.setup changes effects := by
  have hany : effects'.any Effect.configures = effects.any Effect.configures := by
    simpa [List.any_filter] using congrArg (List.any · Effect.configures) hconfigures
  rw [setup_eq, setup_eq, ← Effect.foldl_configure_filter effects', hconfigures,
    Effect.foldl_configure_filter, ← Effect.foldl_conduct_filter effects', hothers,
    Effect.foldl_conduct_filter, hany]

theorem setup_condensed (s : State κ) (changes : ChangeSet) (effects : List (Effect κ)) :
    s.setup changes (Effect.condensed s.extensions effects) = s.setup changes effects := by
  rw [setup_eq, setup_eq, Effect.foldl_configure_condensed, Effect.any_configures_condensed,
    Effect.foldl_conduct_condensed]

/-- Two additions to the configuration are one of both. -/
theorem setup_appendConfig_append (s : State κ) (changes : ChangeSet)
    (before after : List (Effect κ)) (a b : List (Extension κ)) :
    s.setup changes (before ++ .appendConfig a :: .appendConfig b :: after)
      = s.setup changes (before ++ .appendConfig (a ++ b) :: after) := by
  simp only [setup_eq, List.foldl_append, List.foldl_cons, List.any_append, List.any_cons,
    Effect.configure, Effect.conduct, Effect.configures, List.append_assoc, Bool.true_or]

/-- Adding nothing to the configuration only counts as setting it. -/
theorem setup_appendConfig_nil (s : State κ) (changes : ChangeSet)
    (before after : List (Effect κ)) :
    s.setup changes (before ++ .appendConfig [] :: after)
      = { s.setup changes (before ++ after) with reconfigured := true } := by
  simp only [setup_eq, List.foldl_append, List.foldl_cons, List.any_append, List.any_cons,
    Effect.configure, Effect.conduct, Effect.configures, List.append_nil, Bool.true_or,
    Bool.or_true]

-- ============================================================================
-- Transactions
-- ============================================================================

theorem eq_of_withoutValues_eq {s s' : State κ} (h : s.withoutValues = s'.withoutValues)
    (hslots : s.slots = s'.slots) : s = s' := by
  have hs : s = { s.withoutValues with slots := s.slots } := rfl
  rw [hs, h, hslots]
  rfl

variable [DecidableEq κ] [StateFields κ] {spec : TransactionSpec κ}

/-- A transaction depends on its effects through what they leave only. -/
theorem update_eq_of_setup_eq
    (h : s.setup (ChangeSet.of spec.changes s.doc.length) effects'
      = s.setup (ChangeSet.of spec.changes s.doc.length) effects) :
    s.update { spec with effects := effects' } = s.update { spec with effects } := by
  rw [update, update, h]

/-- Whether the configuration is set to what it is or not set does not show in the state. -/
theorem state_update_eq_of_setup_eq (hs : s.Coherent)
    (hextensions : (s.setup (ChangeSet.of spec.changes s.doc.length) effects').extensions
      = (s.setup (ChangeSet.of spec.changes s.doc.length) effects).extensions)
    (hsession : (s.setup (ChangeSet.of spec.changes s.doc.length) effects').session
      = (s.setup (ChangeSet.of spec.changes s.doc.length) effects).session) :
    (s.update { spec with effects := effects' }).state
      = (s.update { spec with effects }).state := by
  have hconfiguration : (s.update { spec with effects := effects' }).state.extensions
      = (s.update { spec with effects }).state.extensions := hextensions
  have hlanguage : (s.update { spec with effects := effects' }).state.language
      = (s.update { spec with effects }).state.language := by
    rw [language_update hs, language_update hs, hconfiguration]
  have hvalues : (s.update { spec with effects := effects' }).state.withoutValues
      = (s.update { spec with effects }).state.withoutValues := by
    rw [withoutValues, withoutValues, State.mk.injEq]
    exact ⟨rfl, rfl, hconfiguration, hlanguage, rfl, hsession⟩
  -- the fields do not see whether the configuration counts as set
  have htold : s.told { spec with effects := effects' } = s.told { spec with effects } := by
    rw [told, told, hvalues]
    rfl
  apply eq_of_withoutValues_eq hvalues
  rw [slots_update hs, slots_update hs, hconfiguration, htold]

/-- Two effects do what any list of them does: one that sets the configuration, if one in the list
does, and the last one on the session, if there is one.  Effects on the configuration and on the
session commute, what is added at once may be added bit by bit, and adding nothing changes nothing
but that the configuration counts as set. -/
theorem update_condensed (h : s.Reachable) (spec : TransactionSpec κ) :
    (Effect.condensed s.extensions spec.effects).length ≤ 2 ∧
      s.update { spec with effects := Effect.condensed s.extensions spec.effects }
        = s.update spec ∧
      (∀ effects, effects.filter (·.configures) = spec.effects.filter (·.configures) →
        effects.filter (!·.configures) = spec.effects.filter (!·.configures) →
          s.update { spec with effects } = s.update spec) ∧
      (∀ before after a b,
        s.update { spec with effects := before ++ .appendConfig a :: .appendConfig b :: after }
          = s.update { spec with effects := before ++ .appendConfig (a ++ b) :: after }) ∧
      ∀ before after, spec.effects = before ++ after →
        s.update { spec with effects := before ++ .appendConfig [] :: after }
          = { s.update spec with reconfigured := true } := by
  refine ⟨Effect.length_condensed_le _ _, ?_, ?_, ?_, ?_⟩
  · exact update_eq_of_setup_eq (setup_condensed s _ spec.effects)
  · intro effects hconfigures hothers
    exact update_eq_of_setup_eq (setup_eq_of_filter_eq hconfigures hothers)
  · intro before after a b
    exact update_eq_of_setup_eq (setup_appendConfig_append s _ before after a b)
  · intro before after heffects
    have hsetup := s.setup_appendConfig_nil (ChangeSet.of spec.changes s.doc.length) before after
    rw [← heffects] at hsetup
    have hstate : (s.update { spec with effects := before ++ .appendConfig [] :: after }).state
        = (s.update spec).state :=
      state_update_eq_of_setup_eq h.coherent (by rw [hsetup]) (by rw [hsetup])
    rw [Transaction.mk.injEq]
    exact ⟨rfl, hstate, rfl, congrArg Setup.reconfigured hsetup⟩

/-- A state with a document. -/
def documented : State (WithDocument Empty) :=
  create { doc := "one".toList, extensions := [.document "file:///a"] }

/-- Effects of all sorts. -/
def mixedEffects : List (Effect (WithDocument Empty)) :=
  [.startSnippet ⟨[⟨1, [⟨0, 1⟩]⟩], 0⟩, .reconfigure [.document "file:///b"], .clearSnippet,
    .appendConfig [.language ⟨"rust"⟩]]

/-- The document is another one and the language is set, in either way of saying it.  Where nothing
is done, adding nothing shows in the flag only. -/
theorem update_condensed_mixedEffects :
    documented.update
        { effects := [.reconfigure [.document "file:///b", .language ⟨"rust"⟩], .clearSnippet] }
      = documented.update { effects := mixedEffects } ∧
    documented.update { effects := [.appendConfig []] }
      = { documented.update {} with reconfigured := true } := by
  have hreachable : documented.Reachable := .create _
  obtain ⟨-, hcondensed, -⟩ := update_condensed hreachable { effects := mixedEffects }
  obtain ⟨-, -, -, -, hnothing⟩ := update_condensed hreachable {}
  exact ⟨hcondensed, hnothing [] [] rfl⟩

end State

end HeadlessEditor
