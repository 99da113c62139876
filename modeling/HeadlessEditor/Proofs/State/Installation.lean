/-
  HeadlessEditor.Proofs.State.Installation

  What is installed in a state, in terms of the leaves of its configuration
  from left to right, however they are grouped.  The language is the last
  one, and of each kind of field there is one value if the kind occurs among
  the leaves, that of its last instance, and else none.

  A transaction without an effect on the configuration takes all of this
  over.  That this comes to the same as resolving again is what
  `State.Coherent` says; here it is read off the leaves.
-/

import HeadlessEditor.Proofs.Document.Synchrony

namespace HeadlessEditor

variable {κ : Type} [FieldSignature κ]

-- ============================================================================
-- Leaves
-- ============================================================================

namespace Extension

/-- What stands in a configuration beside groups. -/
inductive Leaf (κ : Type) [FieldSignature κ] where
  | language (language : Language)
  | field (field : Field κ)

namespace Leaf

def language? : Leaf κ → Option Language
  | .language l => some l
  | .field _ => none

def field? : Leaf κ → Option (Field κ)
  | .language _ => none
  | .field f => some f

theorem field?_eq_some_iff {leaf : Leaf κ} {f : Field κ} :
    leaf.field? = some f ↔ leaf = .field f := by
  cases leaf with
  | language l => exact ⟨nofun, nofun⟩
  | field g => rw [field?, Option.some.injEq, field.injEq]

end Leaf

mutual

/-- The leaves of an extension, from left to right. -/
def leaves : Extension κ → List (Leaf κ)
  | .language l => [.language l]
  | .field f => [.field f]
  | .group members => leavesOfAll members

def leavesOfAll : List (Extension κ) → List (Leaf κ)
  | [] => []
  | e :: rest => leaves e ++ leavesOfAll rest

end

mutual

theorem languages_and_fields_eq : ∀ e : Extension κ,
    languages e = (leaves e).filterMap Leaf.language? ∧
      fields e = (leaves e).filterMap Leaf.field?
  | .language _ => ⟨rfl, rfl⟩
  | .field _ => ⟨rfl, rfl⟩
  | .group members => by
    rw [languages, fields, leaves]
    exact languagesOfAll_and_fieldsOfAll_eq members

/-- The languages and the fields of a configuration are each a part of its leaves. -/
theorem languagesOfAll_and_fieldsOfAll_eq : ∀ es : List (Extension κ),
    languagesOfAll es = (leavesOfAll es).filterMap Leaf.language? ∧
      fieldsOfAll es = (leavesOfAll es).filterMap Leaf.field?
  | [] => ⟨rfl, rfl⟩
  | e :: rest => by
    obtain ⟨hlanguages, hfields⟩ := languages_and_fields_eq e
    obtain ⟨hlanguagesOfAll, hfieldsOfAll⟩ := languagesOfAll_and_fieldsOfAll_eq rest
    rw [languagesOfAll, fieldsOfAll, leavesOfAll, List.filterMap_append, List.filterMap_append,
      hlanguages, hfields, hlanguagesOfAll, hfieldsOfAll]
    exact ⟨rfl, rfl⟩

end

/-- The fields of one kind among the leaves of a configuration, from left to right. -/
def fieldsOfKind [DecidableEq κ] (extensions : List (Extension κ)) (kind : κ) : List (Field κ) :=
  ((leavesOfAll extensions).filterMap Leaf.field?).filter (·.kind = kind)

end Extension

-- ============================================================================
-- Fields of one kind
-- ============================================================================

variable [DecidableEq κ]

theorem Field.map_config? (kind : κ) (f : Field κ) :
    (f.config? kind).map (Field.mk kind) = if f.kind = kind then some f else none := by
  by_cases h : f.kind = kind
  · subst h
    rw [f.config?_self, Option.map_some, if_pos rfl]
  · rw [Field.config?_eq_none h, Option.map_none, if_neg h]

theorem Field.filter_kind_eq (kind : κ) (fs : List (Field κ)) :
    fs.filter (·.kind = kind) = (fs.filterMap (Field.config? kind)).map (Field.mk kind) := by
  rw [List.map_filterMap, ← List.filterMap_eq_filter]
  congr 1
  funext f
  rw [Field.map_config?]
  simp [Option.guard]

namespace Extension

theorem filter_lastOfEachKind (kind : κ) (fs : List (Field κ)) :
    (lastOfEachKind fs).filter (·.kind = kind)
      = (fs.filter (·.kind = kind)).getLast?.toList := by
  rw [Field.filter_kind_eq, Field.filter_kind_eq, filterMap_lastOfEachKind, List.getLast?_map]
  cases (fs.filterMap (Field.config? kind)).getLast? <;> rfl

theorem filter_installed (extensions : List (Extension κ)) (kind : κ) :
    (installed extensions).filter (·.kind = kind)
      = (fieldsOfKind extensions kind).getLast?.toList := by
  rw [installed, filter_lastOfEachKind, (languagesOfAll_and_fieldsOfAll_eq extensions).2,
    fieldsOfKind]

end Extension

namespace State

variable {s : State κ} {kind : κ}

theorem isSome_value?_iff : (s.value? kind).isSome = true ↔ ∃ slot ∈ s.slots, slot.kind = kind := by
  rw [value?, List.findSome?_isSome_iff]
  simp only [Option.isSome_dite]

/-- Which instances of a kind have a value is told from the configuration. -/
theorem Coherent.slots_of_kind (h : s.Coherent) (kind : κ) :
    (s.slots.filter (·.kind = kind)).map Slot.field
      = (Extension.fieldsOfKind s.extensions kind).getLast?.toList := by
  rw [← Extension.filter_installed, ← h.fields_eq, List.filter_map]
  rfl

theorem Coherent.isSome_value?_iff (h : s.Coherent) (kind : κ) :
    (s.value? kind).isSome = true
      ↔ ∃ f, .field f ∈ Extension.leavesOfAll s.extensions ∧ f.kind = kind := by
  calc (s.value? kind).isSome = true
      ↔ (s.slots.filter (·.kind = kind)).map Slot.field ≠ [] := by
        rw [State.isSome_value?_iff, ne_eq, List.map_eq_nil_iff, List.filter_eq_nil_iff]
        simp
    _ ↔ Extension.fieldsOfKind s.extensions kind ≠ [] := by
        rw [h.slots_of_kind, ne_eq, Option.toList_eq_nil_iff, List.getLast?_eq_none_iff]
    _ ↔ ∃ f, .field f ∈ Extension.leavesOfAll s.extensions ∧ f.kind = kind := by
        rw [Extension.fieldsOfKind, ne_eq, List.filter_eq_nil_iff]
        simp [Extension.Leaf.field?_eq_some_iff]

-- ============================================================================
-- Reachable states
-- ============================================================================

variable [StateFields κ]

theorem Reachable.selection_le_length (h : s.Reachable) :
    s.selection.anchor ≤ s.doc.length ∧ s.selection.head ≤ s.doc.length := by
  cases h with
  | create config => exact ⟨Nat.min_le_right _ _, Nat.min_le_right _ _⟩
  | update spec _ => exact ⟨Nat.min_le_right _ _, Nat.min_le_right _ _⟩

/-- In every state that can be reached the selection lies in the document, the language is the last
one among the leaves of the configuration, and of each kind of field there is a value exactly if
the kind occurs among them, one only, and of the last instance. -/
theorem installation_of_reachable (h : s.Reachable) :
    (s.selection.anchor ≤ s.doc.length ∧ s.selection.head ≤ s.doc.length) ∧
      s.language
        = ((Extension.leavesOfAll s.extensions).filterMap Extension.Leaf.language?).getLast? ∧
      ∀ kind : κ,
        ((s.value? kind).isSome = true
          ↔ ∃ f, .field f ∈ Extension.leavesOfAll s.extensions ∧ f.kind = kind) ∧
        (s.slots.filter (·.kind = kind)).map Slot.field
          = (Extension.fieldsOfKind s.extensions kind).getLast?.toList := by
  refine ⟨h.selection_le_length, ?_, fun kind =>
    ⟨h.coherent.isSome_value?_iff kind, h.coherent.slots_of_kind kind⟩⟩
  rw [h.coherent.language_eq, Extension.activeLanguage,
    (Extension.languagesOfAll_and_fieldsOfAll_eq s.extensions).1]

/-- Two effects set the configuration in one transaction, the next ones leave it. -/
def regrouped : State (WithDocument Empty) :=
  (create
      { doc := "abc".toList
        extensions := [.group [.document "file:///a"], .language ⟨"c"⟩] }).replay
    [{ effects :=
        [.reconfigure [.group [.document "file:///b", .group [.language ⟨"json"⟩]]],
          .appendConfig [.group [.group [], .document "file:///c"], .language ⟨"toml"⟩]] },
      { selection := some ⟨9, 1⟩ }, { changes := [.deletion 0 2] }]

theorem installation_of_regrouped :
    regrouped.selection.anchor ≤ regrouped.doc.length ∧
      regrouped.language = some ⟨"toml"⟩ ∧
      (regrouped.value? .document).isSome = true ∧
      (regrouped.slots.filter (·.kind = .document)).map Slot.field
        = [⟨.document, "file:///c"⟩] := by
  have h : regrouped.Reachable := (Reachable.create _).replay _
  obtain ⟨⟨hanchor, -⟩, hlanguage, hkinds⟩ := installation_of_reachable h
  obtain ⟨hvalue, hslots⟩ := hkinds .document
  have hleaves : Extension.leavesOfAll regrouped.extensions
      = [.field ⟨.document, "file:///b"⟩, .language ⟨"json"⟩, .field ⟨.document, "file:///c"⟩,
        .language ⟨"toml"⟩] := rfl
  rw [hleaves] at hlanguage hvalue
  rw [Extension.fieldsOfKind, hleaves] at hslots
  exact ⟨hanchor, hlanguage, hvalue.mpr ⟨_, List.mem_cons_self .., rfl⟩, hslots⟩

end State

end HeadlessEditor
