/-
  HeadlessEditor.Proofs.Protocol.RoundTrip

  The rest of the data model written as JSON and read back: positions and
  edits, completion items and lists, diagnostics, documents and settings.

  A record comes back because its keys are distinct and an absent member is
  left out.  Of a value in one of several forms the forms tried before its
  own refuse what it is written as.  Only null as data is lost, since an
  optional member that is null counts as absent: a value comes back exactly
  if no null is attached to it (`CompletionList.attachments` and the like),
  and otherwise without that.
-/

import HeadlessEditor.Protocol.Completion
import HeadlessEditor.Protocol.Diagnostic
import HeadlessEditor.Protocol.Document
import HeadlessEditor.Protocol.Settings
import HeadlessEditor.Proofs.Protocol.Hover

namespace HeadlessEditor.Protocol

open Json

-- ============================================================================
-- Edits
-- ============================================================================

instance : LawfulWire TextEdit :=
  ⟨fun e => read_pair (by decide) e.range e.newText TextEdit.mk⟩

instance : LawfulWire InsertReplaceEdit where
  decode_encode e := by
    refine (bind_members?_record _ _ _).trans ?_
    simp

/-- An edit of two ranges has no member of the name that one of a single range has. -/
theorem decode_textEdit_insertReplaceEdit (e : InsertReplaceEdit) :
    (decode (encode e) : Option TextEdit) = none :=
  rfl

instance : LawfulWire CompletionEdit where
  decode_encode
    | .edit e => orElse_eq_firstForm (j := encode e) CompletionEdit.edit (decode_encode e) _
    | .insertReplace e =>
      orElse_eq_secondForm CompletionEdit.edit CompletionEdit.insertReplace
        (decode_textEdit_insertReplaceEdit e) (decode_encode e)

instance : NeverNull CompletionEdit where
  encode_ne_null
    | .edit _ => nofun
    | .insertReplace _ => nofun

-- ============================================================================
-- Values in one of two forms
-- ============================================================================

instance : LawfulWire Documentation where
  decode_encode
    | .markdown value => orElse_eq_firstForm Documentation.markdown (decode_encode value) _
    | .markup content =>
      orElse_eq_secondForm Documentation.markdown Documentation.markup rfl (decode_encode content)

instance : NeverNull Documentation where
  encode_ne_null
    | .markdown _ => nofun
    | .markup _ => nofun

instance : LawfulWire NumberOrString where
  decode_encode
    | .number value => orElse_eq_firstForm NumberOrString.number (decode_encode value) _
    | .string value =>
      orElse_eq_secondForm NumberOrString.number NumberOrString.string rfl (decode_encode value)

instance : NeverNull NumberOrString where
  encode_ne_null
    | .number _ => nofun
    | .string _ => nofun

-- ============================================================================
-- Records without data
-- ============================================================================

instance : LawfulWire CompletionContext where
  decode_encode c := by
    refine (bind_members?_record _ _ _).trans ?_
    simp

instance : LawfulWire TextDocumentItem where
  decode_encode d := by
    refine (bind_members?_record _ _ _).trans ?_
    simp

instance : LawfulWire CodeDescription where
  decode_encode d := by
    refine (bind_members?_record _ _ _).trans ?_
    simp

instance : NeverNull CodeDescription :=
  ⟨nofun⟩

instance : LawfulWire DocumentSettings where
  decode_encode s := by
    refine (bind_members?_record _ _ _).trans ?_
    simp

instance : LawfulWire CompletionSettings where
  decode_encode s := by
    refine (bind_members?_record _ _ _).trans ?_
    simp

instance : LawfulWire LintSettings where
  decode_encode s := by
    refine (bind_members?_record _ _ _).trans ?_
    simp

instance : LawfulWire LanguageServiceSettings where
  decode_encode s := by
    refine (bind_members?_record _ _ _).trans ?_
    simp

-- ============================================================================
-- Records with data
-- ============================================================================

namespace CompletionItem

/-- The data a provider attached to the item. -/
def attachments (i : CompletionItem) : List Json :=
  i.data.toList

/-- The item as it comes back. -/
def withoutNull (i : CompletionItem) : CompletionItem :=
  { i with data := i.data.bind present? }

theorem losesNull : LosesNull attachments withoutNull where
  decode_encode i := by
    refine (bind_members?_record _ _ _).trans ?_
    simp [optional_json_eq, lookup_member?_json, withoutNull]
  eq_self_iff i := by
    cases i
    simp [withoutNull, attachments, bind_present?_eq_self_iff]

end CompletionItem

namespace ItemDefaults

def attachments (d : ItemDefaults) : List Json :=
  d.data.toList

def withoutNull (d : ItemDefaults) : ItemDefaults :=
  { d with data := d.data.bind present? }

theorem losesNull : LosesNull attachments withoutNull where
  decode_encode d := by
    refine (bind_members?_record _ _ _).trans ?_
    simp [optional_json_eq, lookup_member?_json, withoutNull]
  eq_self_iff d := by
    cases d
    simp [withoutNull, attachments, bind_present?_eq_self_iff]

end ItemDefaults

instance : NeverNull ItemDefaults :=
  ⟨nofun⟩

namespace Diagnostic

def attachments (d : Diagnostic) : List Json :=
  d.data.toList

def withoutNull (d : Diagnostic) : Diagnostic :=
  { d with data := d.data.bind present? }

theorem losesNull : LosesNull attachments withoutNull where
  decode_encode d := by
    refine (bind_members?_record _ _ _).trans ?_
    simp [optional_json_eq, lookup_member?_json, withoutNull]
  eq_self_iff d := by
    cases d
    simp [withoutNull, attachments, bind_present?_eq_self_iff]

end Diagnostic

-- ============================================================================
-- Completion lists
-- ============================================================================

namespace CompletionList

def attachments (l : CompletionList) : List Json :=
  l.itemDefaults.toList.flatMap ItemDefaults.attachments
    ++ l.items.flatMap CompletionItem.attachments

def withoutNull (l : CompletionList) : CompletionList :=
  { l with
    itemDefaults := l.itemDefaults.map ItemDefaults.withoutNull
    items := l.items.map CompletionItem.withoutNull }

theorem losesNull : LosesNull attachments withoutNull where
  decode_encode l := by
    have hdefaults : (member? "itemDefaults" l.itemDefaults ++ member "items" l.items).optional
        "itemDefaults" = some (l.itemDefaults.map ItemDefaults.withoutNull) :=
      optional_member?_settled ItemDefaults.losesNull.decode_encode (by simp)
    have hitems : (member "items" l.items).required "items"
        = some (l.items.map CompletionItem.withoutNull) :=
      CompletionItem.losesNull.list.decode_encode l.items
    refine (bind_members?_record _ _ _).trans ?_
    simp [hdefaults, hitems, withoutNull]
  eq_self_iff l := by
    obtain ⟨isIncomplete, itemDefaults, items⟩ := l
    rw [withoutNull, attachments, mk.injEq, List.mem_append, not_or,
      CompletionItem.losesNull.list.eq_self_iff]
    cases itemDefaults with
    | none => simp
    | some d => simp [ItemDefaults.losesNull.eq_self_iff]

end CompletionList

namespace CompletionResponse

def attachments : CompletionResponse → List Json
  | .items bare => bare.flatMap CompletionItem.attachments
  | .list l => l.attachments

def withoutNull : CompletionResponse → CompletionResponse
  | .items bare => .items (bare.map CompletionItem.withoutNull)
  | .list l => .list l.withoutNull

/-- A response comes back in the form it has: bare items are an array and a list is none. -/
theorem losesNull : LosesNull attachments withoutNull where
  decode_encode
    | .items bare =>
      orElse_eq_firstForm CompletionResponse.items
        (CompletionItem.losesNull.list.decode_encode bare) _
    | .list l =>
      orElse_eq_secondForm CompletionResponse.items CompletionResponse.list rfl
        (CompletionList.losesNull.decode_encode l)
  eq_self_iff
    | .items bare => by
      rw [withoutNull, attachments, items.injEq, CompletionItem.losesNull.list.eq_self_iff]
    | .list l => by
      rw [withoutNull, attachments, list.injEq, CompletionList.losesNull.eq_self_iff]

end CompletionResponse

-- ============================================================================
-- The data model
-- ============================================================================

/-- All values of the data model other than hovers are read back from their JSON forms, those that
data can be attached to exactly if none of it is null. -/
theorem decode_encode_iff_null_not_mem_attachments :
    (∀ p : Position, decode (encode p) = some p) ∧
      (∀ r : Range, decode (encode r) = some r) ∧
      (∀ e : TextEdit, decode (encode e) = some e) ∧
      (∀ e : InsertReplaceEdit, decode (encode e) = some e) ∧
      (∀ e : CompletionEdit, decode (encode e) = some e) ∧
      (∀ c : CompletionContext, decode (encode c) = some c) ∧
      (∀ c : MarkupContent, decode (encode c) = some c) ∧
      (∀ s : MarkedString, decode (encode s) = some s) ∧
      (∀ d : Documentation, decode (encode d) = some d) ∧
      (∀ c : NumberOrString, decode (encode c) = some c) ∧
      (∀ d : TextDocumentItem, decode (encode d) = some d) ∧
      (∀ s : LanguageServiceSettings, decode (encode s) = some s) ∧
      (∀ i : CompletionItem, decode (encode i) = some i ↔ Json.null ∉ i.attachments) ∧
      (∀ d : ItemDefaults, decode (encode d) = some d ↔ Json.null ∉ d.attachments) ∧
      (∀ l : CompletionList, decode (encode l) = some l ↔ Json.null ∉ l.attachments) ∧
      (∀ r : CompletionResponse, decode (encode r) = some r ↔ Json.null ∉ r.attachments) ∧
      ∀ d : Diagnostic, decode (encode d) = some d ↔ Json.null ∉ d.attachments :=
  ⟨decode_encode, decode_encode, decode_encode, decode_encode, decode_encode, decode_encode,
    decode_encode, decode_encode, decode_encode, decode_encode, decode_encode, decode_encode,
    CompletionItem.losesNull.decode_encode_iff, ItemDefaults.losesNull.decode_encode_iff,
    CompletionList.losesNull.decode_encode_iff, CompletionResponse.losesNull.decode_encode_iff,
    Diagnostic.losesNull.decode_encode_iff⟩

end HeadlessEditor.Protocol
