/-
  HeadlessEditor.Protocol.Completion

  Completion in the Language Server Protocol: the context of a request, the
  items of an answer and the defaults they share.  Kinds and formats are
  open: numbers without a meaning here are kept.
-/

import HeadlessEditor.Protocol.Edit
import HeadlessEditor.Protocol.Markup

namespace HeadlessEditor.Protocol

open Json

/-- How a completion request came about. -/
structure CompletionContext where
  triggerKind : Int32
  triggerCharacter : Option String := none
deriving DecidableEq, Repr

/-- A completion that was asked for. -/
def CompletionContext.invoked : CompletionContext :=
  ⟨1, none⟩

/-- A completion that typing a character set off. -/
def CompletionContext.typed (character : String) : CompletionContext :=
  ⟨2, some character⟩

/-- The format of a text that is a snippet. -/
def snippetFormat : Int32 :=
  2

/-- A candidate. -/
structure CompletionItem where
  label : String
  kind : Option Int32 := none
  detail : Option String := none
  documentation : Option Documentation := none
  sortText : Option String := none
  filterText : Option String := none
  insertText : Option String := none
  insertTextFormat : Option Int32 := none
  textEdit : Option CompletionEdit := none
  textEditText : Option String := none
  additionalTextEdits : Option (List TextEdit) := none
  commitCharacters : Option (List String) := none
  data : Option Json := none
deriving Repr, Inhabited

/-- What items have unless they say otherwise. -/
structure ItemDefaults where
  commitCharacters : Option (List String) := none
  insertTextFormat : Option Int32 := none
  data : Option Json := none
deriving Repr, Inhabited

/-- Items with what they share. -/
structure CompletionList where
  isIncomplete : Bool := false
  itemDefaults : Option ItemDefaults := none
  items : List CompletionItem
deriving Repr, Inhabited

/-- The answer to a completion request. -/
inductive CompletionResponse where
  | items (items : List CompletionItem)
  | list (list : CompletionList)
deriving Repr, Inhabited

namespace CompletionResponse

/-- The candidates. -/
def candidates : CompletionResponse → List CompletionItem
  | .items candidates => candidates
  | .list l => l.items

/-- What the candidates share. -/
def defaults : CompletionResponse → Option ItemDefaults
  | .items _ => none
  | .list l => l.itemDefaults

end CompletionResponse

-- ============================================================================
-- JSON
-- ============================================================================

instance : Wire CompletionContext where
  encode c :=
    record [member "triggerKind" c.triggerKind, member? "triggerCharacter" c.triggerCharacter]
  decode j := do
    let m ← members? ["triggerKind", "triggerCharacter"] j
    return ⟨← m.required "triggerKind", ← m.optional "triggerCharacter"⟩

/-- The keys of an item. -/
def CompletionItem.keys : List String :=
  ["label", "kind", "detail", "documentation", "sortText", "filterText", "insertText",
   "insertTextFormat", "textEdit", "textEditText", "additionalTextEdits", "commitCharacters",
   "data"]

instance : Wire CompletionItem where
  encode i :=
    record
      [member "label" i.label, member? "kind" i.kind, member? "detail" i.detail,
       member? "documentation" i.documentation, member? "sortText" i.sortText,
       member? "filterText" i.filterText, member? "insertText" i.insertText,
       member? "insertTextFormat" i.insertTextFormat, member? "textEdit" i.textEdit,
       member? "textEditText" i.textEditText,
       member? "additionalTextEdits" i.additionalTextEdits,
       member? "commitCharacters" i.commitCharacters, member? "data" i.data]
  decode j := do
    let m ← members? CompletionItem.keys j
    return {
      label := ← m.required "label"
      kind := ← m.optional "kind"
      detail := ← m.optional "detail"
      documentation := ← m.optional "documentation"
      sortText := ← m.optional "sortText"
      filterText := ← m.optional "filterText"
      insertText := ← m.optional "insertText"
      insertTextFormat := ← m.optional "insertTextFormat"
      textEdit := ← m.optional "textEdit"
      textEditText := ← m.optional "textEditText"
      additionalTextEdits := ← m.optional "additionalTextEdits"
      commitCharacters := ← m.optional "commitCharacters"
      data := ← m.optional "data" }

instance : Wire ItemDefaults where
  encode d :=
    record
      [member? "commitCharacters" d.commitCharacters,
       member? "insertTextFormat" d.insertTextFormat, member? "data" d.data]
  decode j := do
    let m ← members? ["commitCharacters", "insertTextFormat", "data"] j
    return ⟨← m.optional "commitCharacters", ← m.optional "insertTextFormat",
      ← m.optional "data"⟩

instance : Wire CompletionList where
  encode l :=
    record
      [member "isIncomplete" l.isIncomplete, member? "itemDefaults" l.itemDefaults,
       member "items" l.items]
  decode j := do
    let m ← members? ["isIncomplete", "itemDefaults", "items"] j
    return ⟨← m.withDefault "isIncomplete" false, ← m.optional "itemDefaults",
      ← m.required "items"⟩

/-- Bare items are tried first. -/
instance : Wire CompletionResponse where
  encode
    | .items items => encode items
    | .list list => encode list
  decode j :=
    (decode j).map CompletionResponse.items <|> (decode j).map CompletionResponse.list

end HeadlessEditor.Protocol
