/-
  HeadlessEditor.Assist.Completion

  Completion: when to ask a provider, what to make of the items it answers
  with, and what accepting one does.

  A completion that was not asked for is sought only behind a trigger
  character.  An item with an edit replaces the edit's own range; one
  without replaces the span of the whole result, which reaches from the
  cursor over the ranges of all edits.
-/

import HeadlessEditor.Assist.Exchange
import HeadlessEditor.Markup.Render
import HeadlessEditor.Protocol.Completion
import HeadlessEditor.Protocol.Settings
import HeadlessEditor.Snippet.Placeholder
import HeadlessEditor.State.Snippet

namespace HeadlessEditor

open Protocol

-- ============================================================================
-- Options and what accepting them does
-- ============================================================================

/-- What accepting an option does to the document. -/
inductive Acceptance (κ : Type) [FieldSignature κ] where
  /-- Replaces the span of the result by a text. -/
  | text (text : Text)
  /-- Replaces a span of its own by a text. -/
  | edit (span : Span) (text : Text)
  /-- Replaces a span of its own by a snippet. -/
  | snippet (span : Span) (snippet : Snippet)
  /-- Makes a transaction of the host's, for the span of the result. -/
  | custom (action : Span → State κ → TransactionSpec κ)

structure Completion (κ : Type) [FieldSignature κ] where
  label : String
  detail : Option String := none
  info : Option HoverContents := none
  kind : Option String := none
  sectionName : Option String := none
  commitCharacters : Option (List String) := none
  acceptance : Option (Acceptance κ) := none

/-- Options with the span that those without an edit of their own replace. -/
structure CompletionResult (κ : Type) [FieldSignature κ] where
  span : Span
  options : List (Completion κ)
  commitCharacters : Option (List String) := none

namespace Completion

variable {κ : Type} [FieldSignature κ]

/-- The transaction that accepts an option of a result over `span`.  The label is inserted if the
option says nothing else. -/
def spec (c : Completion κ) (span : Span) (s : State κ) : TransactionSpec κ :=
  match c.acceptance with
  | none => .insertText s c.label.toList span
  | some (.text text) => .insertText s text span
  | some (.edit own text) => .insertText s text own
  | some (.snippet own snippet) => .insertSnippet s snippet own
  | some (.custom action) => action span s

/-- What an option's documentation looks like. -/
def renderInfo? {m : Type → Type} [Monad m] (renderer : Markup.Renderer m) (c : Completion κ) :
    Option (m Markup.Fragment) :=
  c.info.map fun contents => Markup.renderInto renderer contents ([] : Markup.Fragment)

end Completion

/-- Accepts the option with the given index, if there is one. -/
def CompletionResult.accept? {κ : Type} [FieldSignature κ] [DecidableEq κ] [StateFields κ]
    (r : CompletionResult κ) (index : Nat) (s : State κ) : Option (Transaction κ) :=
  (r.options[index]?).map fun option => s.update (option.spec r.span s)

-- ============================================================================
-- The source
-- ============================================================================

/-- The name of an item's kind.  Files, folders and unknown kinds have none. -/
def defaultKindName (kind : Option Int32) : Option String :=
  match kind.map Int32.toInt with
  | some 1 | some 15 => some "text"
  | some 2 => some "method"
  | some 3 => some "function"
  | some 4 | some 7 => some "class"
  | some 5 | some 10 => some "property"
  | some 6 | some 12 | some 18 | some 23 => some "variable"
  | some 8 | some 22 | some 25 => some "type"
  | some 9 => some "namespace"
  | some 13 | some 20 => some "enum"
  | some 11 | some 14 | some 24 => some "keyword"
  | some 16 | some 21 => some "constant"
  | _ => none

/-- How completion is set up. -/
structure CompletionSource where
  sectionName : Option String := none
  /-- Characters that trigger completion beside the ASCII letters. -/
  triggerCharacters : Option String := none
  kindName : Option Int32 → Option String := defaultKindName

/-- Where completion is sought. -/
structure CompletionQuery (κ : Type) [FieldSignature κ] where
  state : State κ
  pos : Nat
  /-- Whether it was asked for, and not set off by typing. -/
  explicit : Bool
  /-- Whether answers are judged in the view, and not in `state`. -/
  followsView : Bool := true

structure CompletionRequest where
  document : TextDocument
  position : Position
  context : CompletionContext
deriving DecidableEq, Repr

namespace CompletionSource

variable {κ : Type} [FieldSignature κ]

/-- The source with what the settings set. -/
def withSettings (source : CompletionSource) (settings : CompletionSettings) :
    CompletionSource :=
  { source with
    sectionName := settings.sectionName <|> source.sectionName
    triggerCharacters := settings.triggerCharacters <|> source.triggerCharacters }

def isTrigger (source : CompletionSource) (c : Char) : Bool :=
  c.isAlpha || (source.triggerCharacters.getD "").toList.contains c

def charBefore? (t : Text) (pos : Nat) : Option Char :=
  if pos = 0 then none else t[pos - 1]?

/-- The context to ask in, unless there is no cause to ask. -/
def context? (source : CompletionSource) (query : CompletionQuery κ) :
    Option CompletionContext :=
  if query.explicit then some .invoked
  else
    match charBefore? query.state.doc query.pos with
    | some c => if source.isTrigger c then some (.typed (String.singleton c)) else none
    | none => none

/-- The offsets an edit's range starts and stops at, in the order given. -/
def editSpan (document : TextDocument) (edit : CompletionEdit) : Span :=
  ⟨document.offsetAt edit.range.start, document.offsetAt edit.range.stop⟩

/-- What accepting an item does.  Its text is a snippet if the item says so or, when it says
nothing about that, the defaults do. -/
def acceptance? (document : TextDocument) (defaults : Option ItemDefaults)
    (item : CompletionItem) : Option (Acceptance κ) :=
  match item.textEdit with
  | some edit =>
      let format := item.insertTextFormat <|> defaults.bind (·.insertTextFormat)
      if format = some snippetFormat then
        some (.snippet (editSpan document edit)
          (Snippet.parse (Snippet.normalize edit.newText.toList)))
      else some (.edit (editSpan document edit) edit.newText.toList)
  | none =>
      match item.textEditText with
      | some text => if text.isEmpty then none else some (.text text.toList)
      | none => none

def option (source : CompletionSource) (document : TextDocument)
    (defaults : Option ItemDefaults) (item : CompletionItem) : Completion κ :=
  { label := item.label
    detail := item.detail
    info := item.documentation.map Documentation.contents
    kind := source.kindName item.kind
    sectionName := source.sectionName
    commitCharacters := item.commitCharacters
    acceptance := acceptance? document defaults item }

/-- The span widened to reach an item's edit. -/
def widen (document : TextDocument) (span : Span) (item : CompletionItem) : Span :=
  match item.textEdit with
  | some edit =>
      let own := editSpan document edit
      ⟨min span.start own.start, max span.stop own.stop⟩
  | none => span

/-- The answer of a provider as a result, unless it has no candidates. -/
def result? (source : CompletionSource) (document : TextDocument) (pos : Nat)
    (response : CompletionResponse) : Option (CompletionResult κ) :=
  if response.candidates.isEmpty then none
  else
    some
      { span := response.candidates.foldl (widen document) ⟨pos, pos⟩
        options := response.candidates.map (source.option document response.defaults)
        commitCharacters := response.defaults.bind (·.commitCharacters) }

def complete [DecidableEq κ] [HostFields κ] (source : CompletionSource)
    (provider : CompletionRequest → Reply (WithDocument κ) CompletionResponse)
    (view : State (WithDocument κ)) (query : CompletionQuery (WithDocument κ)) :
    Exchange (WithDocument κ) CompletionRequest
      (Option (CompletionResult (WithDocument κ))) :=
  match query.state.document? with
  | none => .unasked view (.error .documentNotInstalled)
  | some document =>
      match source.context? query with
      | none => .unasked view (.ok none)
      | some context =>
          let unfollowed := if query.followsView then none else some query.state
          let request := ⟨document, document.positionAt query.pos, context⟩
          (Exchange.ask provider request document view unfollowed).map
            fun response => response.bind (source.result? document query.pos)

end CompletionSource

end HeadlessEditor
