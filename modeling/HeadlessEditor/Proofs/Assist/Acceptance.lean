/-
  HeadlessEditor.Proofs.Assist.Acceptance

  What accepting an option of a completion does.  The offsets that an option
  replaces were taken when the answer arrived.  As long as the text is the one
  that was asked about, an item with a plain edit does what the same edit does
  as a text edit of its own, and has the cursor behind the new text; an item
  without an edit replaces the span of the whole result, as far as the edits of
  the others have widened it (`CompletionSource.Spans`).
-/

import HeadlessEditor.Document.Edit
import HeadlessEditor.Proofs.Assist.Extent
import HeadlessEditor.Proofs.State.Insertion

namespace HeadlessEditor

open Protocol

-- ============================================================================
-- Items
-- ============================================================================

namespace Protocol.CompletionItem

/-- The text of an item's edit is a snippet: it says so or, when it says nothing about that, the
defaults do. -/
def IsSnippet (defaults : Option ItemDefaults) (item : CompletionItem) : Prop :=
  (item.insertTextFormat <|> defaults.bind (·.insertTextFormat)) = some snippetFormat

instance (defaults : Option ItemDefaults) (item : CompletionItem) :
    Decidable (item.IsSnippet defaults) :=
  inferInstanceAs (Decidable (_ = _))

/-- What an item without an edit inserts. -/
def fallbackText (item : CompletionItem) : Text :=
  ((item.textEditText.filter (!·.isEmpty)).getD item.label).toList

end Protocol.CompletionItem

namespace CompletionSource

variable {κ : Type} [FieldSignature κ] {source : CompletionSource} {d : TextDocument}
  {defaults : Option ItemDefaults} {item : CompletionItem}

/-- The ends of an edit lie in the document, so that clamping only puts them in order. -/
theorem clamp_editSpan (d : TextDocument) (e : CompletionEdit) :
    (editSpan d e).clamp d.text.length = d.text.offsetsOf e.range :=
  d.text.clamp_offsets e.range

theorem spec_option_of_edit {e : CompletionEdit} (he : item.textEdit = some e)
    (hformat : ¬ item.IsSnippet defaults) (span : Span) (s : State κ) :
    (source.option d defaults item).spec span s
      = .insertText s e.newText.toList (editSpan d e) := by
  have haccept : acceptance? (κ := κ) d defaults item
      = some (.edit (editSpan d e) e.newText.toList) := by
    rw [acceptance?, he]
    exact if_neg hformat
  rw [Completion.spec, option, haccept]

theorem spec_option_of_no_edit (he : item.textEdit = none) (span : Span) (s : State κ) :
    (source.option d defaults item).spec span s = .insertText s item.fallbackText span := by
  rw [Completion.spec, option, acceptance?, he, CompletionItem.fallbackText]
  cases htext : item.textEditText with
  | none => rfl
  | some text => cases hempty : text.isEmpty <;> simp [Option.filter, hempty]

/-- A result has an option for each candidate. -/
theorem options_of_result? {pos : Nat} {response : CompletionResponse}
    {result : CompletionResult κ} (h : source.result? d pos response = some result) :
    result.options = response.candidates.map (source.option d response.defaults) := by
  rw [← (result?_eq_some_iff.mp h).2]

/-- A span reaches from the cursor to the first start of an edit and to the last end of one. -/
structure Spans (d : TextDocument) (pos : Nat) (edits : List CompletionEdit) (span : Span) :
    Prop where
  start_le_iff : ∀ n, span.start ≤ n ↔ pos ≤ n ∨ ∃ e ∈ edits, d.offsetAt e.range.start ≤ n
  le_stop_iff : ∀ n, n ≤ span.stop ↔ n ≤ pos ∨ ∃ e ∈ edits, n ≤ d.offsetAt e.range.stop

theorem spans_foldl_widen (d : TextDocument) (pos : Nat) (items : List CompletionItem) :
    Spans d pos (edits items) (items.foldl (widen d) ⟨pos, pos⟩) where
  start_le_iff _ := start_foldl_widen_le_iff
  le_stop_iff _ := le_stop_foldl_widen_iff

end CompletionSource

-- ============================================================================
-- Accepting
-- ============================================================================

variable {κ : Type} [FieldSignature κ]

/-- A text edit that is made alone. -/
theorem State.doc_update_textEdits_singleton [DecidableEq κ] [StateFields κ] (s : State κ)
    (e : TextEdit) :
    (s.update (.textEdits s [e])).state.doc
      = s.doc.take (s.doc.offsetsOf e.range).start ++ e.newText.toList
        ++ s.doc.drop (s.doc.offsetsOf e.range).stop := by
  rw [← Text.clamp_offsets]
  exact doc_update_of_changes rfl

namespace CompletionResult

variable [DecidableEq κ] [StateFields κ] {result : CompletionResult κ} {index : Nat}
  {view : State κ}

/-- The state of a view after an option has been accepted in it, if there is one. -/
def acceptIn (result : CompletionResult κ) (index : Nat) (view : State κ) : State κ :=
  ((result.accept? index view).map Transaction.state).getD view

theorem accept?_eq_none_iff : result.accept? index view = none ↔ result.options.length ≤ index := by
  rw [accept?, Option.map_eq_none_iff, List.getElem?_eq_none_iff]

theorem acceptIn_of_length_le (h : result.options.length ≤ index) :
    result.acceptIn index view = view := by
  rw [acceptIn, accept?_eq_none_iff.mpr h, Option.map_none, Option.getD_none]

/-- Each candidate of an answer has an option at its index. -/
theorem accept?_of_result? {source : CompletionSource} {d : TextDocument} {pos : Nat}
    {response : CompletionResponse} (h : source.result? d pos response = some result)
    {item : CompletionItem} (hitem : response.candidates[index]? = some item) :
    result.accept? index view = some (view.update
      ((source.option d response.defaults item).spec result.span view)) := by
  rw [accept?, CompletionSource.options_of_result? h, List.getElem?_map, hitem, Option.map_some,
    Option.map_some]

end CompletionResult

-- ============================================================================
-- Options of a delivered result
-- ============================================================================

namespace CompletionSource

section

variable [DecidableEq κ] [StateFields κ] {source : CompletionSource} {d : TextDocument} {pos : Nat}
  {response : CompletionResponse} {result : CompletionResult κ} {index : Nat}
  {item : CompletionItem} {now : State κ}

/-- An item with a plain edit has it made, and the cursor put behind it. -/
theorem placed_of_edit (h : source.result? d pos response = some result)
    (htext : d.text = now.doc) (hitem : response.candidates[index]? = some item)
    {e : CompletionEdit} (he : item.textEdit = some e)
    (hformat : ¬ item.IsSnippet response.defaults) {tr : Transaction κ}
    (htr : result.accept? index now = some tr) :
    Text.Placed e.newText.toList now.doc (now.doc.offsetsOf e.range) tr.state ∧
      tr.state.doc = (now.update (.textEdits now [⟨e.range, e.newText⟩])).state.doc := by
  rw [CompletionResult.accept?_of_result? h hitem, spec_option_of_edit he hformat] at htr
  obtain rfl := Option.some.inj htr
  have hplaced := State.placed_insertText now e.newText.toList (editSpan d e)
  rw [← htext, clamp_editSpan, htext] at hplaced
  refine ⟨hplaced, ?_⟩
  rw [hplaced.doc_eq, State.doc_update_textEdits_singleton]

/-- An item without an edit replaces the span of the result. -/
theorem placed_of_no_edit (h : source.result? d pos response = some result)
    (htext : d.text = now.doc) (hpos : pos ≤ now.doc.length)
    (hitem : response.candidates[index]? = some item) (he : item.textEdit = none)
    {tr : Transaction κ} (htr : result.accept? index now = some tr) :
    Text.Placed item.fallbackText now.doc result.span tr.state := by
  rw [CompletionResult.accept?_of_result? h hitem, spec_option_of_no_edit he] at htr
  obtain rfl := Option.some.inj htr
  have hplaced := State.placed_insertText now item.fallbackText result.span
  have hordered : result.span.start ≤ result.span.stop ∧ result.span.stop ≤ now.doc.length := by
    rw [span_of_result? h, ← htext]
    exact foldl_widen_ordered (htext ▸ hpos)
  rwa [Span.clamp_eq_self hordered.1 hordered.2] at hplaced

end

variable [DecidableEq κ] [HostFields κ]

/-- Accepting an option of a delivered result, as long as the text is the one that was asked
about.  An item with a plain edit has it made where its range is, as a text edit would, and an item
without an edit has its text put in the place of the result's span; the cursor is behind it.  Where
there is no option, nothing happens. -/
theorem accept?_of_delivered {source : CompletionSource}
    {provider : CompletionRequest → Reply (WithDocument κ) CompletionResponse}
    {view now : State (WithDocument κ)} {query : CompletionQuery (WithDocument κ)}
    {result : CompletionResult (WithDocument κ)} (hquery : query.state.Reachable)
    (hpos : query.pos ≤ query.state.doc.length)
    (h : (source.complete provider view query).outcome = .ok (some result))
    (hnow : now.doc = query.state.doc) :
    ∃ d context response, query.state.document? = some d ∧ source.context? query = some context ∧
      (provider ⟨d, d.positionAt query.pos, context⟩).answer = .ok (some response) ∧
      Spans d query.pos (edits response.candidates) result.span ∧
      result.options.length = response.candidates.length ∧
      (∀ index, result.options.length ≤ index →
        result.accept? index now = none ∧ result.acceptIn index now = now) ∧
      ∀ index item, response.candidates[index]? = some item →
        ∃ tr, result.accept? index now = some tr ∧
          (∀ e, item.textEdit = some e → ¬ item.IsSnippet response.defaults →
            Text.Placed e.newText.toList now.doc (now.doc.offsetsOf e.range) tr.state ∧
              tr.state.doc = (now.update (.textEdits now [⟨e.range, e.newText⟩])).state.doc) ∧
          (item.textEdit = none → Text.Placed item.fallbackText now.doc result.span tr.state) := by
  obtain ⟨d, context, response, hd, hcontext, hanswer, hresult⟩ := exists_of_complete_eq_some h
  have htext : d.text = now.doc := (hquery.inStep.mirrors d hd).text_eq.trans hnow.symm
  rw [← hnow] at hpos
  refine ⟨d, context, response, hd, hcontext, hanswer, ?_, ?_, ?_, ?_⟩
  · rw [span_of_result? hresult]
    exact spans_foldl_widen d query.pos response.candidates
  · rw [options_of_result? hresult, List.length_map]
  · intro index hindex
    exact ⟨CompletionResult.accept?_eq_none_iff.mpr hindex,
      CompletionResult.acceptIn_of_length_le hindex⟩
  · intro index item hitem
    have htr : result.accept? index now = _ := CompletionResult.accept?_of_result? hresult hitem
    exact ⟨_, htr, fun e he hformat => placed_of_edit hresult htext hitem he hformat htr,
      fun he => placed_of_no_edit hresult htext hpos hitem he htr⟩

/-- Candidates with the defaults of a snippet: one that replaces a reversed range by a plain text,
and one without an edit whose text is empty. -/
def completePlainly (_ : CompletionRequest) : Reply (WithDocument Empty) CompletionResponse :=
  { answer := .ok (some (.list
      { itemDefaults := some { insertTextFormat := some snippetFormat }
        items :=
          [{ label := "found", insertTextFormat := some 1,
             textEdit := some (.edit ⟨backward, "found"⟩) },
           { label := "label", textEditText := some "" }] })) }

/-- The reversed edit widens the span up to its end only, and the label is put there. -/
theorem accept?_of_delivered_plainly :
    ∃ result, (complete {} completePlainly Inquiry.visitedView atStart).outcome
        = .ok (some result) ∧
      (∃ tr, result.accept? 0 Inquiry.visitedView = some tr ∧
        tr.state.doc = "ofound".toList ∧ tr.state.selection = Selection.cursor 6) ∧
      (∃ tr, result.accept? 1 Inquiry.visitedView = some tr ∧
        tr.state.doc = "labelne".toList ∧ tr.state.selection = Selection.cursor 5) ∧
      result.acceptIn 2 Inquiry.visitedView = Inquiry.visitedView := by
  have hd : Inquiry.visitedView.document? = some ⟨"file:///a", "plaintext", 0, "one".toList⟩ := by
    decide +kernel
  refine ⟨_, rfl, ?_⟩
  obtain ⟨d, context, response, hd', -, hanswer, -, -, hpast, hitems⟩ :=
    accept?_of_delivered Inquiry.reachable_visitedView (by decide)
      (rfl : (complete {} completePlainly Inquiry.visitedView atStart).outcome = _) rfl
  cases hd.symm.trans hd'
  cases hanswer
  obtain ⟨edited, hedited, hplaced, -⟩ := hitems 0 _ rfl
  obtain ⟨labelled, hlabelled, -, hfallback⟩ := hitems 1 _ rfl
  obtain ⟨hplaced, -⟩ := hplaced _ rfl (by decide)
  refine ⟨⟨edited, hedited, hplaced.doc_eq.trans ?_, hplaced.selection_eq.trans ?_⟩,
    ⟨labelled, hlabelled, (hfallback rfl).doc_eq.trans ?_, (hfallback rfl).selection_eq.trans ?_⟩,
    (hpast 2 (Nat.le_refl 2)).2⟩
  all_goals decide +kernel

end CompletionSource

end HeadlessEditor
