/-
  HeadlessEditor.Proofs.Assist.Options

  What the result of a completion is made of.  Its span is the least one with
  the cursor and the edits of all items in it, and so does not depend on their
  order (`foldl_widen_eq`, `foldl_widen_of_perm`).  Its options are those of
  the items one by one.  An option has nothing from the items beside its own,
  and an edit is made where its own range is: only an option without an edit
  sees from the span of the result that there are others.
-/

import HeadlessEditor.Proofs.Assist.Acceptance

namespace HeadlessEditor

open Protocol

variable {κ : Type} [FieldSignature κ]

-- ============================================================================
-- The span
-- ============================================================================

namespace CompletionSource

variable {source : CompletionSource} {d : TextDocument} {pos : Nat} {span : Span}
  {items items' : List CompletionItem} {response response' : CompletionResponse}

/-- The span starts with the first of all starts, and stops with the last of all ends. -/
theorem foldl_widen_eq (d : TextDocument) (items : List CompletionItem) (span : Span) :
    items.foldl (widen d) span
      = ⟨((edits items).map fun e => d.offsetAt e.range.start).foldl min span.start,
          ((edits items).map fun e => d.offsetAt e.range.stop).foldl max span.stop⟩ := by
  induction items generalizing span with
  | nil => rfl
  | cons item rest ih =>
    rw [List.foldl_cons, ih]
    cases hedit : item.textEdit with
    | none => rw [widen_of_none hedit, edits_cons_of_none hedit]
    | some e =>
      rw [widen_of_some hedit, edits_cons_of_some hedit]
      rfl

/-- The items may come in any order. -/
theorem foldl_widen_of_perm (h : items'.Perm items) (d : TextDocument) (span : Span) :
    items'.foldl (widen d) span = items.foldl (widen d) span := by
  refine h.foldl_eq' (fun x _ y _ span => ?_) span
  cases hx : x.textEdit with
  | none => rw [widen_of_none hx, widen_of_none hx]
  | some e =>
    cases hy : y.textEdit with
    | none => rw [widen_of_none hy, widen_of_none hy]
    | some e' =>
      rw [widen_of_some hx, widen_of_some hy, widen_of_some hx, widen_of_some hy]
      simp only [Nat.min_right_comm, Nat.max_right_comm]

theorem min?_eq_start {result : CompletionResult κ}
    (h : source.result? d pos response = some result) :
    (pos :: (edits response.candidates).map fun e => d.offsetAt e.range.start).min?
      = some result.span.start := by
  rw [span_of_result? h, foldl_widen_eq, List.min?_cons']

theorem max?_eq_stop {result : CompletionResult κ}
    (h : source.result? d pos response = some result) :
    (pos :: (edits response.candidates).map fun e => d.offsetAt e.range.stop).max?
      = some result.span.stop := by
  rw [span_of_result? h, foldl_widen_eq, List.max?_cons']

-- ============================================================================
-- Options
-- ============================================================================

theorem getElem?_options {result : CompletionResult κ}
    (h : source.result? d pos response = some result) (index : Nat) :
    result.options[index]?
      = (response.candidates[index]?).map (source.option d response.defaults) := by
  rw [options_of_result? h, List.getElem?_map]

/-- An option is listed as its item and the source say. -/
structure Shows (source : CompletionSource) (item : CompletionItem) (option : Completion κ) :
    Prop where
  label_eq : option.label = item.label
  kind_eq : option.kind = source.kindName item.kind
  commitCharacters_eq : option.commitCharacters = item.commitCharacters
  sectionName_eq : option.sectionName = source.sectionName

/-- An edit is made where its own range is, whatever the span of the result. -/
theorem spec_option_of_isSome {defaults : Option ItemDefaults} {item : CompletionItem}
    (hedit : item.textEdit.isSome = true) (span span' : Span) (s : State κ) :
    (source.option d defaults item).spec span s = (source.option d defaults item).spec span' s := by
  obtain ⟨e, he⟩ := Option.isSome_iff_exists.mp hedit
  by_cases hformat : item.IsSnippet defaults
  · have haccept : acceptance? (κ := κ) d defaults item
        = some (.snippet (editSpan d e) (Snippet.parse (Snippet.normalize e.newText.toList))) := by
      rw [acceptance?, he]
      exact if_pos hformat
    rw [Completion.spec, Completion.spec, option, haccept]
  · rw [spec_option_of_edit he hformat, spec_option_of_edit he hformat]

/-- Candidates in another order are just as much a result, over the same span. -/
theorem exists_result?_of_perm {result : CompletionResult κ}
    (h : source.result? d pos response = some result)
    (hperm : response'.candidates.Perm response.candidates) :
    ∃ result' : CompletionResult κ, source.result? d pos response' = some result' ∧
      result'.span = result.span := by
  obtain ⟨hcandidates, -⟩ := result?_eq_some_iff.mp h
  have hcandidates' : response'.candidates ≠ [] := fun hnil =>
    hcandidates (List.nil_perm.mp (hnil ▸ hperm))
  refine ⟨_, result?_eq_some_iff.mpr ⟨hcandidates', rfl⟩, ?_⟩
  rw [span_of_result? h]
  exact foldl_widen_of_perm hperm d ⟨pos, pos⟩

end CompletionSource

-- ============================================================================
-- Delivered results
-- ============================================================================

/-- What is delivered once is delivered with any other answer too. -/
theorem Exchange.outcome_ask_of_answer [DecidableEq κ] [HostFields κ] {ρ α : Type}
    {provider : ρ → Reply (WithDocument κ) α} {request : ρ} {d : TextDocument}
    {view : State (WithDocument κ)} {unfollowed : Option (State (WithDocument κ))} {a : α}
    (h : (ask provider request d view unfollowed).outcome = .ok (some a)) (b : α) :
    (ask (fun request => { provider request with answer := .ok (some b) }) request d view
      unfollowed).outcome = .ok (some b) := by
  have hanswer := answer_of_outcome_ask h
  have hdeliver : deliver d (unfollowed.getD (view.replay (provider request).dispatched))
      (.ok (some a)) = .ok (some a) := by
    rw [← hanswer]
    exact h
  show deliver d (unfollowed.getD (view.replay (provider request).dispatched)) (.ok (some b)) = _
  simp only [deliver] at hdeliver ⊢
  cases hcurrent : stillCurrent d (unfollowed.getD (view.replay (provider request).dispatched)) with
  | error failure => rw [hcurrent] at hdeliver; cases hdeliver
  | ok current =>
    rw [hcurrent] at hdeliver
    cases current with
    | false => cases hdeliver
    | true => rfl

namespace CompletionSource

variable [DecidableEq κ] [HostFields κ]

/-- A result is delivered to a query, made from a response about a document. -/
structure Delivers (source : CompletionSource)
    (provider : CompletionRequest → Reply (WithDocument κ) CompletionResponse)
    (view : State (WithDocument κ)) (query : CompletionQuery (WithDocument κ)) (d : TextDocument)
    (response : CompletionResponse) (result : CompletionResult (WithDocument κ)) : Prop where
  document_eq : query.state.document? = some d
  answered : ∃ context, source.context? query = some context ∧
    (provider ⟨d, d.positionAt query.pos, context⟩).answer = .ok (some response)
  outcome_eq : (source.complete provider view query).outcome = .ok (some result)

variable {source : CompletionSource}
  {provider : CompletionRequest → Reply (WithDocument κ) CompletionResponse}
  {view : State (WithDocument κ)} {query : CompletionQuery (WithDocument κ)} {d : TextDocument}
  {response response' : CompletionResponse} {result : CompletionResult (WithDocument κ)}

theorem exists_delivers (h : (source.complete provider view query).outcome = .ok (some result)) :
    ∃ d response, source.Delivers provider view query d response result := by
  obtain ⟨d, context, response, hd, hcontext, hanswer, -⟩ := exists_of_complete_eq_some h
  exact ⟨d, response, hd, ⟨context, hcontext, hanswer⟩, h⟩

/-- The provider's answer is looked at when it has been found to be about the current document. -/
theorem complete_eq {context : CompletionContext} (hd : query.state.document? = some d)
    (hcontext : source.context? query = some context) :
    source.complete provider view query
      = (Exchange.ask provider ⟨d, d.positionAt query.pos, context⟩ d view
          (if query.followsView then none else some query.state)).map
        fun response => response.bind (source.result? d query.pos) := by
  simp only [complete, hd, hcontext]

theorem Delivers.result?_eq (h : source.Delivers provider view query d response result) :
    source.result? d query.pos response = some result := by
  obtain ⟨d', context', response', hd', hcontext', hanswer', hresult⟩ :=
    exists_of_complete_eq_some h.outcome_eq
  obtain ⟨context, hcontext, hanswer⟩ := h.answered
  obtain rfl := Option.some.inj (h.document_eq.symm.trans hd')
  obtain rfl := Option.some.inj (hcontext.symm.trans hcontext')
  obtain rfl : response = response' := by
    rw [hanswer] at hanswer'
    cases hanswer'
    rfl
  exact hresult

/-- With the candidates in another order there is a result too, over the same span. -/
theorem Delivers.exists_of_perm (h : source.Delivers provider view query d response result)
    (hperm : response'.candidates.Perm response.candidates) :
    ∃ result', source.Delivers
        (fun request => { provider request with answer := .ok (some response') }) view query d
        response' result' ∧
      result'.span = result.span := by
  obtain ⟨context, hcontext, hanswer⟩ := h.answered
  obtain ⟨result', hresult', hspan⟩ := exists_result?_of_perm h.result?_eq hperm
  refine ⟨result', ⟨h.document_eq, ⟨context, hcontext, rfl⟩, ?_⟩, hspan⟩
  have houtcome := h.outcome_eq
  rw [complete_eq h.document_eq hcontext] at houtcome ⊢
  obtain ⟨found, hfound, hsome⟩ := Exchange.exists_of_outcome_map houtcome
  obtain ⟨answer, rfl, -⟩ := Option.bind_eq_some_iff.mp hsome
  have hasked := Exchange.outcome_ask_of_answer hfound response'
  rw [Exchange.map, hasked]
  exact congrArg Except.ok hresult'

/-- An item has the same option in all results about a document with the same defaults, and if it
has an edit, accepting it does the same in all of them. -/
theorem Delivers.option_eq (h : source.Delivers provider view query d response result)
    {provider' : CompletionRequest → Reply (WithDocument κ) CompletionResponse}
    {view' : State (WithDocument κ)} {query' : CompletionQuery (WithDocument κ)}
    {result' : CompletionResult (WithDocument κ)}
    (h' : source.Delivers provider' view' query' d response' result')
    (hdefaults : response'.defaults = response.defaults) {i j : Nat}
    (hitem : response'.candidates[i]? = response.candidates[j]?) :
    result'.options[i]? = result.options[j]? ∧
      ∀ item, response.candidates[j]? = some item → item.textEdit.isSome = true →
        ∀ now, result'.accept? i now = result.accept? j now := by
  constructor
  · rw [getElem?_options h'.result?_eq, getElem?_options h.result?_eq, hdefaults, hitem]
  · intro item hj hedit now
    rw [CompletionResult.accept?_of_result? h'.result?_eq (hitem.trans hj),
      CompletionResult.accept?_of_result? h.result?_eq hj, hdefaults,
      spec_option_of_isSome hedit result'.span result.span]

/-- What a delivered result is made of.  Its span starts with the first of the cursor and the
starts of all edits, and stops with the last of the cursor and their ends.  It has an option for
each item, in the order of the items, and with the items in another order the options are in that
order and the span is the same.

Another result about the same document, with the same defaults, has the same option for the same
item, whatever the other items and wherever the cursor is; and if the item has an edit, accepting
it does the same. -/
theorem options_of_delivered
    (h : (source.complete provider view query).outcome = .ok (some result)) :
    ∃ d response, source.Delivers provider view query d response result ∧
      (query.pos :: (edits response.candidates).map fun e => d.offsetAt e.range.start).min?
        = some result.span.start ∧
      (query.pos :: (edits response.candidates).map fun e => d.offsetAt e.range.stop).max?
        = some result.span.stop ∧
      result.options.length = response.candidates.length ∧
      (∀ (index : Nat) (item : CompletionItem), response.candidates[index]? = some item →
        ∃ option, result.options[index]? = some option ∧ source.Shows item option) ∧
      (∀ response', response'.candidates.Perm response.candidates →
        response'.defaults = response.defaults →
        ∃ result', source.Delivers
            (fun request => { provider request with answer := .ok (some response') }) view query d
            response' result' ∧
          result'.span = result.span ∧
          ∀ i j : Nat, response'.candidates[i]? = response.candidates[j]? →
            result'.options[i]? = result.options[j]?) ∧
      ∀ provider' view' query' response' result',
        source.Delivers provider' view' query' d response' result' →
        response'.defaults = response.defaults →
        ∀ (i j : Nat) (item : CompletionItem),
          response'.candidates[i]? = some item → response.candidates[j]? = some item →
          result'.options[i]? = result.options[j]? ∧
            (item.textEdit.isSome = true →
              ∀ now, result'.accept? i now = result.accept? j now) := by
  obtain ⟨d, response, hdelivers⟩ := exists_delivers h
  have hresult := hdelivers.result?_eq
  refine ⟨d, response, hdelivers, min?_eq_start hresult, max?_eq_stop hresult, ?_, ?_, ?_, ?_⟩
  · rw [options_of_result? hresult, List.length_map]
  · intro index item hitem
    refine ⟨source.option d response.defaults item, ?_, rfl, rfl, rfl, rfl⟩
    rw [getElem?_options hresult, hitem, Option.map_some]
  · intro response' hperm hdefaults
    obtain ⟨result', hdelivers', hspan⟩ := hdelivers.exists_of_perm hperm
    exact ⟨result', hdelivers', hspan, fun i j hitem =>
      (hdelivers.option_eq hdelivers' hdefaults hitem).1⟩
  · intro provider' view' query' response' result' hdelivers' hdefaults i j item hi hj
    obtain ⟨hoption, haccept⟩ := hdelivers.option_eq hdelivers' hdefaults (hi.trans hj.symm)
    exact ⟨hoption, haccept item hj⟩

/-- Items with one range, with two and with none. -/
def mixedItems : List CompletionItem :=
  [{ label := "behind", textEdit := some (.edit ⟨⟨⟨0, 2⟩, ⟨0, 3⟩⟩, "x"⟩) },
   { label := "before", insertTextFormat := some snippetFormat,
     textEdit := some (.insertReplace ⟨"y", ⟨⟨0, 0⟩, ⟨0, 1⟩⟩, ⟨⟨0, 0⟩, ⟨0, 2⟩⟩⟩) },
   { label := "plain" }]

def completeItems (items : List CompletionItem) (_ : CompletionRequest) :
    Reply (WithDocument Empty) CompletionResponse :=
  { answer := .ok (some (.items items)) }

/-- Completion behind the first character of the text. -/
def behindFirst : CompletionQuery (WithDocument Empty) :=
  { state := Inquiry.visitedView, pos := 1, explicit := true }

/-- The items are reversed, and what was the first option is the last one. -/
theorem options_of_delivered_reversed :
    ∃ result result',
      (complete {} (completeItems mixedItems) Inquiry.visitedView behindFirst).outcome
          = .ok (some result) ∧
        (complete {} (completeItems mixedItems.reverse) Inquiry.visitedView behindFirst).outcome
          = .ok (some result') ∧
        result.span.start = 0 ∧ result.span.stop = 3 ∧ result'.span = result.span ∧
        result'.options[2]? = result.options[0]? ∧
        result'.accept? 2 Inquiry.visitedView = result.accept? 0 Inquiry.visitedView := by
  have hd : Inquiry.visitedView.document? = some ⟨"file:///a", "plaintext", 0, "one".toList⟩ := by
    decide +kernel
  obtain ⟨d, response, hdelivers, hmin, hmax, -, -, hperm, hother⟩ := options_of_delivered
    (rfl : (complete {} (completeItems mixedItems) Inquiry.visitedView behindFirst).outcome = _)
  obtain ⟨context, hcontext, hanswer⟩ := hdelivers.answered
  cases hd.symm.trans hdelivers.document_eq
  cases hanswer
  obtain ⟨result', hdelivers', hspan, -⟩ :=
    hperm (.items mixedItems.reverse) (List.reverse_perm mixedItems) rfl
  obtain ⟨hoption, haccept⟩ := hother _ _ _ _ _ hdelivers' rfl 2 0 _ rfl rfl
  have hstart := Option.some.inj (hmin.symm.trans (by decide +kernel : _ = some 0))
  have hstop := Option.some.inj (hmax.symm.trans (by decide +kernel : _ = some 3))
  exact ⟨_, result', rfl, hdelivers'.outcome_eq, hstart, hstop, hspan, hoption, haccept rfl _⟩

end CompletionSource

end HeadlessEditor
