/-
  HeadlessEditor.Proofs.Assist.Extent

  Where answers lie in the document.  All offsets an adapter hands out are
  offsets of the text, whatever positions the provider names, but each end of
  a range is converted by itself: a remark or a tooltip has its ends in order
  exactly if its range has (`Span.follows_offsets`).

  The span of a completion has its ends in order always, since it reaches from
  the cursor both ways.  It reaches to the starts of all edits before it and
  to the ends of all edits behind it (`start_foldl_widen_le_iff`,
  `le_stop_foldl_widen_iff`), and so covers an edit whose ends are reversed
  only as far as the cursor or another edit sees to that (`Enclosed`).
-/

import HeadlessEditor.Proofs.Assist.Staleness
import HeadlessEditor.Proofs.Position.Conversion

namespace HeadlessEditor

-- ============================================================================
-- Spans
-- ============================================================================

/-- A span of a text, in order exactly if the ends of a range are. -/
structure Span.Follows (s : Span) (t : Text) (r : Range) : Prop where
  start_le_length : s.start ≤ t.length
  stop_le_length : s.stop ≤ t.length
  start_le_stop_iff : s.start ≤ s.stop ↔ t.InOrder r

theorem Span.follows_offsets (t : Text) (r : Range) :
    Follows ⟨t.offsetAt r.start, t.offsetAt r.stop⟩ t r where
  start_le_length := Text.offsetAt_le_length t r.start
  stop_le_length := Text.offsetAt_le_length t r.stop
  start_le_stop_iff := (Text.inOrder_iff t r).symm

/-- One span reaches over another one. -/
structure Span.Covers (outer inner : Span) : Prop where
  start_le : outer.start ≤ inner.start
  le_stop : inner.stop ≤ outer.stop

instance (outer inner : Span) : Decidable (outer.Covers inner) :=
  decidable_of_iff (outer.start ≤ inner.start ∧ inner.stop ≤ outer.stop)
    ⟨fun h => ⟨h.1, h.2⟩, fun h => ⟨h.start_le, h.le_stop⟩⟩

theorem Span.covers_offsetsOf_iff {outer : Span} {t : Text} {r : Range} :
    outer.Covers (t.offsetsOf r) ↔
      (outer.start ≤ t.offsetAt r.start ∧ outer.start ≤ t.offsetAt r.stop) ∧
        t.offsetAt r.start ≤ outer.stop ∧ t.offsetAt r.stop ≤ outer.stop := by
  rw [← Nat.le_min, ← Nat.max_le]
  exact ⟨fun h => ⟨h.start_le, h.le_stop⟩, fun h => ⟨h.1, h.2⟩⟩

-- ============================================================================
-- Answers and outcomes
-- ============================================================================

variable {κ : Type} [FieldSignature κ]

namespace Exchange

theorem exists_of_outcome_map {ρ α β : Type} {e : Exchange κ ρ α} {f : α → β} {b : β}
    (h : (e.map f).outcome = .ok b) : ∃ a, e.outcome = .ok a ∧ f a = b := by
  rw [map] at h
  cases houtcome : e.outcome with
  | error failure => rw [houtcome] at h; cases h
  | ok a => rw [houtcome] at h; exact ⟨a, rfl, Except.ok.inj h⟩

variable [DecidableEq κ] [HostFields κ]

/-- What is delivered is what the provider answered. -/
theorem answer_of_outcome_ask {ρ α : Type} {provider : ρ → Reply (WithDocument κ) α} {request : ρ}
    {d : TextDocument} {view : State (WithDocument κ)}
    {unfollowed : Option (State (WithDocument κ))} {a : α}
    (h : (ask provider request d view unfollowed).outcome = .ok (some a)) :
    (provider request).answer = .ok (some a) := by
  rw [ask] at h
  cases hanswer : (provider request).answer with
  | error message => rw [hanswer] at h; cases h
  | ok found =>
    cases found with
    | none => rw [hanswer] at h; cases h
    | some b =>
      rw [hanswer] at h
      simp only [deliver] at h
      cases hcurrent :
          stillCurrent d (unfollowed.getD (view.replay (provider request).dispatched)) with
      | error failure => rw [hcurrent] at h; cases h
      | ok current =>
        rw [hcurrent] at h
        cases current with
        | false => cases h
        | true => cases h; rfl

end Exchange

variable [DecidableEq κ] [HostFields κ] {view : State (WithDocument κ)}

/-- Every remark is one of the provider's. -/
theorem LintSource.exists_of_mem_lint {source : LintSource}
    {provider : TextDocument → Reply (WithDocument κ) (List Protocol.Diagnostic)}
    {remarks : List Diagnostic} (h : (source.lint provider view).outcome = .ok remarks)
    {remark : Diagnostic} (hremark : remark ∈ remarks) :
    ∃ d found p, view.document? = some d ∧ (provider d).answer = .ok (some found) ∧ p ∈ found ∧
      remark = source.diagnostic d p := by
  rw [lint] at h
  cases hd : view.document? with
  | none => rw [hd] at h; cases h
  | some d =>
    rw [hd] at h
    obtain ⟨found, houtcome, rfl⟩ := Exchange.exists_of_outcome_map h
    cases found with
    | none => cases hremark
    | some found =>
      obtain ⟨p, hp, rfl⟩ := List.mem_map.mp hremark
      exact ⟨d, found, p, rfl, Exchange.answer_of_outcome_ask houtcome, hp, rfl⟩

theorem Hover.exists_of_ask_eq_some {provider : HoverRequest → Reply (WithDocument κ) Protocol.Hover}
    {pos : Nat} {tip : Tooltip} (h : (ask provider view pos).outcome = .ok (some tip)) :
    ∃ d hover, view.document? = some d ∧
      (provider ⟨d, d.positionAt pos⟩).answer = .ok (some hover) ∧ tip = tooltip d pos hover := by
  rw [ask] at h
  cases hd : view.document? with
  | none => rw [hd] at h; cases h
  | some d =>
    rw [hd] at h
    obtain ⟨hover, houtcome, htip⟩ := Exchange.exists_of_outcome_map h
    obtain ⟨hover, rfl, rfl⟩ := Option.map_eq_some_iff.mp htip
    exact ⟨d, hover, rfl, Exchange.answer_of_outcome_ask houtcome, rfl⟩

theorem CompletionSource.exists_of_complete_eq_some {source : CompletionSource}
    {provider : CompletionRequest → Reply (WithDocument κ) Protocol.CompletionResponse}
    {query : CompletionQuery (WithDocument κ)} {result : CompletionResult (WithDocument κ)}
    (h : (source.complete provider view query).outcome = .ok (some result)) :
    ∃ d context response, query.state.document? = some d ∧
      source.context? query = some context ∧
      (provider ⟨d, d.positionAt query.pos, context⟩).answer = .ok (some response) ∧
      source.result? d query.pos response = some result := by
  rw [complete] at h
  cases hd : query.state.document? with
  | none => rw [hd] at h; cases h
  | some d =>
    cases hcontext : source.context? query with
    | none => simp only [hd, hcontext] at h; cases h
    | some context =>
      simp only [hd, hcontext] at h
      obtain ⟨response, houtcome, hresult⟩ := Exchange.exists_of_outcome_map h
      obtain ⟨response, rfl, hresult⟩ := Option.bind_eq_some_iff.mp hresult
      exact ⟨d, context, response, rfl, rfl, Exchange.answer_of_outcome_ask houtcome, hresult⟩

-- ============================================================================
-- The span of a completion
-- ============================================================================

namespace CompletionSource

open Protocol

variable {d : TextDocument} {pos n : Nat} {span : Span} {items : List CompletionItem}

/-- The edits of candidates that have one. -/
def edits (items : List CompletionItem) : List CompletionEdit :=
  items.filterMap (·.textEdit)

theorem edits_cons_of_none {item : CompletionItem} (h : item.textEdit = none) :
    edits (item :: items) = edits items :=
  List.filterMap_cons_none h

theorem edits_cons_of_some {item : CompletionItem} {e : CompletionEdit}
    (h : item.textEdit = some e) : edits (item :: items) = e :: edits items :=
  List.filterMap_cons_some h

theorem widen_of_none {item : CompletionItem} (h : item.textEdit = none) :
    widen d span item = span := by
  rw [widen, h]

theorem widen_of_some {item : CompletionItem} {e : CompletionEdit} (h : item.textEdit = some e) :
    widen d span item
      = ⟨min span.start (d.offsetAt e.range.start), max span.stop (d.offsetAt e.range.stop)⟩ := by
  rw [widen, h]
  rfl

/-- The span starts with the first one of what it started with and the starts of all edits. -/
theorem start_foldl_widen_le_iff :
    (items.foldl (widen d) span).start ≤ n ↔
      span.start ≤ n ∨ ∃ e ∈ edits items, d.offsetAt e.range.start ≤ n := by
  induction items generalizing span with
  | nil => simp [edits]
  | cons item rest ih =>
    rw [List.foldl_cons, ih]
    cases hedit : item.textEdit with
    | none => rw [widen_of_none hedit, edits_cons_of_none hedit]
    | some e =>
      rw [widen_of_some hedit, edits_cons_of_some hedit]
      simp only [List.mem_cons, exists_eq_or_imp, Std.min_le, or_assoc]

/-- It stops with the last one of what it stopped with and the ends of all edits. -/
theorem le_stop_foldl_widen_iff :
    n ≤ (items.foldl (widen d) span).stop ↔
      n ≤ span.stop ∨ ∃ e ∈ edits items, n ≤ d.offsetAt e.range.stop := by
  induction items generalizing span with
  | nil => simp [edits]
  | cons item rest ih =>
    rw [List.foldl_cons, ih]
    cases hedit : item.textEdit with
    | none => rw [widen_of_none hedit, edits_cons_of_none hedit]
    | some e =>
      rw [widen_of_some hedit, edits_cons_of_some hedit]
      simp only [List.mem_cons, exists_eq_or_imp, Std.le_max, or_assoc]

/-- The cursor or an edit starts no later than an edit ends, and the cursor or an edit ends no
earlier than it starts. -/
structure Enclosed (d : TextDocument) (pos : Nat) (edits : List CompletionEdit)
    (e : CompletionEdit) : Prop where
  starts : pos ≤ d.offsetAt e.range.stop ∨
    ∃ e' ∈ edits, d.offsetAt e'.range.start ≤ d.offsetAt e.range.stop
  stops : d.offsetAt e.range.start ≤ pos ∨
    ∃ e' ∈ edits, d.offsetAt e.range.start ≤ d.offsetAt e'.range.stop

/-- An edit with its ends in order sees to that itself. -/
theorem enclosed_of_inOrder {es : List CompletionEdit} {e : CompletionEdit} (he : e ∈ es)
    (h : d.text.InOrder e.range) : Enclosed d pos es e where
  starts := .inr ⟨e, he, (Text.inOrder_iff _ _).mp h⟩
  stops := .inr ⟨e, he, (Text.inOrder_iff _ _).mp h⟩

theorem covers_foldl_widen_iff {e : CompletionEdit} (he : e ∈ edits items) :
    (items.foldl (widen d) ⟨pos, pos⟩).Covers (d.text.offsetsOf e.range) ↔
      Enclosed d pos (edits items) e := by
  have hstart : (items.foldl (widen d) ⟨pos, pos⟩).start ≤ d.text.offsetAt e.range.start :=
    start_foldl_widen_le_iff.mpr (.inr ⟨e, he, Nat.le_refl _⟩)
  have hstop : d.text.offsetAt e.range.stop ≤ (items.foldl (widen d) ⟨pos, pos⟩).stop :=
    le_stop_foldl_widen_iff.mpr (.inr ⟨e, he, Nat.le_refl _⟩)
  rw [Span.covers_offsetsOf_iff]
  constructor
  · rintro ⟨⟨-, hstarts⟩, hstops, -⟩
    exact ⟨start_foldl_widen_le_iff.mp hstarts, le_stop_foldl_widen_iff.mp hstops⟩
  · rintro ⟨hstarts, hstops⟩
    exact ⟨⟨hstart, start_foldl_widen_le_iff.mpr hstarts⟩, le_stop_foldl_widen_iff.mpr hstops,
      hstop⟩

theorem foldl_widen_ordered (hpos : pos ≤ d.text.length) :
    (items.foldl (widen d) ⟨pos, pos⟩).start ≤ (items.foldl (widen d) ⟨pos, pos⟩).stop ∧
      (items.foldl (widen d) ⟨pos, pos⟩).stop ≤ d.text.length := by
  constructor
  · have hstart : (items.foldl (widen d) ⟨pos, pos⟩).start ≤ pos :=
      start_foldl_widen_le_iff.mpr (.inl (Nat.le_refl _))
    have hstop : pos ≤ (items.foldl (widen d) ⟨pos, pos⟩).stop :=
      le_stop_foldl_widen_iff.mpr (.inl (Nat.le_refl _))
    exact Nat.le_trans hstart hstop
  · rcases le_stop_foldl_widen_iff.mp (Nat.le_refl (items.foldl (widen d) ⟨pos, pos⟩).stop) with
      hcursor | ⟨e, -, hedit⟩
    · exact Nat.le_trans hcursor hpos
    · exact Nat.le_trans hedit (Text.offsetAt_le_length _ _)

/-- Any candidates make a result. -/
theorem result?_eq_some_iff {κ : Type} [FieldSignature κ] {source : CompletionSource}
    {response : CompletionResponse} {result : CompletionResult κ} :
    source.result? d pos response = some result ↔ response.candidates ≠ [] ∧
      CompletionResult.mk (response.candidates.foldl (widen d) ⟨pos, pos⟩)
        (response.candidates.map (source.option d response.defaults))
        (response.defaults.bind (·.commitCharacters)) = result := by
  rw [result?, ← List.isEmpty_eq_false_iff]
  cases response.candidates.isEmpty <;> simp

theorem span_of_result? {κ : Type} [FieldSignature κ] {source : CompletionSource}
    {response : CompletionResponse} {result : CompletionResult κ}
    (h : source.result? d pos response = some result) :
    result.span = response.candidates.foldl (widen d) ⟨pos, pos⟩ := by
  rw [← (result?_eq_some_iff.mp h).2]

end CompletionSource

-- ============================================================================
-- What is delivered
-- ============================================================================

theorem Hover.exists_range_of_stop_eq_some {d : TextDocument} {pos stop : Nat}
    {hover : Protocol.Hover} (h : (tooltip d pos hover).stop = some stop) :
    ∃ range, hover.range = some range ∧
      Span.Follows ⟨(tooltip d pos hover).pos, stop⟩ d.text range := by
  rw [tooltip] at h ⊢
  cases hrange : hover.range with
  | none => rw [hrange] at h; cases h
  | some range =>
    rw [hrange] at h
    cases h
    exact ⟨range, rfl, Span.follows_offsets d.text range⟩

/-- The ends of remarks and of tooltips lie in the document, and are in order exactly if those of
the provider's range are.  The span of a completion lies in the document too, in order, and covers
what accepting an item replaces exactly if the ends of its edit are in order, or the cursor and the
other edits enclose them. -/
theorem extent_of_answers :
    (∀ (source : LintSource)
        (provider : TextDocument → Reply (WithDocument κ) (List Protocol.Diagnostic))
        (view : State (WithDocument κ)) (remarks : List Diagnostic),
      (source.lint provider view).outcome = .ok remarks → ∀ remark ∈ remarks,
        ∃ d found p, view.document? = some d ∧ (provider d).answer = .ok (some found) ∧
          p ∈ found ∧ remark = source.diagnostic d p ∧ remark.span.Follows d.text p.range) ∧
      (∀ (provider : HoverRequest → Reply (WithDocument κ) Protocol.Hover)
          (view : State (WithDocument κ)) (pos stop : Nat) (tip : Tooltip),
        (Hover.ask provider view pos).outcome = .ok (some tip) → tip.stop = some stop →
          ∃ d hover range, view.document? = some d ∧
            (provider ⟨d, d.positionAt pos⟩).answer = .ok (some hover) ∧
            hover.range = some range ∧ Span.Follows ⟨tip.pos, stop⟩ d.text range) ∧
      ∀ (source : CompletionSource)
          (provider : CompletionRequest → Reply (WithDocument κ) Protocol.CompletionResponse)
          (view : State (WithDocument κ)) (query : CompletionQuery (WithDocument κ))
          (result : CompletionResult (WithDocument κ)),
        (source.complete provider view query).outcome = .ok (some result) →
          ∃ d context response, query.state.document? = some d ∧
            source.context? query = some context ∧
            (provider ⟨d, d.positionAt query.pos, context⟩).answer = .ok (some response) ∧
            (query.pos ≤ d.text.length →
              result.span.start ≤ result.span.stop ∧ result.span.stop ≤ d.text.length) ∧
            ∀ e ∈ CompletionSource.edits response.candidates,
              (result.span.Covers (d.text.offsetsOf e.range) ↔ d.text.InOrder e.range ∨
                CompletionSource.Enclosed d query.pos (CompletionSource.edits response.candidates)
                  e) := by
  refine ⟨?_, ?_, ?_⟩
  · intro source provider view remarks h remark hremark
    obtain ⟨d, found, p, hd, hanswer, hp, rfl⟩ := LintSource.exists_of_mem_lint h hremark
    exact ⟨d, found, p, hd, hanswer, hp, rfl, Span.follows_offsets d.text p.range⟩
  · intro provider view pos stop tip h hstop
    obtain ⟨d, hover, hd, hanswer, rfl⟩ := Hover.exists_of_ask_eq_some h
    obtain ⟨range, hrange, hfollows⟩ := Hover.exists_range_of_stop_eq_some hstop
    exact ⟨d, hover, range, hd, hanswer, hrange, hfollows⟩
  · intro source provider view query result h
    obtain ⟨d, context, response, hd, hcontext, hanswer, hresult⟩ :=
      CompletionSource.exists_of_complete_eq_some h
    refine ⟨d, context, response, hd, hcontext, hanswer, ?_⟩
    rw [CompletionSource.span_of_result? hresult]
    refine ⟨CompletionSource.foldl_widen_ordered, fun e he => ?_⟩
    rw [CompletionSource.covers_foldl_widen_iff he]
    exact ⟨.inr, fun h => h.elim (CompletionSource.enclosed_of_inOrder he) id⟩

/-- A range of the first line with its ends reversed. -/
def backward : Range :=
  ⟨⟨0, 3⟩, ⟨0, 1⟩⟩

def remarkBackward (_ : TextDocument) : Reply (WithDocument Empty) (List Protocol.Diagnostic) :=
  { answer := .ok (some [{ range := backward, message := "found" }]) }

def hoverBackward (_ : HoverRequest) : Reply (WithDocument Empty) Protocol.Hover :=
  { answer := .ok (some { contents := .scalar (.markdown "found"), range := some backward }) }

/-- Candidates that replace the reversed range, and others. -/
def completeBackward (others : List Range) (_ : CompletionRequest) :
    Reply (WithDocument Empty) Protocol.CompletionResponse :=
  { answer := .ok (some (.items ((backward :: others).map fun range =>
      { label := "found", textEdit := some (.edit ⟨range, "found"⟩) }))) }

/-- Completion at the start of the text. -/
def atStart : CompletionQuery (WithDocument Empty) :=
  { state := Inquiry.visitedView, pos := 0, explicit := true }

/-- Another edit encloses the reversed one.  The remark has its ends reversed, as its range has. -/
theorem extent_of_reversedAnswers :
    (∃ remark, (LintSource.lint {} remarkBackward Inquiry.visitedView).outcome = .ok [remark] ∧
        remark.span.stop ≤ 3 ∧ ¬ remark.span.start ≤ remark.span.stop) ∧
      (∃ tip stop, (Hover.ask hoverBackward Inquiry.visitedView 0).outcome = .ok (some tip) ∧
        tip.stop = some stop ∧ tip.pos ≤ 3 ∧ ¬ tip.pos ≤ stop) ∧
      ∃ result, (CompletionSource.complete {} (completeBackward [⟨⟨0, 0⟩, ⟨0, 9⟩⟩])
          Inquiry.visitedView atStart).outcome = .ok (some result) ∧
        result.span.Covers (Inquiry.visitedView.doc.offsetsOf backward) := by
  have hd : Inquiry.visitedView.document? = some ⟨"file:///a", "plaintext", 0, "one".toList⟩ := by
    decide +kernel
  obtain ⟨hlint, hhover, hcomplete⟩ := extent_of_answers (κ := Empty)
  refine ⟨⟨_, rfl, ?_⟩, ⟨_, _, rfl, rfl, ?_⟩, ⟨_, rfl, ?_⟩⟩
  · obtain ⟨d, found, p, hd', hanswer, hp, -, hfollows⟩ :=
      hlint {} remarkBackward Inquiry.visitedView _ rfl _ (List.mem_singleton.mpr rfl)
    cases hd.symm.trans hd'
    cases hanswer
    cases List.mem_singleton.mp hp
    exact ⟨hfollows.stop_le_length, fun hle =>
      absurd (hfollows.start_le_stop_iff.mp hle) (by decide)⟩
  · obtain ⟨d, hover, range, hd', hanswer, hrange, hfollows⟩ :=
      hhover hoverBackward Inquiry.visitedView 0 _ _ rfl rfl
    cases hd.symm.trans hd'
    cases hanswer
    cases hrange
    exact ⟨hfollows.start_le_length, fun hle =>
      absurd (hfollows.start_le_stop_iff.mp hle) (by decide)⟩
  · obtain ⟨d, context, response, hd', -, hanswer, -, hcovers⟩ :=
      hcomplete {} (completeBackward [⟨⟨0, 0⟩, ⟨0, 9⟩⟩]) Inquiry.visitedView atStart _ rfl
    cases hd.symm.trans hd'
    cases hanswer
    refine (hcovers (.edit ⟨backward, "found"⟩) (by decide)).mpr (.inr ⟨?_, ?_⟩)
    · exact .inl (by decide)
    · exact .inr ⟨.edit ⟨⟨⟨0, 0⟩, ⟨0, 9⟩⟩, "found"⟩, by decide, by decide⟩

/-- With its ends reversed, a remark ends before it starts and so does a tooltip, and a completion
leaves out some of what accepting its only item replaces. -/
theorem not_wellFormed_backward :
    (∃ remark, (LintSource.lint {} remarkBackward Inquiry.visitedView).outcome = .ok [remark] ∧
        ¬ remark.span.start ≤ remark.span.stop) ∧
      (∃ tip stop, (Hover.ask hoverBackward Inquiry.visitedView 0).outcome = .ok (some tip) ∧
        tip.stop = some stop ∧ ¬ tip.pos ≤ stop) ∧
      ∃ result, (CompletionSource.complete {} (completeBackward []) Inquiry.visitedView
          atStart).outcome = .ok (some result) ∧
        ¬ result.span.Covers (Inquiry.visitedView.doc.offsetsOf backward) := by
  refine ⟨⟨_, rfl, by decide +kernel⟩, ⟨_, _, rfl, rfl, by decide +kernel⟩, ⟨_, rfl, ?_⟩⟩
  decide +kernel

end HeadlessEditor
