/-
  HeadlessEditor.Proofs.Assist.Inquiry

  The three sources as one.  Whichever source asks, the provider is given the
  document of the view, makes its transactions there and answers
  (`Inquiry.turn?`).  What comes of it (`Inquiry.report`) depends on that turn
  and on whether the document is still current, and on nothing else of the
  source (`Inquiry.report_eq`).
-/

import HeadlessEditor.Assist.Completion
import HeadlessEditor.Assist.Hover
import HeadlessEditor.Assist.Lint

namespace HeadlessEditor

variable {κ : Type} [FieldSignature κ]

-- ============================================================================
-- What comes of an exchange
-- ============================================================================

/-- Whether an answer has something to deliver. -/
def Reply.offers {α : Type} (r : Reply κ α) (holds : α → Bool) : Bool :=
  match r.answer with
  | .ok (some a) => holds a
  | _ => false

/-- What comes of an exchange: the document the provider was given, if it was asked, the view
when it is over, and whether something is delivered. -/
structure Report (κ : Type) [FieldSignature κ] where
  given? : Option TextDocument
  view : State (WithDocument κ)
  delivered : Bool

namespace Exchange

/-- The report of an exchange, given which outcomes have something in them. -/
def report {ρ β : Type} (e : Exchange (WithDocument κ) ρ β) (document : ρ → TextDocument)
    (holds : β → Bool) : Report κ :=
  { given? := e.request.map document
    view := e.view
    delivered :=
      match e.outcome with
      | .ok b => holds b
      | .error _ => false }

variable [DecidableEq κ]

/-- Whether there is a document and it is the one that was asked about. -/
def isCurrent (asked : TextDocument) (s : State (WithDocument κ)) : Bool :=
  match stillCurrent asked s with
  | .ok current => current
  | .error _ => false

theorem isCurrent_iff {d : TextDocument} {s : State (WithDocument κ)} :
    isCurrent d s = true
      ↔ ∃ d', s.document? = some d' ∧ d'.uri = d.uri ∧ d'.version = d.version := by
  rw [isCurrent, stillCurrent]
  cases s.document? with
  | none => simp
  | some d' => simp [and_comm]

/-- An answer comes through if it offers something and is about the document that is current. -/
theorem report_ask [HostFields κ] {ρ α β : Type} {provider : ρ → Reply (WithDocument κ) α}
    {request : ρ} {d : TextDocument} {view : State (WithDocument κ)} {f : Option α → β}
    {document : ρ → TextDocument} {holds : β → Bool} (hnone : holds (f none) = false) :
    ((ask provider request d view none).map f).report document holds
      = ⟨some (document request), view.replay (provider request).dispatched,
          (provider request).offers (fun a => holds (f (some a))) &&
            isCurrent d (view.replay (provider request).dispatched)⟩ := by
  rw [report, map, ask, Option.getD_none, Reply.offers, isCurrent, Option.map_some,
    Report.mk.injEq]
  refine ⟨rfl, rfl, ?_⟩
  cases (provider request).answer with
  | error message => simp [deliver, Except.map]
  | ok found =>
    cases found with
    | none => simp [deliver, Except.map, hnone]
    | some a =>
      rw [deliver.eq_def]
      cases stillCurrent d (view.replay (provider request).dispatched) with
      | error e => simp [Except.map]
      | ok current => cases current <;> simp [Except.map, hnone]

end Exchange

-- ============================================================================
-- Inquiries
-- ============================================================================

/-- One use of a source on a view that it follows. -/
inductive Inquiry (κ : Type) [FieldSignature κ] where
  | completion (source : CompletionSource) (pos : Nat) (explicit : Bool)
      (provider : CompletionRequest → Reply (WithDocument κ) Protocol.CompletionResponse)
  | hover (pos : Nat) (provider : HoverRequest → Reply (WithDocument κ) Protocol.Hover)
  | lint (source : LintSource)
      (provider : TextDocument → Reply (WithDocument κ) (List Protocol.Diagnostic))

/-- The provider's turn: the document it was given, the transactions made until it answers, and
whether its answer has something to deliver. -/
structure Turn (κ : Type) [FieldSignature κ] where
  asked : TextDocument
  dispatched : List (TransactionSpec (WithDocument κ))
  answered : Bool

theorem CompletionSource.isSome_result? (source : CompletionSource) (d : TextDocument) (pos : Nat)
    (found : Protocol.CompletionResponse) :
    (source.result? d pos found : Option (CompletionResult κ)).isSome
      = !found.candidates.isEmpty := by
  rw [result?]
  cases found.candidates.isEmpty <;> rfl

variable [DecidableEq κ]

/-- The provider's turn, if it is asked at all. -/
def Inquiry.turn? (q : Inquiry κ) (view : State (WithDocument κ)) : Option (Turn κ) := do
  let document ← view.document?
  match q with
  | completion source pos explicit provider =>
      let context ← source.context? { state := view, pos, explicit }
      let reply := provider ⟨document, document.positionAt pos, context⟩
      return ⟨document, reply.dispatched, reply.offers fun found => !found.candidates.isEmpty⟩
  | hover pos provider =>
      let reply := provider ⟨document, document.positionAt pos⟩
      return ⟨document, reply.dispatched, reply.offers fun _ => true⟩
  | lint _ provider =>
      let reply := provider document
      return ⟨document, reply.dispatched, reply.offers fun found => !found.isEmpty⟩

/-- A provider is asked about the document of the view. -/
theorem Inquiry.document?_of_turn? {q : Inquiry κ} {view : State (WithDocument κ)} {t : Turn κ}
    (h : q.turn? view = some t) : view.document? = some t.asked := by
  rw [turn?, Option.bind_eq_bind, Option.bind_eq_some_iff] at h
  obtain ⟨d, hd, h⟩ := h
  rw [hd]
  cases q with
  | completion source pos explicit provider =>
    obtain ⟨context, -, h⟩ := Option.bind_eq_some_iff.mp h
    cases h
    rfl
  | hover pos provider => cases h; rfl
  | lint source provider => cases h; rfl

variable [HostFields κ]

/-- The report on an inquiry.  Results and tooltips are delivered as they are, diagnostics if
there are any. -/
def Inquiry.report (q : Inquiry κ) (view : State (WithDocument κ)) : Report κ :=
  match q with
  | completion source pos explicit provider =>
      (source.complete provider view { state := view, pos, explicit }).report (·.document)
        (·.isSome)
  | hover pos provider => (Hover.ask provider view pos).report (·.document) (·.isSome)
  | lint source provider => (source.lint provider view).report id (!·.isEmpty)

/-- What comes of the provider's turn.  The view changes by its transactions and nothing else. -/
def Turn.report (t : Turn κ) (view : State (WithDocument κ)) : Report κ :=
  { given? := some t.asked
    view := view.replay t.dispatched
    delivered := t.answered && Exchange.isCurrent t.asked (view.replay t.dispatched) }

namespace Inquiry

variable {view : State (WithDocument κ)}

/-- Completion asks only if there is cause to. -/
theorem report_completion (source : CompletionSource) (pos : Nat) (explicit : Bool)
    (provider : CompletionRequest → Reply (WithDocument κ) Protocol.CompletionResponse)
    {d : TextDocument} (hd : view.document? = some d) :
    (completion source pos explicit provider).report view
      = ((completion source pos explicit provider).turn? view).elim ⟨none, view, false⟩
          (·.report view) := by
  rw [report, CompletionSource.complete, turn?, hd]
  cases hcontext : source.context? { state := view, pos, explicit } with
  | none => simp only [hcontext]; rfl
  | some context =>
    simp only [hcontext, if_true]
    rw [Exchange.report_ask rfl]
    simp only [Option.bind_some, CompletionSource.isSome_result?]
    rfl

/-- What comes of an inquiry is nothing, or what comes of the provider's turn. -/
theorem report_eq (q : Inquiry κ) (view : State (WithDocument κ)) :
    q.report view = (q.turn? view).elim ⟨none, view, false⟩ (·.report view) := by
  cases hd : view.document? with
  | none =>
    have hturn : q.turn? view = none := by
      rw [turn?, hd]
      rfl
    rw [hturn]
    cases q with
    | completion source pos explicit provider => rw [report, CompletionSource.complete, hd]; rfl
    | hover pos provider => rw [report, Hover.ask, hd]; rfl
    | lint source provider => rw [report, LintSource.lint, hd]; rfl
  | some d =>
    cases q with
    | completion source pos explicit provider =>
      exact report_completion source pos explicit provider hd
    | hover pos provider =>
      rw [report, Hover.ask, turn?, hd]
      exact Exchange.report_ask rfl
    | lint source provider =>
      rw [report, LintSource.lint, turn?, hd]
      simp only
      rw [Exchange.report_ask rfl]
      simp only [Option.getD_some, List.isEmpty_map]
      rfl

variable {q : Inquiry κ} {t : Turn κ}

theorem report_of_turn? (h : q.turn? view = some t) : q.report view = t.report view := by
  rw [report_eq, h, Option.elim_some]

theorem report_of_turn?_eq_none (h : q.turn? view = none) :
    q.report view = ⟨none, view, false⟩ := by
  rw [report_eq, h, Option.elim_none]

end Inquiry

end HeadlessEditor
