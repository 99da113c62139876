/-
  HeadlessEditor.Proofs.Assist.Policy

  The policy that the three sources share.  What an inquiry comes to
  (`Inquiry.verdict`) depends on what the provider did and on the document of
  the view it left, and not on which source asked (`Inquiry.verdict_eq`).  A
  failure of the provider and a missing answer come before any look at that
  document, and a document that is gone comes before a stale one.

  The sources do nothing to the view themselves.
-/

import HeadlessEditor.Proofs.Assist.Staleness

namespace HeadlessEditor

variable {κ : Type} [FieldSignature κ]

-- ============================================================================
-- Verdicts
-- ============================================================================

/-- What an inquiry comes to. -/
inductive Verdict where
  | failed (error : ServiceError)
  | nothing
  | delivered
deriving DecidableEq, Repr

/-- The verdict on an exchange, given which outcomes have something in them. -/
def Exchange.verdict {ρ β : Type} (e : Exchange κ ρ β) (holds : β → Bool) : Verdict :=
  match e.outcome with
  | .error error => .failed error
  | .ok b => if holds b then .delivered else .nothing

/-- A reply, with its answer told only by whether it has something to deliver. -/
def Reply.weigh {α : Type} (r : Reply κ α) (holds : α → Bool) : Reply κ Bool :=
  { dispatched := r.dispatched
    answer := r.answer.map (Option.map holds) }

theorem Reply.offers_weigh {α : Type} (r : Reply κ α) (holds : α → Bool) :
    (r.weigh holds).offers id = r.offers holds := by
  rw [offers, offers, weigh]
  cases r.answer with
  | error message => rfl
  | ok found => cases found <;> rfl

variable [DecidableEq κ]

/-- The verdict on an answer about a document, in the state it arrives in. -/
def Verdict.of (asked : TextDocument) (after : State (WithDocument κ))
    (answer : Except String (Option Bool)) : Verdict :=
  match answer with
  | .error message => .failed (.provider message)
  | .ok none => .nothing
  | .ok (some offers) =>
      match after.document? with
      | none => .failed .documentNotInstalled
      | some current =>
          if offers ∧ current.uri = asked.uri ∧ current.version = asked.version then .delivered
          else .nothing

theorem Exchange.stillCurrent_of_document? {d d' : TextDocument} {s : State (WithDocument κ)}
    (hd : s.document? = some d') :
    stillCurrent d s = .ok (decide (d'.uri = d.uri ∧ d'.version = d.version)) := by
  rw [stillCurrent, hd, Bool.decide_and, Bool.and_comm]
  rfl

theorem Exchange.verdict_ask [HostFields κ] {ρ α β : Type}
    {provider : ρ → Reply (WithDocument κ) α} {request : ρ} {d : TextDocument}
    {view : State (WithDocument κ)} {f : Option α → β} {holds : β → Bool}
    (hnone : holds (f none) = false) :
    ((ask provider request d view none).map f).verdict holds
      = .of d (view.replay (provider request).dispatched)
          ((provider request).weigh fun a => holds (f (some a))).answer := by
  rw [verdict, map, ask, Option.getD_none, Reply.weigh]
  cases (provider request).answer with
  | error message => rfl
  | ok found =>
    cases found with
    | none => simp [deliver, Verdict.of, Except.map, hnone]
    | some a =>
      rw [deliver.eq_def]
      cases hafter : (view.replay (provider request).dispatched).document? with
      | none => simp [stillCurrent, hafter, Verdict.of, Except.map]
      | some current =>
        by_cases hsame : current.uri = d.uri ∧ current.version = d.version
        · simp [stillCurrent_of_document? hafter, hafter, hsame, Verdict.of, Except.map]
        · simp [stillCurrent_of_document? hafter, hafter, hsame, Verdict.of, Except.map, hnone]

-- ============================================================================
-- Explicit inquiries
-- ============================================================================

namespace Inquiry

/-- Whether the provider is asked whatever the text is like. -/
def isExplicit : Inquiry κ → Bool
  | completion _ _ explicit _ => explicit
  | hover _ _ => true
  | lint _ _ => true

/-- The provider's reply when it is asked about a document. -/
def reply (q : Inquiry κ) (d : TextDocument) : Reply (WithDocument κ) Bool :=
  match q with
  | completion _ pos _ provider =>
      (provider ⟨d, d.positionAt pos, .invoked⟩).weigh fun found => !found.candidates.isEmpty
  | hover pos provider => (provider ⟨d, d.positionAt pos⟩).weigh fun _ => true
  | lint _ provider => (provider d).weigh (!·.isEmpty)

variable {q : Inquiry κ} {view : State (WithDocument κ)} {d : TextDocument}

theorem turn?_of_isExplicit (hq : q.isExplicit = true) (hd : view.document? = some d) :
    q.turn? view = some ⟨d, (q.reply d).dispatched, (q.reply d).offers id⟩ := by
  rw [turn?, hd]
  cases q with
  | completion source pos explicit provider =>
    obtain rfl : explicit = true := hq
    rw [reply, Reply.offers_weigh]
    rfl
  | hover pos provider => rw [reply, Reply.offers_weigh]; rfl
  | lint source provider => rw [reply, Reply.offers_weigh]; rfl

variable [HostFields κ]

/-- The verdict on an inquiry. -/
def verdict (q : Inquiry κ) (view : State (WithDocument κ)) : Verdict :=
  match q with
  | completion source pos explicit provider =>
      (source.complete provider view { state := view, pos, explicit }).verdict (·.isSome)
  | hover pos provider => (Hover.ask provider view pos).verdict (·.isSome)
  | lint source provider => (source.lint provider view).verdict (!·.isEmpty)

theorem verdict_of_document?_eq_none (q : Inquiry κ) (hd : view.document? = none) :
    q.verdict view = .failed .documentNotInstalled := by
  cases q with
  | completion source pos explicit provider => rw [verdict, CompletionSource.complete, hd]; rfl
  | hover pos provider => rw [verdict, Hover.ask, hd]; rfl
  | lint source provider => rw [verdict, LintSource.lint, hd]; rfl

theorem verdict_eq (hq : q.isExplicit = true) (hd : view.document? = some d) :
    q.verdict view = .of d (view.replay (q.reply d).dispatched) (q.reply d).answer := by
  cases q with
  | completion source pos explicit provider =>
    obtain rfl : explicit = true := hq
    rw [verdict, CompletionSource.complete, hd]
    simp only [CompletionSource.context?, if_true]
    rw [Exchange.verdict_ask rfl]
    simp only [Option.bind_some, CompletionSource.isSome_result?]
    rfl
  | hover pos provider =>
    rw [verdict, Hover.ask, hd]
    exact Exchange.verdict_ask rfl
  | lint source provider =>
    rw [verdict, LintSource.lint, hd]
    simp only
    rw [Exchange.verdict_ask rfl]
    simp only [Option.getD_some, List.isEmpty_map]
    rfl

/-- The policy of the sources.  Without a document the provider is not asked, and the inquiry
fails.  Else the provider is given the document; the view ends up where the provider's
transactions lead; a failure of the provider is passed on, and so is a missing answer; any other
answer fails if there is no document any more, and is delivered if it offers something and the
document is the one that was asked about.

Two inquiries whose providers reply alike come to the same, also if they are of different
sources. -/
theorem policy_of_isExplicit (q : Inquiry κ) (hq : q.isExplicit = true)
    (view : State (WithDocument κ)) :
    (view.document? = none →
        (q.report view).given? = none ∧ (q.report view).view = view ∧
          q.verdict view = .failed .documentNotInstalled) ∧
      ∀ d, view.document? = some d →
        (q.report view).given? = some d ∧
        (q.report view).view = view.replay (q.reply d).dispatched ∧
        (∀ message, (q.reply d).answer = .error message →
          q.verdict view = .failed (.provider message)) ∧
        ((q.reply d).answer = .ok none → q.verdict view = .nothing) ∧
        (∀ offers, (q.reply d).answer = .ok (some offers) →
          ((q.report view).view.document? = none →
            q.verdict view = .failed .documentNotInstalled) ∧
          ∀ d', (q.report view).view.document? = some d' →
            q.verdict view =
              if offers ∧ d'.uri = d.uri ∧ d'.version = d.version then .delivered
              else .nothing) ∧
        ∀ other : Inquiry κ, other.isExplicit = true → other.reply d = q.reply d →
          other.report view = q.report view ∧ other.verdict view = q.verdict view := by
  refine ⟨fun hnone => ?_, fun d hd => ?_⟩
  · have hturn : q.turn? view = none := by
      rw [turn?, hnone]
      rfl
    rw [report_of_turn?_eq_none hturn]
    exact ⟨rfl, rfl, verdict_of_document?_eq_none q hnone⟩
  · have hreport := report_of_turn? (turn?_of_isExplicit hq hd)
    have hverdict := verdict_eq hq hd
    refine ⟨?_, ?_, fun message hanswer => ?_, fun hanswer => ?_, fun offers hanswer => ?_,
      fun other hother hreply => ⟨?_, ?_⟩⟩
    · rw [hreport, Turn.report]
    · rw [hreport, Turn.report]
    · rw [hverdict, hanswer, Verdict.of]
    · rw [hverdict, hanswer, Verdict.of]
    · rw [hreport, Turn.report, hverdict, hanswer]
      exact ⟨fun hgone => by rw [Verdict.of, hgone], fun d' hd' => by rw [Verdict.of, hd']⟩
    · rw [hreport, report_of_turn? (turn?_of_isExplicit hother hd), hreply]
    · rw [hverdict, verdict_eq hother hd, hreply]

/-- A hover during which the document is removed. -/
def hoverClosing (answer : Except String (Option Protocol.Hover)) : Inquiry Empty :=
  .hover 0 fun _ => { dispatched := [{ effects := [.reconfigure []] }], answer }

/-- The same while diagnostics are sought. -/
def lintClosing (answer : Except String (Option (List Protocol.Diagnostic))) : Inquiry Empty :=
  .lint {} fun _ => { dispatched := [{ effects := [.reconfigure []] }], answer }

/-- The same while completions are sought. -/
def completionClosing (answer : Except String (Option Protocol.CompletionResponse)) :
    Inquiry Empty :=
  .completion {} 0 true fun _ => { dispatched := [{ effects := [.reconfigure []] }], answer }

/-- A tooltip and a diagnostic fail alike, the provider's failure is told as it is, and having
nothing to say is no failure. -/
theorem verdict_closing :
    (∀ hover remark,
      (hoverClosing (.ok (some hover))).verdict visitedView = .failed .documentNotInstalled ∧
      (lintClosing (.ok (some [remark]))).verdict visitedView = .failed .documentNotInstalled) ∧
      (hoverClosing (.error "timeout")).verdict visitedView = .failed (.provider "timeout") ∧
      (completionClosing (.ok none)).verdict visitedView = .nothing := by
  have hd : visitedView.document? = some ⟨"file:///a", "plaintext", 0, "one".toList⟩ := by
    decide +kernel
  have hgone : (visitedView.replay [{ effects := [.reconfigure []] }]).document? = none := by
    decide +kernel
  refine ⟨fun hover remark => ?_, ?_, ?_⟩
  · obtain ⟨-, hpolicy⟩ := policy_of_isExplicit (hoverClosing (.ok (some hover))) rfl visitedView
    obtain ⟨-, hview, -, -, hoffer, hagree⟩ := hpolicy _ hd
    obtain ⟨hfailed, -⟩ := hoffer true rfl
    have hhover := hfailed (by rw [hview]; exact hgone)
    obtain ⟨-, hlint⟩ := hagree (lintClosing (.ok (some [remark]))) rfl rfl
    exact ⟨hhover, hlint.trans hhover⟩
  · obtain ⟨-, hpolicy⟩ := policy_of_isExplicit (hoverClosing (.error "timeout")) rfl visitedView
    obtain ⟨-, -, herror, -⟩ := hpolicy _ hd
    exact herror "timeout" rfl
  · obtain ⟨-, hpolicy⟩ := policy_of_isExplicit (completionClosing (.ok none)) rfl visitedView
    obtain ⟨-, -, -, habsent, -⟩ := hpolicy _ hd
    exact habsent rfl

end Inquiry

end HeadlessEditor
