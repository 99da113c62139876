/-
  HeadlessEditor.Proofs.Document.Batch

  Batches of text edits.  All edits of a batch address the document as it is,
  so the order they are listed in matters only among those that start at the
  same offset (`Reorders`): the normal form of the changes is the same, and
  with it the whole transaction.  However many edits there are, they make one
  transaction, which the version counts once.
-/

import HeadlessEditor.Document.Edit
import HeadlessEditor.Proofs.Change.Normal
import HeadlessEditor.Proofs.Document.Revision
import HeadlessEditor.Proofs.Position.Conversion
import Mathlib

namespace HeadlessEditor

open Protocol (TextEdit)

-- ============================================================================
-- Edits that start at one offset
-- ============================================================================

/-- Where an edit starts in a text: the smaller of the offsets of its two ends. -/
def Text.editStart (t : Text) (e : TextEdit) : Nat :=
  (t.offsetsOf e.range).start

/-- One batch is another one in an order that differs only between edits with different starts. -/
structure Reorders (t : Text) (a b : List TextEdit) : Prop where
  perm : a.Perm b
  filter_eq : ∀ offset, a.filter (t.editStart · == offset) = b.filter (t.editStart · == offset)

theorem Change.start_clamp_ofEdit (t : Text) (e : TextEdit) :
    ((Change.ofEdit t e).clamp t.length).start = t.editStart e :=
  congrArg Span.start (t.clamp_offsets e.range)

theorem Change.filter_clamp_ofEdit (t : Text) (edits : List TextEdit) (offset : Nat) :
    ((edits.map (ofEdit t)).map (clamp t.length)).filter (·.start == offset)
      = ((edits.filter (t.editStart · == offset)).map (ofEdit t)).map (clamp t.length) := by
  have hstart : (fun e => ((ofEdit t e).clamp t.length).start == offset)
      = (t.editStart · == offset) := by
    funext e
    rw [start_clamp_ofEdit]
  rw [List.map_map, List.map_map, List.filter_map, ← hstart]
  rfl

theorem Reorders.changes_eq {t : Text} {a b : List TextEdit} (h : Reorders t a b) :
    ChangeSet.of (a.map (.ofEdit t)) t.length = ChangeSet.of (b.map (.ofEdit t)) t.length := by
  have hordered : Change.ordered t.length (a.map (.ofEdit t))
      = Change.ordered t.length (b.map (.ofEdit t)) := by
    apply Change.ordered_eq_of_filter_eq
    intro offset
    rw [Change.filter_clamp_ofEdit, Change.filter_clamp_ofEdit, h.filter_eq offset]
  rw [ChangeSet.of_eq, ChangeSet.of_eq, hordered]

-- ============================================================================
-- The transaction of a batch
-- ============================================================================

variable {κ : Type} [FieldSignature κ] [DecidableEq κ]

namespace State

/-- A transaction depends on its changes through their normal form only. -/
theorem update_eq_of_changes_eq [StateFields κ] {s : State κ} {spec spec' : TransactionSpec κ}
    (hchanges : ChangeSet.of spec.changes s.doc.length = ChangeSet.of spec'.changes s.doc.length)
    (hselection : spec.selection = spec'.selection) (heffects : spec.effects = spec'.effects) :
    s.update spec = s.update spec' := by
  rw [update, update, hchanges, hselection, heffects]

variable [HostFields κ] {s : State (WithDocument κ)} {d : TextDocument}

/-- A batch leaves the URI and the language, so the document counts it if it changes the text. -/
theorem document?_update_textEdits (h : s.Reachable) (hd : s.document? = some d)
    (edits : List TextEdit) :
    ∃ d', (s.update (.textEdits s edits)).state.document? = some d' ∧ d'.uri = d.uri ∧
      if (s.update (.textEdits s edits)).docChanged = true then d'.version = d.version + 1
      else d' = d := by
  have hafter : (s.update (.textEdits s edits)).state.Reachable := .update _ h
  have hextensions : (s.update (.textEdits s edits)).state.extensions = s.extensions := rfl
  have huri : (s.update (.textEdits s edits)).state.documentUri? = some d.uri := by
    rw [documentUri?_eq hafter, hextensions, ← documentUri?_eq h]
    exact documentUri?_eq_some_iff.mpr ⟨d, hd, rfl⟩
  have hlanguage : (s.update (.textEdits s edits)).state.languageId = s.languageId := by
    rw [languageId_eq hafter.coherent, hextensions, ← languageId_eq h.coherent]
  have hrevises : (s.update (.textEdits s edits)).revises
      = (s.update (.textEdits s edits)).docChanged := by
    rw [Transaction.revises, startState_update, hlanguage, bne_self_eq_false, Bool.or_false]
  have hkept := document?_update_of_uri_eq h hd huri
  rwa [hrevises] at hkept

/-- Batches that differ only in the order of edits with different starts make the same
transaction: the same changes, text, selection, snippet session and document.  The version rises
by one if the text changes, and else not at all. -/
theorem update_textEdits_of_reorders {a b : List TextEdit} (h : Reorders s.doc a b) :
    s.update (.textEdits s a) = s.update (.textEdits s b) ∧
      (s.Reachable → ∀ d, s.document? = some d →
        ∃ d', (s.update (.textEdits s a)).state.document? = some d' ∧ d'.uri = d.uri ∧
          if (s.update (.textEdits s a)).docChanged = true then d'.version = d.version + 1
          else d' = d) :=
  ⟨update_eq_of_changes_eq h.changes_eq rfl rfl,
    fun hreachable _ hd => document?_update_textEdits hreachable hd a⟩

/-- A state with a document, and a snippet session whose stop is the second line. -/
def twoLines : State (WithDocument Empty) :=
  ((create { doc := "one\ntwo".toList, extensions := [.document "file:///a"] }).update
    { selection := some ⟨4, 7⟩, effects := [.startSnippet ⟨[⟨1, [⟨4, 7⟩]⟩], 0⟩] }).state

/-- Two edits that start at offset 0, and one with its ends reversed that overlaps the first. -/
def overlapping : List TextEdit :=
  [⟨⟨⟨0, 0⟩, ⟨0, 3⟩⟩, "A"⟩, ⟨⟨⟨0, 0⟩, ⟨0, 0⟩⟩, "B"⟩, ⟨⟨⟨1, 1⟩, ⟨0, 2⟩⟩, "C"⟩]

/-- The same with the reversed one first. -/
def overlappingReordered : List TextEdit :=
  [⟨⟨⟨1, 1⟩, ⟨0, 2⟩⟩, "C"⟩, ⟨⟨⟨0, 0⟩, ⟨0, 3⟩⟩, "A"⟩, ⟨⟨⟨0, 0⟩, ⟨0, 0⟩⟩, "B"⟩]

theorem update_overlappingReordered :
    twoLines.update (.textEdits twoLines overlapping)
        = twoLines.update (.textEdits twoLines overlappingReordered) ∧
      ∃ d, (twoLines.update (.textEdits twoLines overlapping)).state.document? = some d ∧
        d.version = 1 := by
  have hreorders : Reorders twoLines.doc overlapping overlappingReordered := by
    have hdoc : twoLines.doc = "one\ntwo".toList := doc_update_of_changes_eq_nil rfl
    refine ⟨by decide, fun offset => ?_⟩
    rw [hdoc]
    rcases offset with _ | _ | _ | offset <;> rfl
  obtain ⟨hsame, hversion⟩ := update_textEdits_of_reorders hreorders
  have hreachable : twoLines.Reachable := .update _ (.create _)
  have hd : twoLines.document? = some ⟨"file:///a", "plaintext", 0, "one\ntwo".toList⟩ := by
    decide +kernel
  have hchanged : (twoLines.update (.textEdits twoLines overlapping)).docChanged = true := by
    decide_cbv
  obtain ⟨d', hd', -, hv⟩ := hversion hreachable _ hd
  rw [if_pos hchanged] at hv
  exact ⟨hsame, d', hd', hv⟩

end State

end HeadlessEditor
