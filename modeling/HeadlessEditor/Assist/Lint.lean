/-
  HeadlessEditor.Assist.Lint

  Diagnostics: asking a provider for remarks on the whole document, and
  putting them into the form an editor shows.
-/

import HeadlessEditor.Assist.Exchange
import HeadlessEditor.Markup.Node
import HeadlessEditor.Protocol.Diagnostic
import HeadlessEditor.Protocol.Settings

namespace HeadlessEditor

open Protocol (LintSettings)

/-- How serious a remark is, the least serious first. -/
inductive Severity where
  | hint
  | info
  | warning
  | error
deriving DecidableEq, Repr

namespace Severity

def rank : Severity → Nat
  | .hint => 0
  | .info => 1
  | .warning => 2
  | .error => 3

instance : LE Severity :=
  ⟨fun a b => a.rank ≤ b.rank⟩

instance (a b : Severity) : Decidable (a ≤ b) :=
  inferInstanceAs (Decidable (a.rank ≤ b.rank))

def name : Severity → String
  | .hint => "hint"
  | .info => "info"
  | .warning => "warning"
  | .error => "error"

/-- The severity of a diagnostic.  A missing or unknown one is an error. -/
def ofCode (code : Option Int32) : Severity :=
  match code.map Int32.toInt with
  | some 4 => .hint
  | some 3 => .info
  | some 2 => .warning
  | _ => .error

end Severity

/-- A remark on a span of the document. -/
structure Diagnostic where
  span : Span
  severity : Severity
  /-- Class names of its underline, separated by blanks. -/
  markClass : String
  source : Option String
  message : String
  /-- What is shown instead of the message, if anything. -/
  body : Option Markup.Fragment
deriving Repr

/-- Where a remark comes from: its source and its code, as far as it has them. -/
def defaultSource (d : Protocol.Diagnostic) : Option String :=
  match d.source.filter (!·.isEmpty), d.code.filter (!·.isVoid) with
  | some source, some code => some (source ++ ":" ++ code.display)
  | some source, none => some source
  | none, some code => some code.display
  | none, none => none

/-- How diagnostics are set up. -/
structure LintSource where
  source : Protocol.Diagnostic → Option String := defaultSource
  markClass : String := ""

namespace LintSource

/-- The source with what the settings set. -/
def withSettings (source : LintSource) (settings : LintSettings) : LintSource :=
  { source with markClass := settings.markClass.getD source.markClass }

def tagClasses (tags : List Int32) : String :=
  (if tags.contains 1 then " lint-range-unnecessary" else "") ++
    (if tags.contains 2 then " lint-range-deprecated" else "")

/-- The message with a link to where its code is described. -/
def linked (message href : String) : Markup.Fragment :=
  [.text message, .element "br" [] [], .element "a" [("href", href)] [.text href]]

/-- A provider's diagnostic as an editor shows it. -/
def diagnostic (source : LintSource) (document : TextDocument) (d : Protocol.Diagnostic) :
    Diagnostic :=
  { span := ⟨document.offsetAt d.range.start, document.offsetAt d.range.stop⟩
    severity := .ofCode d.severity
    markClass := source.markClass ++ tagClasses (d.tags.getD [])
    source := source.source d
    message := d.message
    body := d.codeDescription.map fun description => linked d.message description.href }

/-- Asks for diagnostics.  The request is the document itself. -/
def lint {κ : Type} [FieldSignature κ] [DecidableEq κ] [HostFields κ] (source : LintSource)
    (provider : TextDocument → Reply (WithDocument κ) (List Protocol.Diagnostic))
    (view : State (WithDocument κ)) :
    Exchange (WithDocument κ) TextDocument (List Diagnostic) :=
  match view.document? with
  | none => .unasked view (.error .documentNotInstalled)
  | some document =>
      (Exchange.ask provider document document view none).map
        fun found => (found.getD []).map (source.diagnostic document)

end LintSource

end HeadlessEditor
