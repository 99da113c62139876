/-
  HeadlessEditor.Inspect

  One-line descriptions of states and of what sources return, for people to
  read.  A record is its name and its members, an optional value says whether
  it is there, and what is rendered on demand or run on acceptance is only
  named.
-/

import HeadlessEditor.Assist.Completion
import HeadlessEditor.Assist.Hover
import HeadlessEditor.Assist.Lint
import HeadlessEditor.Text.Quoted

namespace HeadlessEditor.Inspect

-- ============================================================================
-- Notation
-- ============================================================================

def quoted (s : String) : String :=
  String.ofList (Text.quoted s.toList)

def commaSeparated (items : List String) : String :=
  ", ".intercalate items

def list {α : Type} (f : α → String) (items : List α) : String :=
  "[" ++ commaSeparated (items.map f) ++ "]"

def optional {α : Type} (f : α → String) : Option α → String
  | none => "None"
  | some a => "Some(" ++ f a ++ ")"

/-- A record with its members in order. -/
def record (name : String) (members : List (String × String)) : String :=
  name ++ " \x7b " ++ commaSeparated (members.map fun m => m.1 ++ ": " ++ m.2) ++ " \x7d"

/-- A record of which some members are not shown. -/
def openRecord (name : String) (members : List (String × String)) : String :=
  name ++ " \x7b " ++ commaSeparated (members.map fun m => m.1 ++ ": " ++ m.2) ++ ", .. \x7d"

-- ============================================================================
-- States
-- ============================================================================

def span (s : Span) : String :=
  "(" ++ toString s.start ++ ", " ++ toString s.stop ++ ")"

def selection (s : Selection) : String :=
  record "Selection" [("anchor", toString s.anchor), ("head", toString s.head)]

def language (l : Language) : String :=
  record "Language" [("name", quoted l.name)]

def tabStop (stop : TabStop) : String :=
  record "SnippetField" [("number", toString stop.number), ("ranges", list span stop.spans)]

def session (s : Snippet.Session) : String :=
  record "SnippetSession" [("fields", list tabStop s.stops), ("active", toString s.active)]

/-- A state.  Of its fields only the number is shown. -/
def state {κ : Type} [FieldSignature κ] (s : State κ) : String :=
  record "EditorState"
    [("doc", quoted (String.ofList s.doc)), ("selection", selection s.selection),
     ("language", optional language s.language), ("fields", toString s.slots.length),
     ("snippet", optional session s.session)]

-- ============================================================================
-- What sources return
-- ============================================================================

def acceptance {κ : Type} [FieldSignature κ] : Acceptance κ → String
  | .text text => "Text(" ++ quoted (String.ofList text) ++ ")"
  | _ => "Action(..)"

def completion {κ : Type} [FieldSignature κ] (c : Completion κ) : String :=
  record "Completion"
    [("label", quoted c.label), ("detail", optional quoted c.detail),
     ("info", optional (fun _ => "CompletionInfo(..)") c.info),
     ("kind", optional quoted c.kind), ("section", optional quoted c.sectionName),
     ("commit_characters", optional (list quoted) c.commitCharacters),
     ("apply", optional acceptance c.acceptance)]

def completionResult {κ : Type} [FieldSignature κ] (r : CompletionResult κ) : String :=
  record "CompletionResult"
    [("from", toString r.span.start), ("to", toString r.span.stop),
     ("options", list completion r.options),
     ("commit_characters", optional (list quoted) r.commitCharacters)]

def tooltip (t : Tooltip) : String :=
  openRecord "Tooltip" [("pos", toString t.pos), ("end", optional toString t.stop)]

def severity : Severity → String
  | .hint => "Hint"
  | .info => "Info"
  | .warning => "Warning"
  | .error => "Error"

def diagnostic (d : Diagnostic) : String :=
  record "Diagnostic"
    [("from", toString d.span.start), ("to", toString d.span.stop),
     ("severity", severity d.severity), ("mark_class", quoted d.markClass),
     ("source", optional quoted d.source), ("message", quoted d.message),
     ("render_message", optional (fun _ => "RenderMessage(..)") d.body)]

end HeadlessEditor.Inspect
