/-
  HeadlessEditor.Protocol.Diagnostic

  Diagnostics of the Language Server Protocol.  Severities and tags are
  open: numbers without a meaning here are kept.
-/

import HeadlessEditor.Protocol.Range

namespace HeadlessEditor.Protocol

open Json

/-- The code of a diagnostic. -/
inductive NumberOrString where
  | number (value : Int32)
  | string (value : String)
deriving DecidableEq, Repr, Inhabited

namespace NumberOrString

/-- The code as it is shown. -/
def display : NumberOrString → String
  | .number value => toString value.toInt
  | .string value => value

/-- Whether there is nothing to show: the number zero or the empty string. -/
def isVoid : NumberOrString → Bool
  | .number value => value == 0
  | .string value => value.isEmpty

end NumberOrString

/-- Where a code is described. -/
structure CodeDescription where
  href : String
deriving DecidableEq, Repr, Inhabited

/-- A remark on a range of a document. -/
structure Diagnostic where
  range : Range
  severity : Option Int32 := none
  code : Option NumberOrString := none
  codeDescription : Option CodeDescription := none
  source : Option String := none
  message : String
  tags : Option (List Int32) := none
  data : Option Json := none
deriving Repr, Inhabited

-- ============================================================================
-- JSON
-- ============================================================================

/-- A number is tried first. -/
instance : Wire NumberOrString where
  encode
    | .number value => encode value
    | .string value => encode value
  decode j := (decode j).map NumberOrString.number <|> (decode j).map NumberOrString.string

instance : Wire CodeDescription where
  encode d := record [member "href" d.href]
  decode j := do
    let m ← members? ["href"] j
    return ⟨← m.required "href"⟩

/-- The keys of a diagnostic. -/
def Diagnostic.keys : List String :=
  ["range", "severity", "code", "codeDescription", "source", "message", "tags", "data"]

instance : Wire Diagnostic where
  encode d :=
    record
      [member "range" d.range, member? "severity" d.severity, member? "code" d.code,
       member? "codeDescription" d.codeDescription, member? "source" d.source,
       member "message" d.message, member? "tags" d.tags, member? "data" d.data]
  decode j := do
    let m ← members? Diagnostic.keys j
    return {
      range := ← m.required "range"
      severity := ← m.optional "severity"
      code := ← m.optional "code"
      codeDescription := ← m.optional "codeDescription"
      source := ← m.optional "source"
      message := ← m.required "message"
      tags := ← m.optional "tags"
      data := ← m.optional "data" }

end HeadlessEditor.Protocol
