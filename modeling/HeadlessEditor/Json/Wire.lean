/-
  HeadlessEditor.Json.Wire

  Types with a JSON form, and records in particular.

  A record is written as an object.  It is read from an object, whose
  further members are passed over, or from an array of its members' values
  in the order of its keys.  Such an array may be shorter than the record,
  never longer; the members it does not reach are absent.

  A member may be required or optional.  An optional member counts as absent
  when it is null, and is left out in writing when it has no value.
-/

import HeadlessEditor.Json.Basic

namespace HeadlessEditor

/-- A type with a JSON form.  Reading refuses, by `none`, what is not of that form. -/
class Wire (α : Type) where
  encode : α → Json
  decode : Json → Option α

export Wire (encode decode)

namespace Json

-- ============================================================================
-- Values without structure
-- ============================================================================

instance : Wire Json :=
  ⟨id, some⟩

instance : Wire String where
  encode := .str
  decode
    | .str s => some s
    | _ => none

instance : Wire Bool where
  encode := .bool
  decode
    | .bool b => some b
    | _ => none

/-- An integer within the range of the type. -/
instance : Wire UInt32 where
  encode n := .int n.toNat
  decode
    | .int i => if 0 ≤ i ∧ i < 4294967296 then some (UInt32.ofNat i.toNat) else none
    | _ => none

/-- An integer within the range of the type. -/
instance : Wire Int32 where
  encode n := .int n.toInt
  decode
    | .int i => if -2147483648 ≤ i ∧ i < 2147483648 then some (Int32.ofInt i) else none
    | _ => none

instance {α : Type} [Wire α] : Wire (List α) where
  encode xs := .arr (xs.map encode)
  decode
    | .arr elements => elements.mapM decode
    | _ => none

-- ============================================================================
-- Records
-- ============================================================================

/-- Members by their keys. -/
abbrev Members := List (String × Json)

/-- The members of a record with the given keys. -/
def members? (keys : List String) : Json → Option Members
  | .obj members => some members
  | .arr values => if values.length ≤ keys.length then some (keys.zip values) else none
  | _ => none

def Members.required {α : Type} [Wire α] (m : Members) (key : String) : Option α :=
  (m.lookup key).bind decode

def Members.optional {α : Type} [Wire α] (m : Members) (key : String) : Option (Option α) :=
  match m.lookup key with
  | none | some .null => some none
  | some j => (decode j).map some

/-- The value of a member with a default.  Only absence calls for the default; null does not. -/
def Members.withDefault {α : Type} [Wire α] (m : Members) (key : String) (default : α) :
    Option α :=
  match m.lookup key with
  | none => some default
  | some j => decode j

def member {α : Type} [Wire α] (key : String) (value : α) : Members :=
  [(key, encode value)]

def member? {α : Type} [Wire α] (key : String) (value : Option α) : Members :=
  match value with
  | some v => member key v
  | none => []

/-- A record in writing. -/
def record (members : List Members) : Json :=
  .obj members.flatten

end Json

end HeadlessEditor
