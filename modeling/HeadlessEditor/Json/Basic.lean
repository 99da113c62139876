/-
  HeadlessEditor.Json.Basic

  JSON values.  Integers are kept apart from numbers written with a fraction
  or an exponent, since the protocol takes the former only.
-/

namespace HeadlessEditor

inductive Json where
  | null
  | bool (value : Bool)
  | int (value : Int)
  /-- The number `mantissa / 10 ^ places`, not written as an integer. -/
  | decimal (mantissa : Int) (places : Nat)
  | str (value : String)
  | arr (elements : List Json)
  | obj (members : List (String × Json))
deriving Repr, Inhabited

end HeadlessEditor
