/-
  HeadlessEditor.State.Extension

  What a state is configured with: languages and state fields, in lists that
  may be nested to any depth.  Only the order of the leaves counts.  The last
  language is the active one, and of several instances of one kind of field
  the last one is installed.
-/

namespace HeadlessEditor

/-- A language by its name, which may be empty. -/
structure Language where
  name : String
deriving DecidableEq, Repr

/-- The kinds of state field an editor knows: what an instance of each is configured with, and
what it computes. -/
class FieldSignature (κ : Type) where
  Config : κ → Type
  Value : κ → Type

export FieldSignature (Config Value)

/-- An instance of a kind of field. -/
structure Field (κ : Type) [FieldSignature κ] where
  kind : κ
  config : Config kind

/-- A piece of configuration. -/
inductive Extension (κ : Type) [FieldSignature κ] where
  | language (language : Language)
  | field (field : Field κ)
  | group (members : List (Extension κ))

namespace Extension

variable {κ : Type} [FieldSignature κ]

mutual

/-- The languages in an extension, from left to right. -/
def languages : Extension κ → List Language
  | .language l => [l]
  | .field _ => []
  | .group members => languagesOfAll members

def languagesOfAll : List (Extension κ) → List Language
  | [] => []
  | e :: rest => languages e ++ languagesOfAll rest

end

mutual

/-- The fields in an extension, from left to right. -/
def fields : Extension κ → List (Field κ)
  | .language _ => []
  | .field f => [f]
  | .group members => fieldsOfAll members

def fieldsOfAll : List (Extension κ) → List (Field κ)
  | [] => []
  | e :: rest => fields e ++ fieldsOfAll rest

end

/-- The language a configuration makes active. -/
def activeLanguage (extensions : List (Extension κ)) : Option Language :=
  (languagesOfAll extensions).getLast?

/-- The last instance of each kind among fields. -/
def lastOfEachKind [DecidableEq κ] : List (Field κ) → List (Field κ)
  | [] => []
  | f :: rest =>
      if rest.any (·.kind = f.kind) then lastOfEachKind rest else f :: lastOfEachKind rest

/-- The fields a configuration installs. -/
def installed [DecidableEq κ] (extensions : List (Extension κ)) : List (Field κ) :=
  lastOfEachKind (fieldsOfAll extensions)

end Extension

end HeadlessEditor
