import ViewTree.Json.Describe

/-!
# What can be wrong with a configuration

A configuration fails to be read because of its text or because of its meaning; the second kind
has a message.
-/

namespace ViewTree

/-- What is wrong with the meaning of a configuration. -/
inductive Problem where
  | missingField (name : String)
  | duplicateField (name : String)
  /-- A name that is none of the expected ones. -/
  | unknownVariant (name : String) (expected : List String)
  /-- A value of one type where another is wanted. -/
  | wrongType (found wanted : String)
  /-- A value of the right type that still does not do. -/
  | wrongValue (found wanted : String)
  /-- A list of the wrong length. -/
  | wrongLength (length : Nat) (wanted : String)
  /-- A value that fits no form of a type. -/
  | noForm (type : String)
deriving DecidableEq, Repr

/-- The message for a problem. -/
def Problem.message : Problem → String
  | missingField name => "missing field " ++ marked name
  | duplicateField name => "duplicate field " ++ marked name
  | unknownVariant name expected =>
    "unknown variant " ++ marked name ++ ", expected one of "
      ++ ", ".intercalate (expected.map marked)
  | wrongType found wanted => "invalid type: " ++ found ++ ", expected " ++ wanted
  | wrongValue found wanted => "invalid value: " ++ found ++ ", expected " ++ wanted
  | wrongLength length wanted => "invalid length " ++ toString length ++ ", expected " ++ wanted
  | noForm type => "data did not match any variant of untagged enum " ++ type

/-- Why something could not be decoded. -/
inductive DecodeError where
  /-- Its text is no JSON. -/
  | text (fault : Fault)
  /-- It does not mean what it should. -/
  | data (problem : Problem)
deriving DecidableEq, Repr

namespace DecodeError

/-- The name of the category of an error. -/
def category : DecodeError → String
  | text .malformed => "syntax"
  | text .truncated => "eof"
  | data _ => "data"

/-- The message of an error of meaning; an error of text has none. -/
def message? : DecodeError → Option String
  | text _ => none
  | data problem => some problem.message

end DecodeError

/-- The result of decoding. -/
abbrev Decode := Except DecodeError

namespace Decode

/-- Fails because of a problem. -/
def fail {α : Type} (problem : Problem) : Decode α := .error (.data problem)

/-- Passes on a fault of the text. -/
def lift {α : Type} (result : Except Fault α) : Decode α := result.mapError .text

/-- Fails on a draft that should have been something else. -/
def wrongType {α : Type} (draft : Draft) (wanted : String) : Decode α :=
  match draft with
  | .broken fault _ _ => .error (.text fault)
  | draft =>
    match draft.describe? with
    | some found => fail (.wrongType found wanted)
    | none => .error (.text .malformed)

end Decode

end ViewTree
