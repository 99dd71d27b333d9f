import ViewTree.Decimal.Numeral
import ViewTree.Json.Basic
import ViewTree.Text.Split

/-!
# Dotted paths

A path names a place inside nested values by its segments.  Object members are found by name and
array items by a decimal index; writing goes through objects only.
-/

namespace ViewTree

/-- The segments of a dotted path.  There is always a first one, the empty text at least. -/
structure Path where
  head : String
  rest : List String
deriving DecidableEq, Repr

namespace Path

/-- The path a text denotes, cut at its dots. -/
def ofString (s : String) : Path :=
  match (Text.pieces '.' s.toList).map String.ofList with
  | [] => ⟨"", []⟩
  | head :: rest => ⟨head, rest⟩

/-- All segments of a path. -/
def segments (path : Path) : List String := path.head :: path.rest

end Path

namespace Json

/-- The value one segment further in. -/
def step? (segment : String) : Json → Option Json
  | .object fields => Fields.get? segment fields
  | .array items => (Numeral.index? segment.toList).bind fun i => items[i]?
  | _ => none

/-- The value at the end of a list of segments. -/
def walk? : List String → Json → Option Json
  | [], value => some value
  | segment :: segments, value => (step? segment value).bind (walk? segments)

/-- The value at a dotted path. -/
def lookup? (path : String) (value : Json) : Option Json :=
  walk? (Path.ofString path).segments value

end Json

namespace Fields

/-- The value at a path into an object's fields. -/
def lookup? (path : Path) (fields : Fields) : Option Json :=
  (get? path.head fields).bind (Json.walk? path.rest)

/-- Writes `value` at the end of the segments.  Whatever is not an object on the way is replaced
by one. -/
def write (value : Json) : String → List String → Fields → Fields
  | name, [], fields => insert name value fields
  | name, next :: rest, fields =>
    let inner := ((get? name fields).map Json.fieldsOrNone).getD []
    insert name (.object (write value next rest inner)) fields

/-- Removes the entry at the end of the segments, when objects lead there. -/
def remove : String → List String → Fields → Fields
  | name, [], fields => erase name fields
  | name, next :: rest, fields =>
    match get? name fields with
    | some (.object inner) => insert name (.object (remove next rest inner)) fields
    | _ => fields

/-- Whether objects lead to an entry at the end of the segments, so that `remove` takes it. -/
def removable : String → List String → Fields → Bool
  | name, [], fields => has name fields
  | name, next :: rest, fields =>
    match get? name fields with
    | some (.object inner) => removable next rest inner
    | _ => false

end Fields

end ViewTree
