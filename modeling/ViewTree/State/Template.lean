import ViewTree.Json.Loose
import ViewTree.State.Path

/-!
# Templates

A template is a text with holes `${…}`.  `scan` reads it into pieces in one pass from left to
right; `expand` fills the holes from a scope: the state, the item of a repetition and the event
being handled.  What fills a hole is not read again.
-/

namespace ViewTree

/-- What a template may refer to. -/
structure Scope where
  state : Option Fields := none
  item : Option Json := none
  event : Option Json := none

namespace Template

/-- A piece of a template: a character that stands for itself, or a hole and what it names. -/
inductive Piece where
  | literal (c : Char)
  | hole (body : List Char)
deriving DecidableEq, Repr

/-- The two characters that open a hole. -/
def opening : List Char := ['$', '\x7b']

/-- The pieces of a template.  `body` holds what was read of an open hole, last character first.
A hole ends at the first closing brace; one that is empty, or that the text ends in, is no hole
and stands for itself. -/
def scanFrom : Option (List Char) → List Char → List Piece
  | none, '$' :: '\x7b' :: cs => scanFrom (some []) cs
  | none, c :: cs => .literal c :: scanFrom none cs
  | none, [] => []
  | some body, '\x7d' :: cs =>
    match body with
    | [] => (opening ++ ['\x7d']).map .literal ++ scanFrom none cs
    | _ => .hole body.reverse :: scanFrom none cs
  | some body, c :: cs => scanFrom (some (c :: body)) cs
  | some body, [] => (opening ++ body.reverse).map .literal

/-- The pieces of a template. -/
def scan (template : String) : List Piece :=
  scanFrom none template.toList

end Template

namespace Scope

/-- The value in the state at a dotted path. -/
def stateValue (scope : Scope) (path : String) : Option Json :=
  scope.state.bind (Fields.lookup? (Path.ofString path))

/-- The value a hole names, if there is one. -/
def resolve (scope : Scope) (body : List Char) : Option Json :=
  match Text.stripLead "state.".toList body with
  | some path => scope.stateValue (String.ofList path)
  | none =>
    match Text.stripLead "item.".toList body with
    | some path => scope.item.bind (Json.lookup? (String.ofList path))
    | none =>
      if body = "item".toList then scope.item
      else
        match Text.stripLead "event.".toList body with
        | some path => scope.event.bind (Json.lookup? (String.ofList path))
        | none => none

/-- The text of a piece: a hole shows the value it names, or nothing. -/
def fill (scope : Scope) : Template.Piece → List Char
  | .literal c => [c]
  | .hole body => (displayOption (scope.resolve body)).toList

/-- The template with every hole filled. -/
def expand (scope : Scope) (template : String) : String :=
  String.ofList ((Template.scan template).flatMap scope.fill)

mutual

/-- The value with every text in it expanded, at any depth; the names of fields are kept. -/
def expandIn (scope : Scope) : Json → Json
  | .text s => .text (scope.expand s)
  | .array items => .array (expandItems scope items)
  | .object fields => .object (expandFields scope fields)
  | .null => .null
  | .bool b => .bool b
  | .number n => .number n

/-- `expandIn` on every value of a list. -/
def expandItems (scope : Scope) : List Json → List Json
  | [] => []
  | item :: items => expandIn scope item :: expandItems scope items

/-- `expandIn` on the value of every entry. -/
def expandFields (scope : Scope) : List (String × Json) → List (String × Json)
  | [] => []
  | (name, value) :: fields => (name, expandIn scope value) :: expandFields scope fields

end

end Scope

end ViewTree
