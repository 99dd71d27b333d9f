import ViewTree.Decimal.Shortest
import ViewTree.Json.Basic

/-!
# Writing JSON text

Compact text, and text laid out over lines with two blanks for each level.
-/

namespace ViewTree

/-- The text of a number. -/
def Number.text : Number → String
  | .int n => toString n
  | .double x => x.text

namespace Json

/-- A base-sixteen digit. -/
def hexDigit (n : Nat) : Char :=
  Char.ofNat (if n < 10 then n + 48 else n + 87)

/-- A character as it appears inside a JSON string. -/
def escaped (c : Char) : List Char :=
  if c = '"' || c = '\\' then ['\\', c]
  else if c.toNat < 0x20 then
    if c = '\n' then ['\\', 'n']
    else if c = '\r' then ['\\', 'r']
    else if c = '\t' then ['\\', 't']
    else if c.toNat = 0x08 then ['\\', 'b']
    else if c.toNat = 0x0C then ['\\', 'f']
    else ['\\', 'u', '0', '0', hexDigit (c.toNat / 16), hexDigit (c.toNat % 16)]
  else [c]

/-- A JSON string. -/
def stringText (s : String) : String :=
  String.ofList ('"' :: s.toList.flatMap escaped ++ ['"'])

mutual

/-- The compact text of a value. -/
def compact : Json → String
  | .null => "null"
  | .bool b => if b then "true" else "false"
  | .number n => n.text
  | .text s => stringText s
  | .array items => "[" ++ ",".intercalate (compactItems items) ++ "]"
  | .object fields => "\x7b" ++ ",".intercalate (compactFields fields) ++ "\x7d"

/-- The compact texts of a list of values. -/
def compactItems : List Json → List String
  | [] => []
  | item :: items => compact item :: compactItems items

/-- The compact texts of the entries of an object. -/
def compactFields : List (String × Json) → List String
  | [] => []
  | (name, value) :: fields => (stringText name ++ ":" ++ compact value) :: compactFields fields

end

/-- A line break and the blanks of a level. -/
def lineBreak (level : Nat) : String :=
  String.ofList ('\n' :: List.replicate (2 * level) ' ')

/-- Brackets around parts, each part on a line of its own one level further in; nothing between the
brackets when there are no parts. -/
def bracketed (opening closing : String) (level : Nat) : List String → String
  | [] => opening ++ closing
  | parts =>
    let inner := lineBreak (level + 1)
    opening ++ inner ++ ("," ++ inner).intercalate parts ++ lineBreak level ++ closing

mutual

/-- The text of a value over several lines, when it starts at a level. -/
def prettyAt (level : Nat) : Json → String
  | .null => "null"
  | .bool b => if b then "true" else "false"
  | .number n => n.text
  | .text s => stringText s
  | .array items => bracketed "[" "]" level (prettyItems (level + 1) items)
  | .object fields => bracketed "\x7b" "\x7d" level (prettyFields (level + 1) fields)

/-- The texts of a list of values. -/
def prettyItems (level : Nat) : List Json → List String
  | [] => []
  | item :: items => prettyAt level item :: prettyItems level items

/-- The texts of the entries of an object. -/
def prettyFields (level : Nat) : List (String × Json) → List String
  | [] => []
  | (name, value) :: fields =>
    (stringText name ++ ": " ++ prettyAt level value) :: prettyFields level fields

end

/-- The text of a value over several lines. -/
def pretty (value : Json) : String := prettyAt 0 value

end Json

end ViewTree
