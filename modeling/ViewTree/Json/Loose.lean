import ViewTree.Decimal.Numeral
import ViewTree.Json.Printer
import ViewTree.Text.Blank

/-!
# Loose readings of a value

How configuration treats a value that stands for a flag, a text or a number.
-/

namespace ViewTree

namespace Json

/-- Whether a value counts as set: everything except `null`, `false`, zero and the empty text.
Empty arrays and objects count. -/
def truthy : Json → Bool
  | .null => false
  | .bool b => b
  | .number n => !n.isZero
  | .text s => !s.isEmpty
  | .array _ => true
  | .object _ => true

mutual

/-- The display text of a value.  A string is its own text and `null` has none; the items of an
array are joined by commas, and an object shows as compact JSON. -/
def display : Json → String
  | .null => ""
  | .bool b => if b then "true" else "false"
  | .number n => n.text
  | .text s => s
  | .array items => ",".intercalate (displayItems items)
  | .object fields => compact (.object fields)

/-- The display texts of a list of values. -/
def displayItems : List Json → List String
  | [] => []
  | item :: items => display item :: displayItems items

end

/-- The number a text stands for: zero when it is blank, none when it is not a numeral. -/
def numberOfText (s : String) : Option Double :=
  match Text.trim s.toList with
  | [] => some (.zero false)
  | cs => Numeral.read? cs

/-- The number a value stands for, if there is one.  A list of one item stands for what its item
does. -/
def numeric : Json → Option Double
  | .null => some (.zero false)
  | .bool b => some (.ofInt (if b then 1 else 0))
  | .number n => some n.toDouble
  | .text s => numberOfText s
  | .array [] => some (.zero false)
  | .array [item] => numeric item
  | .array _ => none
  | .object _ => none

end Json

/-- Whether a value is present and counts as set. -/
def truthyOption (value : Option Json) : Bool :=
  value.any Json.truthy

/-- The display text of a value; none for an absent one. -/
def displayOption (value : Option Json) : String :=
  (value.map Json.display).getD ""

end ViewTree
