import ViewTree.Json.Loose
import ViewTree.State.Path
import ViewTree.Text.Casing
import ViewTree.Transform.Currency
import ViewTree.Transform.DateText

/-!
# The built-in transforms

Each is a total function on values; what it cannot make sense of gives its fallback.
-/

namespace ViewTree

namespace Transform

/-- A number as a value: an integer when it is whole and has at most 63 bits. -/
def ofDouble (x : Double) : Json :=
  if x.isWhole && x.truncate.natAbs < twoPow 63 then .int x.truncate else .number (.double x)

/-- The first of the named fields that counts as set. -/
def firstSet (names : List String) (item : Json) : Option Json :=
  (names.filterMap fun name => item.get? name).find? Json.truthy

/-- A choice: the label is the item's name or label, else its text; the value is its id or value,
else the item itself. -/
def option (item : Json) : Json :=
  .object
    [("label", (firstSet ["name", "label"] item).getD (.text item.display)),
     ("value", (firstSet ["id", "value"] item).getD item)]

/-- The choices for the items of a list; none for other values. -/
def toOptions : Json → Json
  | .array items => .array (items.map option)
  | _ => .array []

/-- The display text. -/
def toText (value : Json) : Json := .text value.display

/-- The number, or zero. -/
def toNumber (value : Json) : Json := ofDouble (value.numeric.getD (.zero false))

/-- The greatest number of milliseconds that is told apart from greater ones. -/
def maxMillis : Int := twoPow 63 - 1

/-- A number of milliseconds limited to 64 bits. -/
def millisOf : Number → Int
  | .int n => min n maxMillis
  | .double x => max (-maxMillis - 1) (min x.truncate maxMillis)

/-- The date a value names: milliseconds from the start of 1970, or a written date. -/
def dateOf? : Json → Option Date
  | .number n => Date.ofDays? (millisOf n / 86400000)
  | .text s => DateText.read? s
  | _ => none

/-- The date as month, day and year; today's when the value names none. -/
def toDate (today : Date) (value : Json) : Json :=
  .text ((dateOf? value).getD today).text

/-- A function on texts, applied to the display text. -/
def onText (f : List Char → List Char) (value : Json) : Json :=
  .text (String.ofList (f value.display.toList))

/-- Whether the value counts as set. -/
def toBoolean (value : Json) : Json := .bool value.truthy

/-- The amount in dollars; a value that is no number counts as zero. -/
def toCurrency (value : Json) : Json :=
  .text (match value.numeric with
    | some amount => Currency.text amount
    | none => "$0.00")

/-- JSON text over several lines. -/
def toJsonText (value : Json) : Json := .text value.pretty

/-- The array itself, or a value that counts as set alone in one. -/
def toArray : Json → Json
  | .array items => .array items
  | value => .array (if value.truthy then [value] else [])

/-- The number with two decimals. -/
def toFixed (value : Json) : Json :=
  .text (String.ofList ((value.numeric.getD (.zero false)).fixedText 2))

/-- The text of a number of hundredths with one decimal.  Beyond the greatest number it is
infinite. -/
def percentText (x : Double) : String :=
  match x.mul (.ofInt 100) with
  | some hundredths => String.ofList (hundredths.fixedText 1) ++ "%"
  | none => if x.negative then "-inf%" else "inf%"

/-- The number as a percentage. -/
def toPercent (value : Json) : Json :=
  .text (percentText (value.numeric.getD (.zero false)))

/-- The built-in transforms by name. -/
def builtin (today : Date) : List (String × (Json → Json)) :=
  [("toOptions", toOptions),
   ("toString", toText),
   ("toNumber", toNumber),
   ("toDate", toDate today),
   ("toUpperCase", onText Text.upper),
   ("toLowerCase", onText Text.lower),
   ("toBoolean", toBoolean),
   ("toCurrency", toCurrency),
   ("toJSON", toJsonText),
   ("toArray", toArray),
   ("toFixed", toFixed),
   ("toPercent", toPercent)]

end Transform

end ViewTree
