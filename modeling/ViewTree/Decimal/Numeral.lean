import ViewTree.Decimal.Double

/-!
# Reading decimal numerals

A numeral is an optional sign, digits with an optional point among, before or after them, and an
optional power of ten.  It denotes the number nearest to its exact value.
-/

namespace ViewTree

namespace Numeral

/-- The value of a decimal digit. -/
def digit? (c : Char) : Option Nat :=
  if '0' ≤ c ∧ c ≤ '9' then some (c.toNat - '0'.toNat) else none

/-- The leading digits of a text and what follows them. -/
def digitRun : List Char → List Nat × List Char
  | [] => ([], [])
  | c :: cs =>
    match digit? c with
    | some d =>
      let (digits, rest) := digitRun cs
      (d :: digits, rest)
    | none => ([], c :: cs)

/-- The number a digit sequence denotes. -/
def digitsValue (digits : List Nat) : Nat :=
  digits.foldl (fun value d => 10 * value + d) 0

/-- A sign, if there is one: whether it is a minus, and what follows. -/
def sign : List Char → Bool × List Char
  | '-' :: cs => (true, cs)
  | '+' :: cs => (false, cs)
  | cs => (false, cs)

/-- The power of ten at the end of a numeral, which must be the whole rest of the text; none when
the text is something else. -/
def power? : List Char → Option Int
  | [] => some 0
  | c :: cs =>
    if c = 'e' ∨ c = 'E' then
      let (negative, cs) := sign cs
      match digitRun cs with
      | ([], _) => none
      | (digits, []) => some (if negative then -digitsValue digits else digitsValue digits)
      | _ => none
    else none

/-- The number nearest to `digits * 10 ^ power`; none beyond the greatest number.  A power that
puts the value outside every number's reach is settled without computing it. -/
def scaled (negative : Bool) (digits : Nat) (power : Int) : Option Double :=
  let reach : Int := Nat.log2 digits + 1
  if digits = 0 then some (Double.zero negative)
  else if 400 < power then none
  else if power < -(400 + reach) then some (Double.zero negative)
  else Double.nearest negative (digits * tenPow power.toNat) (tenPow (-power).toNat)

/-- The finite number a whole text denotes, if it is a numeral in range. -/
def read? (cs : List Char) : Option Double :=
  let (negative, cs) := sign cs
  let (whole, cs) := digitRun cs
  let (fraction, cs) :=
    match cs with
    | '.' :: cs => digitRun cs
    | cs => ([], cs)
  if whole.isEmpty && fraction.isEmpty then none
  else do
    let power ← power? cs
    scaled negative (digitsValue (whole ++ fraction)) (power - fraction.length)

/-- The natural number a text of digits denotes, an optional plus sign before them, when it is
below `2 ^ 64`. -/
def index? (cs : List Char) : Option Nat :=
  let cs := match cs with
    | '+' :: cs => cs
    | cs => cs
  match digitRun cs with
  | ([], _) => none
  | (digits, []) => if digitsValue digits < twoPow 64 then some (digitsValue digits) else none
  | _ => none

end Numeral

end ViewTree
