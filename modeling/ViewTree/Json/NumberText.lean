import ViewTree.Decimal.Numeral
import ViewTree.Json.Draft

/-!
# Numbers in JSON text

A numeral without fraction and power that fits 64 bits is an integer.  Any other is a double found
from the leading digits that fit 64 bits and a power of ten, with one rounding for each of the
conversion and the scaling.
-/

namespace ViewTree

namespace Json

/-- The parts of a numeral as written. -/
structure Numeric where
  negative : Bool
  whole : List Nat
  fraction : Option (List Nat)
  power : Option (Bool × List Nat)

/-- The fault of a numeral that lacks a digit where the rest of the text stands: at the end of the
text it is cut short for a reader, and malformed for one who passes over it. -/
def lackingDigit (rest : List Char) : Draft :=
  .broken (if rest.isEmpty then .truncated else .malformed) .malformed .malformed

/-- The digits before the point: a zero alone, or digits that do not start with zero. -/
def wholeDigits (cs : List Char) : Except Draft (List Nat × List Char) :=
  match Numeral.digitRun cs with
  | ([], rest) => .error (lackingDigit rest)
  | (0 :: _ :: _, _) => .error (.broken .malformed .malformed .malformed)
  | (digits, rest) => .ok (digits, rest)

/-- The digits after a point, if there is a point. -/
def fractionDigits : List Char → Except Draft (Option (List Nat) × List Char)
  | '.' :: cs =>
    match Numeral.digitRun cs with
    | ([], rest) => .error (lackingDigit rest)
    | (digits, rest) => .ok (some digits, rest)
  | cs => .ok (none, cs)

/-- The sign and digits of a power of ten, if there is one. -/
def powerDigits : List Char → Except Draft (Option (Bool × List Nat) × List Char)
  | c :: cs =>
    if c = 'e' ∨ c = 'E' then
      let (negative, cs) := Numeral.sign cs
      match Numeral.digitRun cs with
      | ([], rest) => .error (lackingDigit rest)
      | (digits, rest) => .ok (some (negative, digits), rest)
    else .ok (none, c :: cs)
  | [] => .ok (none, [])

/-- Takes a numeral off the front of a text. -/
def takeNumeric (cs : List Char) : Except Draft (Numeric × List Char) := do
  let (negative, cs) := match cs with
    | '-' :: cs => (true, cs)
    | cs => (false, cs)
  let (whole, cs) ← wholeDigits cs
  let (fraction, cs) ← fractionDigits cs
  let (power, cs) ← powerDigits cs
  return (⟨negative, whole, fraction, power⟩, cs)

/-- Appends digits to a significand while it fits 64 bits; also how many of them it took. -/
def appendDigits (significand : Nat) : List Nat → Nat × Nat
  | [] => (significand, 0)
  | d :: digits =>
    if 10 * significand + d < twoPow 64 then
      let (value, taken) := appendDigits (10 * significand + d) digits
      (value, taken + 1)
    else (significand, 0)

/-- The greatest power of ten a double is multiplied or divided by at once. -/
def maxPower : Nat := 308

/-- Divides by `10 ^ power`, in steps of at most `10 ^ 308`; `steps` bounds their number, as a
number divided four times is zero. -/
def divideByPower (x : Double) (power : Nat) : Nat → Double
  | 0 => .zero x.negative
  | steps + 1 =>
    let divide (n : Nat) : Double :=
      (x.div ((Double.nearest false (tenPow n) 1).getD x)).getD x
    if x.isZero then x
    else if power ≤ maxPower then divide power
    else divideByPower (divide maxPower) (power - maxPower) steps

/-- The double for a significand of 64 bits and a power of ten, if it is in range. -/
def scaleSignificand (significand : Nat) (power : Int) : Option Double := do
  let x ← Double.nearest false significand 1
  if power < 0 then some (divideByPower x power.natAbs 4)
  else if power ≤ maxPower then
    let factor ← Double.nearest false (tenPow power.toNat) 1
    x.mul factor
  else if x.isZero then some x
  else none

/-- The greatest written power that is told apart from greater ones. -/
def maxWrittenPower : Nat := twoPow 31 - 1

/-- The double a numeral denotes, if it is in range. -/
def Numeric.toDouble? (numeral : Numeric) : Option Double := do
  let (significand, taken) := appendDigits 0 numeral.whole
  let dropped := numeral.whole.length - taken
  let (significand, decimals) := appendDigits significand (numeral.fraction.getD [])
  let start : Int := dropped - decimals
  let (negativePower, digits) := numeral.power.getD (false, [])
  let written := Numeral.digitsValue digits
  let magnitude ←
    if maxWrittenPower < written then
      if significand = 0 ∨ negativePower then some (Double.zero false) else none
    else scaleSignificand significand (if negativePower then start - written else start + written)
  return { magnitude with negative := numeral.negative }

/-- The number a numeral denotes, if it is in range. -/
def Numeric.toNumber? (numeral : Numeric) : Option Number :=
  let whole := Numeral.digitsValue numeral.whole
  let isInteger := numeral.fraction.isNone && numeral.power.isNone
  if isInteger && !numeral.negative && whole < twoPow 64 then some (.int whole)
  else if isInteger && numeral.negative && whole ≠ 0 && whole ≤ twoPow 63 then some (.int (-whole))
  else numeral.toDouble?.map .double

/-- Takes a number off the front of a text. -/
def takeNumber (cs : List Char) : Draft × Option (List Char) :=
  match takeNumeric cs with
  | .error draft => (draft, none)
  | .ok (numeral, rest) =>
    match numeral.toNumber? with
    | some n => (.number n, some rest)
    | none => (.unreadable, some rest)

end Json

end ViewTree
