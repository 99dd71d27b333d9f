import ViewTree.Decimal.Double

/-!
# The shortest decimal text of a number

Among the decimals that read back as a given number, the text uses one with the fewest digits, and
of those the nearest to the number.  Numbers of moderate size are written plainly, with at least
one decimal; the others with an exponent.
-/

namespace ViewTree

/-- `digits * 10 ^ exponent`. -/
structure Decimal where
  digits : Nat
  exponent : Int
deriving DecidableEq, Repr

namespace Decimal

/-- The value as a fraction. -/
def fraction (d : Decimal) : Nat × Nat :=
  (d.digits * tenPow d.exponent.toNat, tenPow (-d.exponent).toNat)

/-- The text of a natural number as characters. -/
def digitChars (n : Nat) : List Char := Nat.toDigits 10 n

/-- The text of the decimal: plain between `0.00001` and `10 ^ 16`, with an exponent elsewhere. -/
def text (d : Decimal) : List Char :=
  let digits := digitChars d.digits
  let point : Int := digits.length + d.exponent
  if 0 < point ∧ point ≤ 16 then
    if 0 ≤ d.exponent then digits ++ List.replicate d.exponent.toNat '0' ++ ['.', '0']
    else digits.take point.toNat ++ '.' :: digits.drop point.toNat
  else if -5 < point ∧ point ≤ 0 then
    ['0', '.'] ++ List.replicate (-point).toNat '0' ++ digits
  else
    let fraction := if digits.length = 1 then [] else '.' :: digits.drop 1
    let power := point - 1
    let sign := if power < 0 then '-' else '+'
    digits.take 1 ++ fraction ++ 'e' :: sign :: digitChars power.natAbs

end Decimal

namespace Double

/-- The magnitudes that round to a given number: from `low` to `high` over the common denominator
`den`, with `mid` the magnitude of the number itself.  The ends belong to it when `closed` holds. -/
structure Interval where
  low : Nat
  mid : Nat
  high : Nat
  den : Nat
  closed : Bool

/-- The rounding interval of a nonzero number.  Below a power of two the numbers are twice as
dense, so there the lower end is nearer. -/
def interval (x : Double) : Interval :=
  let unit := twoPow x.exponent.toNat
  let m := x.significand
  let below := if m = twoPow 52 ∧ minExponent < x.exponent then 1 else 2
  { low := (4 * m - below) * unit
    mid := 4 * m * unit
    high := (4 * m + 2) * unit
    den := 4 * twoPow (-x.exponent).toNat
    closed := m % 2 == 0 }

/-- Whether a decimal lies in the interval. -/
def Interval.contains (i : Interval) (d : Decimal) : Bool :=
  let (n, den) := d.fraction
  let value := n * i.den
  if i.closed then i.low * den ≤ value && value ≤ i.high * den
  else i.low * den < value && value < i.high * den

/-- How far a decimal is from the middle of the interval, up to the common factor of the decimals
with the same exponent. -/
def Interval.distance (i : Interval) (d : Decimal) : Nat :=
  let (n, den) := d.fraction
  (n * i.den - i.mid * den) + (i.mid * den - n * i.den)

/-- The greatest `k` with `10 ^ k ≤ num / den`, for a nonzero fraction. -/
def decimalPosition (num den : Nat) : Int :=
  let guess : Int := (((Nat.log2 num : Int) - Nat.log2 den) * 30103) / 100000
  let reaches (k : Int) : Bool := den * tenPow k.toNat ≤ num * tenPow (-k).toNat
  if reaches (guess + 1) then guess + 1
  else if reaches guess then guess
  else guess - 1

/-- The nearest decimal in the interval among the two neighbours with the last digit at
`10 ^ exponent`, the even one when both are equally near. -/
def Interval.candidate (i : Interval) (exponent : Int) : Option Decimal :=
  let below : Decimal :=
    ⟨i.mid * tenPow (-exponent).toNat / (i.den * tenPow exponent.toNat), exponent⟩
  let above : Decimal := ⟨below.digits + 1, exponent⟩
  match i.contains below && below.digits != 0, i.contains above with
  | true, true =>
    let toBelow := i.distance below
    let toAbove := i.distance above
    if toBelow < toAbove then some below
    else if toAbove < toBelow then some above
    else if below.digits % 2 = 0 then some below
    else some above
  | true, false => some below
  | false, true => some above
  | false, false => none

/-- The first decimal found, with one digit and then one more for each unit of `fuel`. -/
def Interval.search (i : Interval) (exponent : Int) : Nat → Decimal
  | 0 => ⟨0, 0⟩
  | fuel + 1 =>
    match i.candidate exponent with
    | some d => d
    | none => i.search (exponent - 1) fuel

/-- The decimal with trailing zeros moved into the exponent. -/
def dropZeros (d : Decimal) : Nat → Decimal
  | 0 => d
  | fuel + 1 =>
    if d.digits % 10 = 0 ∧ d.digits ≠ 0 then dropZeros ⟨d.digits / 10, d.exponent + 1⟩ fuel else d

/-- The shortest decimal that reads back as the magnitude of the number.  Seventeen digits always
suffice. -/
def shortest (x : Double) : Decimal :=
  if x.isZero then ⟨0, 0⟩
  else
    let (num, den) := x.magnitude
    dropZeros (x.interval.search (decimalPosition num den) 18) 18

/-- The text of the number. -/
def text (x : Double) : String :=
  String.ofList ((if x.negative then ['-'] else []) ++ x.shortest.text)

end Double

end ViewTree
