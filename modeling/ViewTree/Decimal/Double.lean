import ViewTree.Arithmetic

/-!
# Double-precision numbers

Finite binary floating-point numbers as exact data: a sign, a significand and an exponent of two.
`Double.nearest` rounds a fraction to the nearest number, ties to the even significand, so every
operation that must round is an exact computation on natural numbers followed by one rounding.
-/

namespace ViewTree

/-- The number `significand * 2 ^ exponent`, negated when `negative` holds.

The numbers built here are normal: the significand has 53 bits, or fewer with the exponent at its
least value, so distinct structures are distinct numbers except for the two zeros. -/
structure Double where
  negative : Bool
  significand : Nat
  exponent : Int
deriving DecidableEq, Repr, Inhabited

namespace Double

/-- The least exponent. -/
def minExponent : Int := -1074

/-- The greatest exponent. -/
def maxExponent : Int := 971

/-- Zero with a sign. -/
def zero (negative : Bool) : Double := ⟨negative, 0, minExponent⟩

/-- The quotient rounded to the nearest natural number, a tie to the even one. -/
def divideEven (num den : Nat) : Nat :=
  let quotient := num / den
  let twice := 2 * (num % den)
  if twice < den then quotient
  else if den < twice then quotient + 1
  else quotient + quotient % 2

/-- `num / den` divided by `2 ^ exponent`, as a fraction. -/
def scaleDown (num den : Nat) (exponent : Int) : Nat × Nat :=
  (num * twoPow (-exponent).toNat, den * twoPow exponent.toNat)

/-- The exponent at which the significand of `num / den` has 53 bits, or the least exponent. -/
def exponentFor (num den : Nat) : Int :=
  let guess : Int := (Nat.log2 num : Int) - (Nat.log2 den : Int) - 52
  let (n, d) := scaleDown num den guess
  max minExponent (if n / d < twoPow 52 then guess - 1 else guess)

/-- The number nearest to `num / den`, with a sign; none when it is beyond the greatest number. -/
def nearest (negative : Bool) (num den : Nat) : Option Double :=
  if num = 0 then some (zero negative)
  else
    let exponent := exponentFor num den
    let (n, d) := scaleDown num den exponent
    let significand := divideEven n d
    let rounded : Double :=
      if significand = twoPow 53 then ⟨negative, twoPow 52, exponent + 1⟩
      else ⟨negative, significand, exponent⟩
    if maxExponent < rounded.exponent then none else some rounded

/-- The magnitude as a fraction. -/
def magnitude (x : Double) : Nat × Nat :=
  (x.significand * twoPow x.exponent.toNat, twoPow (-x.exponent).toNat)

/-- Whether the number is zero, of either sign. -/
def isZero (x : Double) : Bool := x.significand == 0

/-- The number with the opposite sign. -/
def neg (x : Double) : Double := { x with negative := !x.negative }

/-- The nearest number to an integer; integers of 64 bits are all in range. -/
def ofInt (n : Int) : Double :=
  (nearest (n < 0) n.natAbs 1).getD (zero (n < 0))

/-- The rounded product; none beyond the greatest number. -/
def mul (x y : Double) : Option Double :=
  let (a, b) := x.magnitude
  let (c, d) := y.magnitude
  nearest (x.negative != y.negative) (a * c) (b * d)

/-- The rounded quotient by a positive number; none beyond the greatest number. -/
def div (x y : Double) : Option Double :=
  let (a, b) := x.magnitude
  let (c, d) := y.magnitude
  nearest (x.negative != y.negative) (a * d) (b * c)

/-- Whether the number has no fractional part. -/
def isWhole (x : Double) : Bool :=
  let (num, den) := x.magnitude
  num % den == 0

/-- The number with its fractional part dropped. -/
def truncate (x : Double) : Int :=
  let (num, den) := x.magnitude
  if x.negative then -((num / den : Nat) : Int) else (num / den : Nat)

/-- The magnitude rounded to the nearest natural number, a half upwards. -/
def roundMagnitude (x : Double) : Nat :=
  let (num, den) := x.magnitude
  (2 * num + den) / (2 * den)

/-- Equality of values: the two zeros are equal. -/
def same (x y : Double) : Bool :=
  (x.isZero && y.isZero) || x == y

end Double

end ViewTree
