import ViewTree.Decimal.Shortest

/-!
# Text with a fixed number of decimals

The exact value of a number rounded to a given number of decimals, ties to the even last digit.
-/

namespace ViewTree

/-- A natural number padded with zeros to at least `width` digits. -/
def padDigits (width n : Nat) : List Char :=
  let digits := Decimal.digitChars n
  List.replicate (width - digits.length) '0' ++ digits

namespace Double

/-- The number with `places` decimals, for `places` at least one.  The sign of a negative number
stays when all digits round to zero. -/
def fixedText (places : Nat) (x : Double) : List Char :=
  let (num, den) := x.magnitude
  let scaled := divideEven (num * tenPow places) den
  (if x.negative then ['-'] else []) ++ Decimal.digitChars (scaled / tenPow places)
    ++ '.' :: padDigits places (scaled % tenPow places)

end Double

end ViewTree
