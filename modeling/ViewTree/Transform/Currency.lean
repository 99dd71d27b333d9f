import ViewTree.Decimal.Fixed

/-!
# Amounts of money

Dollars with two decimals and a comma before every third digit from the right.
-/

namespace ViewTree

namespace Currency

/-- The digits with a comma before each one that has a multiple of three after it, itself
included, except the first. -/
def groupFrom : Bool → List Char → List Char
  | _, [] => []
  | first, d :: digits =>
    let comma := if !first && (digits.length + 1) % 3 == 0 then [','] else []
    comma ++ d :: groupFrom false digits

/-- A natural number with its digits in groups of three. -/
def grouped (n : Nat) : List Char :=
  groupFrom true (Decimal.digitChars n)

/-- The text of an amount in cents; no minus goes before a zero amount. -/
def ofCents (negative : Bool) (cents : Nat) : String :=
  let sign := if negative && 0 < cents then ['-'] else []
  String.ofList (sign ++ '$' :: grouped (cents / 100) ++ '.' :: padDigits 2 (cents % 100))

/-- The greatest amount of cents that is told apart from greater ones. -/
def maxCents : Nat := twoPow 128 - 1

/-- A number of dollars in cents, to the nearest cent.  The product is rounded to a double first. -/
def centsOf (amount : Double) : Nat :=
  match ({ amount with negative := false } : Double).mul (.ofInt 100) with
  | some cents => min cents.roundMagnitude maxCents
  | none => maxCents

/-- The text of a number of dollars. -/
def text (amount : Double) : String :=
  ofCents amount.negative (centsOf amount)

end Currency

end ViewTree
