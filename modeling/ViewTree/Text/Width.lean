import ViewTree.Arithmetic
import ViewTree.Text.Casing
import ViewTree.Text.WidthTable

/-!
# Columns of text

A terminal shows text as symbols, each a character with the marks over it, in one column or two.
-/

namespace ViewTree.Text

/-- The number of columns a character takes. -/
def charWidth (c : Char) : Nat :=
  if c.toNat < 0x300 then 1
  else if inRanges zeroWidthRanges c.toNat then 0
  else if inRanges doubleWidthRanges c.toNat then 2
  else 1

/-- A character with the marks over it. -/
abbrev Symbol := List Char

/-- The number of columns a symbol takes. -/
def symbolWidth (symbol : Symbol) : Nat :=
  (symbol.map charWidth).foldl max 0

/-- The symbols of a text: a character without width goes with the one before it. -/
def symbols : List Char → List Symbol
  | [] => []
  | c :: cs =>
    match symbols cs with
    | [] => [[c]]
    | symbol :: rest =>
      match symbol with
      | d :: _ => if charWidth d = 0 then (c :: symbol) :: rest else [c] :: symbol :: rest
      | [] => [c] :: rest

/-- Whether a character is a control. -/
def isControl (c : Char) : Bool :=
  c.toNat < 0x20 || (0x7F ≤ c.toNat && c.toNat < 0xA0)

/-- The symbols of a text that a terminal draws. -/
def drawnSymbols (s : String) : List Symbol :=
  (symbols s.toList).filter fun symbol => !symbol.any isControl

/-- The number of columns a list of symbols takes. -/
def columns (symbols : List Symbol) : Nat :=
  total symbolWidth symbols

end ViewTree.Text
