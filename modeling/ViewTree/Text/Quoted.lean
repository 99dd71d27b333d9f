import ViewTree.Text.Casing
import ViewTree.Text.UnprintableTable

/-!
# Quoted text

A text between double quotes with everything invisible spelled out.  The quote and the backslash
are escaped, the common controls by letter and every other character that does not print by its
number in braces.
-/

namespace ViewTree.Text

/-- Whether a character stands for itself in a quoted text. -/
def isPrintable (c : Char) : Bool :=
  0x20 ≤ c.toNat && !inRanges unprintableRanges c.toNat

/-- The digits of a number in base sixteen. -/
def hexDigits (n : Nat) : List Char :=
  Nat.toDigits 16 n

/-- A character as it appears between the quotes. -/
def quotedChar (c : Char) : List Char :=
  if c = '\x00' then ['\\', '0']
  else if c = '\t' then ['\\', 't']
  else if c = '\r' then ['\\', 'r']
  else if c = '\n' then ['\\', 'n']
  else if c = '"' || c = '\\' then ['\\', c]
  else if isPrintable c then [c]
  else ['\\', 'u', '\x7b'] ++ hexDigits c.toNat ++ ['\x7d']

/-- The text in quotes. -/
def quoted (s : String) : String :=
  String.ofList ('"' :: s.toList.flatMap quotedChar ++ ['"'])

end ViewTree.Text
