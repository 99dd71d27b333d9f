import ViewTree.Text.Split

/-!
# Styled lines

Text for a terminal: lines made of spans, each in one style.
-/

namespace ViewTree.Terminal

/-- A colour of the text. -/
inductive Color where
  | red | green | yellow | magenta | cyan | darkGray
deriving DecidableEq, Repr

/-- The name of a colour. -/
def Color.name : Color → String
  | red => "Red"
  | green => "Green"
  | yellow => "Yellow"
  | magenta => "Magenta"
  | cyan => "Cyan"
  | darkGray => "DarkGray"

/-- How a span looks. -/
structure Style where
  color : Option Color := none
  bold : Bool := false
  reversed : Bool := false
deriving DecidableEq, Repr

namespace Style

/-- The usual look. -/
def plain : Style := {}

/-- In a colour. -/
def colored (color : Color) : Style := { color := some color }

/-- In a colour and bold. -/
def strong (color : Color) : Style := { color := some color, bold := true }

/-- The name of a style: its colour, and what is added to it. -/
def name (style : Style) : String :=
  (style.color.map Color.name).getD "" ++ (if style.bold then "+bold" else "")
    ++ (if style.reversed then "+reversed" else "")

end Style

/-- A stretch of text in one style. -/
structure Span where
  text : String
  style : Style := .plain
deriving DecidableEq, Repr

/-- A line of text. -/
abbrev Line := List Span

/-- A line in one style; the lines of the text become spans beside each other. -/
def Line.plain (s : String) : Line :=
  (Text.lines s.toList).map fun cs => { text := String.ofList cs }

end ViewTree.Terminal
