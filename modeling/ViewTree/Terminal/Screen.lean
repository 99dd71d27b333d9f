import ViewTree.Terminal.Drawing
import ViewTree.Terminal.Wrap

/-!
# The screen

A frame around the view, beside it a panel when one is asked for, a status line and a line of help.
A screen is made of rows, each as wide as the screen; a symbol of two columns is followed by a
blank.
-/

namespace ViewTree.Terminal

open Text (Symbol symbolWidth columns)

/-- The keys there are. -/
def help : String := "Tab: focus  Left/Right: option  Enter: activate  s: state  q: quit"

/-- A blank column. -/
def blank : Symbol := [' ']

/-- The cells of a row: one symbol for each column. -/
def cells (row : Row) : Row :=
  row.flatMap fun symbol =>
    if symbolWidth symbol = 0 then [] else symbol :: List.replicate (symbolWidth symbol - 1) blank

/-- The cells of a row, filled up with blanks to a width and cut off there. -/
def padTo (width : Nat) (row : Row) : Row :=
  let row := (cells row).take width
  row ++ List.replicate (width - row.length) blank

/-- A row in the middle of a width, cut off when it is too long. -/
def centered (width : Nat) (row : Row) : Row :=
  let row := cutRow width row
  padTo width (List.replicate (width / 2 - columns row / 2) blank ++ row)

/-- Exactly `count` rows: those given, and blank ones. -/
def fillRows (width count : Nat) (rows : List Row) : List Row :=
  let rows := (rows.take count).map (padTo width)
  rows ++ List.replicate (count - rows.length) (padTo width [])

/-- A line from one corner to another, cut down to the width. -/
def edge (width : Nat) (left fill right : Char) : Row :=
  if width = 0 then []
  else if width = 1 then [[left]]
  else [left] :: List.replicate (width - 2) [fill] ++ [[right]]

/-- The upper edge of a frame, with its title. -/
def titledEdge (width : Nat) (title : String) : Row :=
  let room := width - 2
  let title := cells (cutRow room (Text.drawnSymbols title))
  let plain := edge width '┌' '─' '┐'
  plain.take 1 ++ title ++ plain.drop (1 + title.length)

/-- Rows in a frame. -/
def framed (width height : Nat) (title : String) (lines : List Line) : List Row :=
  if height = 0 then []
  else if height = 1 then [titledEdge width title]
  else
    let side : Row := if width = 0 then [] else [['│']]
    let inner := fillRows (width - 2) (height - 2) (wrapLines (width - 2) lines)
    titledEdge width title
      :: inner.map (fun row => side ++ row ++ (if width < 2 then [] else side))
      ++ [edge width '└' '─' '┘']

/-- Rows beside each other. -/
def beside : List Row → List Row → List Row
  | left :: lefts, right :: rights => (left ++ right) :: beside lefts rights
  | _, _ => []

/-- The width of the view when there is a panel: six tenths of the screen. -/
def viewShare (width : Nat) : Nat := (6 * width + 5) / 10

/-- The rows of a screen. -/
def screenRows (width height : Nat) (lines : List Line) (panels : Option (List Panel))
    (status : String) : List Row :=
  let body := height - 2
  let view :=
    match panels with
    | none => framed width body " ui-dispatch " lines
    | some panels =>
      let left := viewShare width
      beside (framed left body " ui-dispatch " lines)
        (framed (width - left) body " state " (panelLines panels))
  let statusLine := (Text.lines status.toList).head?.getD []
  let statusRow := padTo width (cutRow width (Text.drawnSymbols (String.ofList statusLine)))
  let helpRow := centered width (Text.drawnSymbols help)
  view ++ [statusRow, helpRow].take (height - body)

/-- A row as text. -/
def rowText (row : Row) : String := String.ofList row.flatten

/-- The screen as text, row by row. -/
def screenText (width height : Nat) (lines : List Line) (panels : Option (List Panel))
    (status : String) : List String :=
  (screenRows width height lines panels status).map rowText

end ViewTree.Terminal
