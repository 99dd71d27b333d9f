import ViewTree.Terminal.Line
import ViewTree.Text.Blank
import ViewTree.Text.Width

/-!
# Wrapping lines

A line that is too long goes on in further rows, broken between words where it can be.  Blanks stay,
except those a row ends in.
-/

namespace ViewTree.Terminal

open Text (Symbol symbolWidth columns)

/-- A row of symbols. -/
abbrev Row := List Symbol

/-- The symbols of a line. -/
def Line.symbols (line : Line) : Row :=
  line.flatMap fun span => Text.drawnSymbols span.text

/-- Whether a line may break at a symbol: a blank, but not one that holds words together. -/
def isBreakable (symbol : Symbol) : Bool :=
  symbol == ['\u200b'] || (symbol.all Text.isBlank && symbol != ['\u00a0'])

/-- A line as it is being wrapped. -/
structure WrapState where
  /-- The finished rows. -/
  rows : List Row := []
  /-- The row under way. -/
  row : Row := []
  /-- The columns counted for the row under way. -/
  rowWidth : Nat := 0
  /-- Blanks that follow the row. -/
  blanks : Row := []
  /-- The word that follows the blanks. -/
  word : Row := []
  /-- Whether the last symbol belonged to a word. -/
  afterWord : Bool := false

namespace WrapState

/-- Puts the blanks and the word on the row. -/
def commit (state : WrapState) : WrapState :=
  { state with
    row := state.row ++ state.blanks ++ state.word
    rowWidth := state.rowWidth + columns state.blanks + columns state.word
    blanks := []
    word := [] }

/-- Drops blanks from the front as far as they fit in the columns that were left. -/
def dropBlanks : Nat → Row → Row
  | _, [] => []
  | room, blank :: blanks =>
    if symbolWidth blank ≤ room then dropBlanks (room - symbolWidth blank) blanks
    else blank :: blanks

/-- Finishes the row; the blanks that would have fitted on it go with it. -/
def breakRow (limit : Nat) (state : WrapState) : WrapState :=
  { state with
    rows := state.rows ++ [state.row]
    row := []
    rowWidth := 0
    blanks := dropBlanks (limit - state.rowWidth) state.blanks }

/-- Adds a symbol to the blanks or to the word. -/
def add (state : WrapState) (symbol : Symbol) : WrapState :=
  if isBreakable symbol then
    { state with blanks := state.blanks ++ [symbol], afterWord := false }
  else { state with word := state.word ++ [symbol], afterWord := true }

/-- Takes the next symbol of the line, in rows of `limit` columns. -/
def push (limit : Nat) (state : WrapState) (symbol : Symbol) : WrapState :=
  let width := symbolWidth symbol
  if limit < width then state
  else
    let wordEnds := state.afterWord && isBreakable symbol
    let overflows :=
      state.row.isEmpty && limit < columns state.word + columns state.blanks + width
    let state := if wordEnds || overflows then state.commit else state
    let full := limit ≤ state.rowWidth
    let wordOverflows :=
      0 < width && limit ≤ state.rowWidth + columns state.blanks + columns state.word
    if full || wordOverflows then
      let state := state.breakRow limit
      if isBreakable symbol && state.blanks.isEmpty then state else state.add symbol
    else state.add symbol

/-- The rows at the end of the line.  A line of blanks alone gets an empty row before them. -/
def finish (state : WrapState) : List Row :=
  let rows :=
    if state.row.isEmpty && state.word.isEmpty && !state.blanks.isEmpty then state.rows ++ [[]]
    else state.rows
  let last := state.row ++ state.blanks ++ state.word
  let rows := if last.isEmpty then rows else rows ++ [last]
  if rows.isEmpty then [[]] else rows

end WrapState

/-- The rows of at most `limit` columns a line goes on. -/
def wrapLine (limit : Nat) (line : Line) : List Row :=
  (line.symbols.foldl (WrapState.push limit) {}).finish

/-- The rows of at most `limit` columns that lines go on. -/
def wrapLines (limit : Nat) (lines : List Line) : List Row :=
  if limit = 0 then [] else lines.flatMap (wrapLine limit)

/-- As much of a row as fits, cut off at the first symbol that does not. -/
def cutRow : Nat → Row → Row
  | _, [] => []
  | room, symbol :: row =>
    if symbolWidth symbol ≤ room then symbol :: cutRow (room - symbolWidth symbol) row else []

end ViewTree.Terminal
