import ViewTree.Terminal.Key
import ViewTree.Terminal.Screen
import ViewTree.View

/-!
# The terminal host

A view, the cursor of the user, and whether the state shows beside the view.
-/

namespace ViewTree.Terminal

/-- What the host does after a key. -/
inductive Response where
  | quit | redraw | ignored
deriving DecidableEq, Repr

/-- The name of a response. -/
def Response.name : Response → String
  | quit => "Quit"
  | redraw => "Redraw"
  | ignored => "Ignored"

/-- A view in a terminal. -/
structure App where
  view : View
  cursor : Cursor := {}
  showState : Bool := false

/-- The cursor with the focus within a number of focusable elements. -/
def Cursor.clamp (cursor : Cursor) (focusable : Nat) : Cursor :=
  { cursor with focus := min cursor.focus (focusable - 1) }

namespace App

/-- Moves the focus by a step, around the ends; the option becomes the one selected there. -/
def moveFocus (app : App) (elements : List Element) (step : Nat) : App :=
  let focus := (app.cursor.focus + step) % elements.length
  let option := (elements[focus]?.bind selectedIndex).getD 0
  { app with cursor := { focus, option } }

/-- Moves the option of a select with the focus by a step, around the ends. -/
def moveOption (app : App) (focused : Option Element) (step : Nat → Nat) : Response × App :=
  match focused.filter fun element => element.kind == "Select" with
  | none => (.ignored, app)
  | some select =>
    let count := max (choices select).length 1
    let option := (app.cursor.option + step count) % count
    (.redraw, { app with cursor := { app.cursor with option } })

/-- What pressing Enter on an element fires: a select changes to the option shown, any other
element is clicked. -/
def activation (cursor : Cursor) (element : Element) : Option (Handler × UiEvent) :=
  if element.kind = "Select" then do
    let handler ← element.handler .change
    let choice ← (choices element)[cursor.option]?
    some (handler, .change choice.value)
  else (element.handler .click).map fun handler => (handler, .click)

/-- Fires what pressing Enter on the focused element fires. -/
def activate (app : App) (focused : Option Element) : App :=
  match focused.bind (activation app.cursor) with
  | some (handler, event) => { app with view := app.view.fire handler event }
  | none => app

/-- Handles a key. -/
def handleKey (app : App) (key : Key) : Response × App :=
  let elements := focusables app.view.render
  let focused := elements[app.cursor.focus]?
  if key = .char 'q' ∨ key = .esc then (.quit, app)
  else if key = .char 's' then (.redraw, { app with showState := !app.showState })
  else if key = .tab ∧ !elements.isEmpty then (.redraw, app.moveFocus elements 1)
  else if key = .backTab ∧ !elements.isEmpty then
    (.redraw, app.moveFocus elements (elements.length - 1))
  else if key = .right then app.moveOption focused fun _ => 1
  else if key = .left then app.moveOption focused fun count => count - 1
  else if key = .enter then (.ignored, app.activate focused)
  else (.ignored, app)

/-- The text of the status line: the last link of the log. -/
def status (app : App) : String :=
  match app.view.world.log.recent 1 with
  | entry :: _ => entry.link.name ++ " " ++ entry.outcome app.view.world.now
  | [] => "idle"

/-- The panels that show beside the view, if they do. -/
def panels (app : App) : Option (List Panel) :=
  if app.showState then
    let world := app.view.world
    some [world.store.panel, world.log.panel world.now]
  else none

/-- The lines of the view, the focus within what there is to focus on. -/
def lines (app : App) : List Line :=
  let roots := app.view.render
  drawLines roots (app.cursor.clamp (focusables roots).length)

/-- The screen as text, row by row. -/
def screen (app : App) (width height : Nat) : List String :=
  screenText width height app.lines app.panels app.status

end App

end ViewTree.Terminal
