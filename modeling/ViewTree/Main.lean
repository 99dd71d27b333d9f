import Std.Time.DateTime.Timestamp
import ViewTree.Config.Decode
import ViewTree.Terminal.App
import ViewTree.Terminal.CommandLine
import ViewTree.Terminal.Directory

/-!
# The program

Runs a view in the terminal.  Each line of input is the name of a key, and the screen is printed
after every key.  There is no network here: a request fails for want of one, and shows as any other
failure does.
-/

namespace ViewTree.Terminal

/-- The columns of the screen. -/
def screenWidth : Nat := 80

/-- The rows of the screen. -/
def screenHeight : Nat := 24

/-- Today's date in universal time. -/
def today : IO Date := do
  let seconds := (← Std.Time.Timestamp.now).toSecondsSinceUnixEpoch.val
  return (Date.ofDays? (seconds / 86400)).getD ⟨1970, 1, 1⟩

/-- The configuration to run: the one at a path, or the user directory. -/
def loadRoot (arguments : Arguments) : IO (Decode Node) := do
  match arguments.config with
  | none => return .ok Directory.root
  | some path => return Node.ofText (← IO.FS.readFile path)

/-- A view just mounted. -/
def openApp (arguments : Arguments) (today : Date) (root : Node) : App :=
  let setting : Setting :=
    { options := { abortFetches := arguments.abortOnError }, transforms := .standard today }
  { view := (View.create root .standard setting .offline).spawnMount.1.settle }

/-- Prints the screen. -/
def printScreen (app : App) : IO Unit := do
  for row in app.screen screenWidth screenHeight do
    IO.println row

/-- Handles keys until one quits or there are no more. -/
partial def runKeys (input : IO.FS.Stream) (app : App) : IO Unit := do
  printScreen app
  let line ← input.getLine
  if line.isEmpty then return
  let name := String.ofList (line.toList.filter fun c => c ≠ '\n' && c ≠ '\r')
  match app.handleKey (.ofName name) with
  | (.quit, _) => return
  | (_, app) => runKeys input { app with view := app.view.settle }

/-- Runs what a command line asks for. -/
def runWith (arguments : Arguments) : IO UInt32 := do
  match ← loadRoot arguments with
  | .error error =>
    IO.eprintln ("Error: " ++ configMessage (error.message?.getD error.category))
    return 1
  | .ok root =>
    runKeys (← IO.getStdin) (openApp arguments (← today) root)
    return 0

end ViewTree.Terminal

open ViewTree.Terminal in
/-- Runs the program. -/
def main (args : List String) : IO UInt32 := do
  match CommandLine.read args with
  | .ok arguments => runWith arguments
  | .error .displayHelp =>
    for line in CommandLine.helpLines do
      IO.println line
    return 0
  | .error error =>
    IO.eprintln ("error: " ++ error.name)
    return 2
