import ViewTree.Dispatch.Log
import ViewTree.Json.Loose
import ViewTree.State.Store
import ViewTree.Text.Quoted

/-!
# Inspection panels

The state and the dispatch log as titled rows.
-/

namespace ViewTree

/-- A titled group of rows. -/
structure Panel where
  title : String
  rows : List (String × String)
deriving DecidableEq, Repr

/-- The longest text a row shows in full. -/
def maxPreview : Nat := 60

/-- A value as a row shows it: texts in quotes, and what is too long cut off. -/
def preview (value : Json) : String :=
  let text := match value with
    | .text s => Text.quoted s
    | value => value.display
  if text.length ≤ maxPreview then text
  else String.ofList (text.toList.take (maxPreview - 1) ++ ['…'])

/-- The rows of the state. -/
def Store.panel (store : Store) : Panel :=
  { title := "State (v" ++ toString store.version ++ ")"
    rows := store.fields.map fun (key, value) => (key, preview value) }

/-- An entry of the log as a row shows it at a time. -/
def LogEntry.outcome (entry : LogEntry) (now : Nat) : String :=
  entry.link.status.name ++ " (" ++ ageText (now - entry.time) ++ " ago)"

/-- The rows of the log at a time, newest first. -/
def DispatchLog.panel (log : DispatchLog) (now : Nat) : Panel :=
  { title := "Dispatches"
    rows := log.entries.reverse.map fun entry => (entry.link.name, entry.outcome now) }

end ViewTree
