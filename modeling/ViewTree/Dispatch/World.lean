import ViewTree.Dispatch.Log
import ViewTree.Dispatch.Transport
import ViewTree.State.Store
import ViewTree.State.Template
import ViewTree.Transform.Table

/-!
# The world of a view

What the actions of a view act on: its state, the transport its requests go to, the places it
navigated to and the log of its links.  Once the view has ended it stays so.
-/

namespace ViewTree

/-- The options of a view. -/
structure Options where
  /-- The greatest nesting depth that renders. -/
  maxDepth : Nat := 64
  /-- Headers of every request, the names in lower case. -/
  headers : Headers := [("content-type", "application/json")]
  /-- Whether the loads of a mount stop at the first failure. -/
  abortFetches : Bool := false
  log : LogConfig := {}

/-- The name in lower case, as far as it is ASCII. -/
def lowerAscii (name : String) : String :=
  String.ofList (name.toList.map Char.toLower)

/-- The options with a header of every request. -/
def Options.withHeader (options : Options) (name value : String) : Options :=
  { options with headers := options.headers.insert (lowerAscii name) value }

/-- What stays the same while a view lives. -/
structure Setting where
  options : Options
  transforms : TransformTable

/-- What the actions of a view act on. -/
structure World where
  store : Store := .empty
  ended : Bool := false
  transport : Script := {}
  /-- The places navigated to, in order. -/
  visits : List String := []
  log : DispatchLog
  /-- The time in milliseconds. -/
  now : Nat := 0

namespace World

/-- Writes a value to the state. -/
def set (world : World) (path : String) (value : Json) : World :=
  { world with store := world.store.set path value }

/-- Removes a value from the state. -/
def remove (world : World) (path : String) : World :=
  { world with store := (world.store.remove path).2 }

/-- Logs a link. -/
def record (world : World) (link : LinkReport) : World :=
  { world with log := world.log.record world.now link }

/-- Ends the view. -/
def finish (world : World) : World := { world with ended := true }

/-- What the templates of an action may refer to. -/
def scope (world : World) (event : Option Json) : Scope :=
  { state := some world.store.fields, event }

end World

end ViewTree
