import ViewTree.Text.Order
import ViewTree.Text.Quoted
import ViewTree.Transform.Builtin

/-!
# The table of transforms

Transforms are found by name.  A name once taken keeps its meaning; a name that is not in the table
leaves the value as it is.
-/

namespace ViewTree

/-- Transforms by name, the names distinct. -/
structure TransformTable where
  entries : List (String × (Json → Json))

namespace TransformTable

/-- The built-in transforms; `today` is the date a value without one gets. -/
def standard (today : Date) : TransformTable := ⟨Transform.builtin today⟩

/-- The transform with a name. -/
def find? (table : TransformTable) (name : String) : Option (Json → Json) :=
  table.entries.lookup name

/-- Whether a name is taken. -/
def contains (table : TransformTable) (name : String) : Bool :=
  (table.find? name).isSome

/-- Adds a transform under a free name, and says whether the name was free. -/
def register (table : TransformTable) (name : String) (f : Json → Json) : Bool × TransformTable :=
  if table.contains name then (false, table) else (true, ⟨table.entries ++ [(name, f)]⟩)

/-- The value a named transform makes of a value. -/
def apply (table : TransformTable) (name : String) (value : Json) : Json :=
  match table.find? name with
  | some f => f value
  | none => value

/-- The value an optional named transform makes of a value. -/
def applyOption (table : TransformTable) (name : Option String) (value : Json) : Json :=
  match name with
  | some name => table.apply name value
  | none => value

/-- The names in order, as text. -/
def summary (table : TransformTable) : String :=
  let names := (Text.sortNames (table.entries.map Prod.fst)).map Text.quoted
  "TransformRegistry \x7b names: [" ++ ", ".intercalate names ++ "] \x7d"

end TransformTable

end ViewTree
