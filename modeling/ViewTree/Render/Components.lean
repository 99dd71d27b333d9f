import ViewTree.Render.Element
import ViewTree.Text.Order
import ViewTree.Text.Quoted

/-!
# Components

A component makes an element of resolved props and rendered children.  Nodes name components; a
name that is not known renders nothing.
-/

namespace ViewTree

/-- What makes an element of props and children. -/
abbrev Component := Attributes → List Content → Element

namespace Component

/-- The component that gives an element of a kind the props and children unchanged. -/
def passthrough (kind : String) : Component :=
  fun props children => { kind, key := none, props, children }

/-- A component whose element always has the same key. -/
def withKey (component : Component) (key : String) : Component :=
  fun props children => { component props children with key := some key }

end Component

/-- Components by name, the names distinct. -/
structure Components where
  entries : List (String × Component)

namespace Components

/-- No components. -/
def empty : Components := ⟨[]⟩

/-- The names of the standard components. -/
def standardNames : List String :=
  ["Button", "Card", "CardHeader", "CardTitle", "CardContent", "Alert", "Select", "div", "span",
   "p", "h1", "h2", "h3", "section", "article", "header", "footer", "nav", "aside", "main", "form",
   "label", "input"]

/-- The components with one under a name, in place of what was there. -/
def register (components : Components) (name : String) (component : Component) : Components :=
  ⟨components.entries.filter (fun entry => entry.1 != name) ++ [(name, component)]⟩

/-- The standard components, each of which passes its props and children through. -/
def standard : Components :=
  ⟨standardNames.map fun name => (name, .passthrough name)⟩

/-- The component with a name. -/
def find? (components : Components) (name : String) : Option Component :=
  components.entries.lookup name

/-- Whether there is a component with a name. -/
def contains (components : Components) (name : String) : Bool :=
  (components.find? name).isSome

/-- The names in order, as text. -/
def summary (components : Components) : String :=
  let names := (Text.sortNames (components.entries.map Prod.fst)).map Text.quoted
  "ComponentRegistry \x7b components: [" ++ ", ".intercalate names ++ "] \x7d"

end Components

end ViewTree
