import ViewTree.Config.Action
import ViewTree.Event
import ViewTree.State.Condition

/-!
# Nodes

A view is configured by a tree of nodes, each naming a component and saying what it shows, when,
how often and what it does.
-/

namespace ViewTree

/-- A link from a prop to a value in the state. -/
structure DataBinding where
  /-- The state key to read. -/
  source : String
  /-- The path into the value read. -/
  field : Option String := none
  /-- The transform the value goes through. -/
  transform : Option String := none
deriving DecidableEq, Repr, Inhabited

/-- An action attached to a kind of event. -/
structure EventAction where
  event : EventKind
  action : Action
deriving Repr, Inhabited

/-- What a node is repeated over. -/
inductive Repeat where
  /-- These items. -/
  | items (items : List Json)
  /-- The items at a state key. -/
  | source (key : String)
deriving Repr

/-- Bindings by prop, in the order of their first declaration. -/
abbrev Bindings := List (String × DataBinding)

namespace Bindings

/-- The bindings with a prop bound anew; a prop bound before keeps its place. -/
def insert (prop : String) (binding : DataBinding) : Bindings → Bindings
  | [] => [(prop, binding)]
  | (other, old) :: bindings =>
    if other = prop then (other, binding) :: bindings
    else (other, old) :: insert prop binding bindings

end Bindings

mutual

/-- One node of a configuration. -/
structure Node where
  /-- The component that shows the node. -/
  kind : String
  /-- Props given outright; texts in them are templates. -/
  props : Fields
  children : Option Children
  condition : Option Condition
  repetition : Option Repeat
  /-- The identity of the element. -/
  key : Option Json
  events : List EventAction
  bindings : Bindings
  /-- The loads that run when the node is mounted as a root. -/
  fetches : List FetchSpec

/-- The children of a node: one, or a list. -/
inductive Children where
  | many (children : List Child)
  | one (child : Child)

/-- A child of a node. -/
inductive Child where
  | node (node : Node)
  /-- A value that shows as it is. -/
  | content (value : Json)
  /-- What was meant for a node but is none; it does not show. -/
  | invalid (value : Json)

end

namespace Children

/-- The children in order. -/
def toList : Children → List Child
  | .many children => children
  | .one child => [child]

/-- The children with one more at the end. -/
def append (children : Option Children) (child : Child) : Children :=
  match children with
  | none => .one child
  | some (.one first) => .many [first, child]
  | some (.many children) => .many (children ++ [child])

end Children

namespace Node

/-- A node of a component with nothing else to it. -/
def ofKind (kind : String) : Node :=
  { kind, props := [], children := none, condition := none, repetition := none, key := none,
    events := [], bindings := [], fetches := [] }

instance : Inhabited Node := ⟨ofKind ""⟩

/-- The children of a node in order. -/
def childList (node : Node) : List Child :=
  (node.children.map Children.toList).getD []

end Node

end ViewTree
