import ViewTree.Dispatch.Handler
import ViewTree.Json.Loose

/-!
# Elements

What rendering a configuration gives to the host: a tree of elements with all props resolved, and
handlers for the events of the user.
-/

namespace ViewTree

/-- A resolved prop. -/
inductive Attribute where
  | value (value : Json)
  | handler (handler : Handler)

namespace Attribute

/-- The value of a prop that is no handler. -/
def value? : Attribute → Option Json
  | value v => some v
  | handler _ => none

/-- The handler of a prop that is one. -/
def handler? : Attribute → Option Handler
  | value _ => none
  | handler h => some h

end Attribute

/-- Props by name, in order, the names distinct. -/
abbrev Attributes := List (String × Attribute)

namespace Attributes

/-- The prop with a name. -/
def get? (name : String) (props : Attributes) : Option Attribute :=
  props.lookup name

/-- The props with one under `name`; a prop of that name keeps its place. -/
def insert (name : String) (prop : Attribute) : Attributes → Attributes
  | [] => [(name, prop)]
  | (other, old) :: props =>
    if other = name then (other, prop) :: props else (other, old) :: insert name prop props

/-- Sets props one after another. -/
def insertAll (props : Attributes) (entries : List (String × Attribute)) : Attributes :=
  entries.foldl (fun props (name, prop) => insert name prop props) props

end Attributes

mutual

/-- A rendered component. -/
structure Element where
  kind : String
  key : Option String
  props : Attributes
  children : List Content

/-- A child of an element. -/
inductive Content where
  | element (element : Element)
  /-- A value that shows as it is. -/
  | literal (value : Json)

end

namespace Content

/-- The element a child is, if it is one. -/
def element? : Content → Option Element
  | element e => some e
  | literal _ => none

end Content

namespace Element

/-- An element of a kind with nothing else to it. -/
def ofKind (kind : String) : Element := { kind, key := none, props := [], children := [] }

instance : Inhabited Element := ⟨ofKind ""⟩

/-- The value of a prop. -/
def prop (element : Element) (name : String) : Option Json :=
  (Attributes.get? name element.props).bind Attribute.value?

/-- The handler for a kind of event. -/
def handler (element : Element) (event : EventKind) : Option Handler :=
  (Attributes.get? event.propName element.props).bind Attribute.handler?

/-- The children that are elements, in order. -/
def childElements (element : Element) : List Element :=
  element.children.filterMap Content.element?

mutual

/-- All literal content under an element, depth first, as one text. -/
def text : Element → String
  | ⟨_, _, _, children⟩ => textOfContents children

/-- All literal content of a list of children. -/
def textOfContents : List Content → String
  | [] => ""
  | child :: children => textOfContent child ++ textOfContents children

/-- All literal content of a child. -/
def textOfContent : Content → String
  | .element e => text e
  | .literal value => value.display

end

mutual

/-- The first element under an element, itself included, that satisfies a predicate; parents come
before their children. -/
def find? (p : Element → Bool) : Element → Option Element
  | ⟨kind, key, props, children⟩ =>
    if p ⟨kind, key, props, children⟩ then some ⟨kind, key, props, children⟩
    else findIn? p children

/-- The first element in a list of children that satisfies a predicate. -/
def findIn? (p : Element → Bool) : List Content → Option Element
  | [] => none
  | child :: children => (findInChild? p child).orElse fun _ => findIn? p children

/-- The first element in a child that satisfies a predicate. -/
def findInChild? (p : Element → Bool) : Content → Option Element
  | .element e => find? p e
  | .literal _ => none

end

mutual

/-- The number of elements under an element, itself included. -/
def size : Element → Nat
  | ⟨_, _, _, children⟩ => sizeOfContents children + 1

/-- The number of elements in a list of children. -/
def sizeOfContents : List Content → Nat
  | [] => 0
  | child :: children => sizeOfContent child + sizeOfContents children

/-- The number of elements in a child. -/
def sizeOfContent : Content → Nat
  | .element e => size e
  | .literal _ => 0

end

theorem sizeOfContents_eq (children : List Content) :
    sizeOfContents children = total size (children.filterMap Content.element?) := by
  induction children with
  | nil => rfl
  | cons child children ih =>
    cases child with
    | element e => rw [sizeOfContents, ih, sizeOfContent]; rfl
    | literal value => rw [sizeOfContents, ih, sizeOfContent, Nat.zero_add]; rfl

theorem size_eq (element : Element) : element.size = total size element.childElements + 1 := by
  obtain ⟨kind, key, props, children⟩ := element
  rw [size, sizeOfContents_eq, childElements]

/-- The elements of a queue and all those under them.  The first of the queue is next, and its
children join the end of the queue. -/
def breadthFirst : List Element → List Element
  | [] => []
  | element :: queue => element :: breadthFirst (queue ++ element.childElements)
termination_by queue => total size queue
decreasing_by
  -- A round takes one element off the queue; the children that join count for the rest of it.
  rw [total_append, total, size_eq element]
  omega

/-- Every element under an element, itself included, breadth first. -/
def descendants (element : Element) : List Element :=
  breadthFirst [element]

/-- The number of handlers among the props. -/
def handlerCount (element : Element) : Nat :=
  (element.props.filterMap fun entry => entry.2.handler?).length

end Element

end ViewTree
