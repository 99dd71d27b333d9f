import ViewTree.Render.Binding
import ViewTree.Render.Components

/-!
# Rendering

From a configuration and a state to elements.  A node renders when its component is known, its
condition holds and it is not nested too deep.  It renders once, or once for each item it is
repeated over.  Props given outright give way to bound ones, and both to handlers.
-/

namespace ViewTree

/-- What a rendering reads. -/
structure RenderScene where
  state : Fields
  components : Components
  transforms : TransformTable
  maxDepth : Nat

namespace RenderScene

/-- What templates may refer to. -/
def scope (scene : RenderScene) : Scope := { state := some scene.state }

end RenderScene

/-- The props with every text in them expanded; texts inside other values are left alone. -/
def expandProps (scope : Scope) (props : Fields) : Fields :=
  props.map fun (name, value) =>
    match value with
    | .text s => (name, .text (scope.expand s))
    | value => (name, value)

/-- Adds an action to the handler for its kind of event. -/
def addToHandlers (binding : EventAction) : List Handler → List Handler
  | [] => [⟨binding.event, [binding.action]⟩]
  | handler :: handlers =>
    if handler.event = binding.event then
      { handler with actions := handler.actions ++ [binding.action] } :: handlers
    else handler :: addToHandlers binding handlers

/-- The handlers of a node: one for each kind of event, with its actions in order. -/
def handlersOf (events : List EventAction) : List Handler :=
  events.foldl (fun handlers binding => addToHandlers binding handlers) []

namespace Node

/-- The items a node is repeated over; none when what it names is no list. -/
def repeatItems (scene : RenderScene) : Repeat → List Json
  | .items items => items
  | .source key =>
    match stateValue scene.state key with
    | some (.array items) => items
    | _ => []

/-- The key of the instance of a repeated node for an item. -/
def instanceKey (kind : String) (index : Nat) (item : Json) : String :=
  let id := match (item.get? "id").filter Json.truthy with
    | some id => id.display
    | none => toString index
  kind ++ "-" ++ toString index ++ "-" ++ id

/-- The instances of a node from an index on: the key and the props given outright. -/
def instancesFrom (scene : RenderScene) (node : Node) :
    Nat → List Json → List (Option String × Fields)
  | _, [] => []
  | index, item :: items =>
    (some (instanceKey node.kind index item),
      expandProps { scene.scope with item := some item } node.props)
      :: instancesFrom scene node (index + 1) items

/-- The instances of a node.  `key` is the key its place gives it, for want of its own. -/
def instances (scene : RenderScene) (node : Node) (key : Option String) :
    List (Option String × Fields) :=
  match node.repetition with
  | none => [((node.key.map Json.display).or key, node.props)]
  | some repetition => instancesFrom scene node 0 (repeatItems scene repetition)

/-- The props of an instance, given those set outright. -/
def attributes (scene : RenderScene) (node : Node) (explicit : Fields) : Attributes :=
  let values :=
    Fields.insertAll explicit (node.bindings.resolve scene.state scene.transforms)
  Attributes.insertAll
    ((expandProps scene.scope values).map fun (name, value) => (name, .value value))
    ((handlersOf node.events).map fun handler => (handler.event.propName, .handler handler))

/-- The element for an instance. -/
def instantiate (scene : RenderScene) (component : Component) (node : Node)
    (children : List Content) (explicit : Option String × Fields) : Element :=
  let element := component (node.attributes scene explicit.2) children
  { element with key := element.key.or explicit.1 }

/-- The elements of a node with these children, if it renders. -/
def elements (scene : RenderScene) (depth : Nat) (key : Option String) (node : Node)
    (children : List Content) : List Element :=
  if scene.maxDepth < depth then []
  else
    match scene.components.find? node.kind with
    | none => []
    | some component =>
      if Condition.admits scene.scope node.condition then
        (node.instances scene key).map (node.instantiate scene component children)
      else []

end Node

/-- The key the place of a child gives it. -/
def childKey (kind : String) (index : Nat) : String :=
  kind ++ "-child-" ++ toString index

mutual

/-- The elements of a node. -/
def renderNode (scene : RenderScene) (depth : Nat) (key : Option String) : Node → List Element
  | ⟨kind, props, children, condition, repetition, ownKey, events, bindings, fetches⟩ =>
    Node.elements scene depth key
      ⟨kind, props, children, condition, repetition, ownKey, events, bindings, fetches⟩
      (renderOptional scene (depth + 1) children)

/-- The rendered children of a node, if it has any. -/
def renderOptional (scene : RenderScene) (depth : Nat) : Option Children → List Content
  | none => []
  | some children => renderChildren scene depth children

/-- The rendered children of a node. -/
def renderChildren (scene : RenderScene) (depth : Nat) : Children → List Content
  | .many children => renderList scene depth 0 children
  | .one child => renderChild scene depth 0 child

/-- The rendered children of a list, from an index on. -/
def renderList (scene : RenderScene) (depth index : Nat) : List Child → List Content
  | [] => []
  | child :: children =>
    renderChild scene depth index child ++ renderList scene depth (index + 1) children

/-- A rendered child: the elements of a node, content as it is, nothing for what is invalid. -/
def renderChild (scene : RenderScene) (depth index : Nat) : Child → List Content
  | .node node =>
    (renderNode scene depth (some (childKey node.kind index)) node).map .element
  | .content value => [.literal value]
  | .invalid _ => []

end

/-- The elements of a root. -/
def renderRoot (scene : RenderScene) (root : Node) : List Element :=
  renderNode scene 0 none root

end ViewTree
