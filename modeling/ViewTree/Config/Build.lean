import ViewTree.Config.Encode

/-!
# Building configurations

Nodes and actions put together step by step, as an alternative to reading them.
-/

namespace ViewTree

namespace Action

/-- An action of a kind with nothing else to it. -/
def ofKind (kind : ActionKind) : Action := { kind }

/-- Writes `params` to a state key. -/
def setState (target : String) (params : Json) : Action :=
  { kind := .setState, target := some target, params := some params }

/-- Calls a remote and stores what it answers at a state key. -/
def api (target : String) (call : ApiCall) : Action :=
  { kind := .api, target := some target, params := some call.toJson }

/-- Leaves the view for a location. -/
def navigate (location : String) : Action :=
  { kind := .navigate, params := some (.text location) }

/-- Sets the state key the action writes to. -/
def withTarget (action : Action) (target : String) : Action :=
  { action with target := some target }

/-- Sets the params. -/
def withParams (action : Action) (params : Json) : Action :=
  { action with params := some params }

/-- Sets what follows a call that succeeds. -/
def withSuccess (action next : Action) : Action := { action with onSuccess := some next }

/-- Sets what follows a call that fails. -/
def withError (action next : Action) : Action := { action with onError := some next }

end Action

namespace FetchSpec

/-- A load of what a call answers into a state key. -/
def load (key : String) (api : ApiCall) : FetchSpec := { key, api }

/-- Sets the transform. -/
def withTransform (spec : FetchSpec) (transform : String) : FetchSpec :=
  { spec with transform := some transform }

/-- Sets what follows a load that succeeds. -/
def withSuccess (spec : FetchSpec) (next : Action) : FetchSpec :=
  { spec with onSuccess := some next }

/-- Sets what follows a load that fails. -/
def withError (spec : FetchSpec) (next : Action) : FetchSpec :=
  { spec with onError := some next }

end FetchSpec

namespace Node

/-- Sets a prop. -/
def prop (node : Node) (name : String) (value : Json) : Node :=
  { node with props := Fields.insert name value node.props }

/-- Appends a child. -/
def child (node : Node) (child : Child) : Node :=
  { node with children := some (Children.append node.children child) }

/-- Appends a text. -/
def text (node : Node) (text : String) : Node := node.child (.content (.text text))

/-- Sets the condition. -/
def when (node : Node) (condition : Condition) : Node :=
  { node with condition := some condition }

/-- Repeats the node. -/
def repeatedOver (node : Node) (repetition : Repeat) : Node :=
  { node with repetition := some repetition }

/-- Binds a prop to the state. -/
def bind (node : Node) (prop : String) (binding : DataBinding) : Node :=
  { node with bindings := Bindings.insert prop binding node.bindings }

/-- Attaches an action to a kind of event. -/
def on (node : Node) (event : EventKind) (action : Action) : Node :=
  { node with events := node.events ++ [⟨event, action⟩] }

/-- Adds a load. -/
def fetch (node : Node) (spec : FetchSpec) : Node :=
  { node with fetches := node.fetches ++ [spec] }

end Node

end ViewTree
