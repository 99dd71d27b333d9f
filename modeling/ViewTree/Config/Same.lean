import ViewTree.Config.Node

/-!
# Equality of configurations

Configurations are equal when their parts are.  Values, props and bindings are compared without
regard to the order of their entries.
-/

namespace ViewTree

/-- Equality of optional parts. -/
def sameOption {α : Type} (same : α → α → Bool) : Option α → Option α → Bool
  | none, none => true
  | some a, some b => same a b
  | _, _ => false

/-- Equality of lists of parts, in order. -/
def sameList {α : Type} (same : α → α → Bool) : List α → List α → Bool
  | [], [] => true
  | a :: as, b :: bs => same a b && sameList same as bs
  | _, _ => false

/-- Equality of remote calls. -/
def ApiCall.same (a b : ApiCall) : Bool :=
  a.url == b.url && a.method == b.method && a.headers == b.headers
    && sameOption Json.same a.body b.body

mutual

/-- Equality of actions. -/
def Action.same : Action → Action → Bool
  | ⟨kind, target, params, onSuccess, onError⟩, b =>
    kind == b.kind && target == b.target && sameOption Json.same params b.params
      && Action.sameOptional onSuccess b.onSuccess && Action.sameOptional onError b.onError

/-- Equality of optional actions. -/
def Action.sameOptional : Option Action → Option Action → Bool
  | none, none => true
  | some a, some b => Action.same a b
  | _, _ => false

end

/-- Equality of event bindings. -/
def EventAction.same (a b : EventAction) : Bool :=
  a.event == b.event && a.action.same b.action

/-- Equality of conditions. -/
def Condition.same : Condition → Condition → Bool
  | .flag a, .flag b => a == b
  | .expression a, .expression b => a == b
  | .other a, .other b => a.same b
  | _, _ => false

/-- Equality of repetitions. -/
def Repeat.same : Repeat → Repeat → Bool
  | .items a, .items b => Json.sameItems a b
  | .source a, .source b => a == b
  | _, _ => false

/-- Equality of bindings. -/
def Bindings.same (a b : Bindings) : Bool :=
  a.length == b.length && a.all fun (prop, binding) => b.lookup prop == some binding

/-- Equality of loads. -/
def FetchSpec.same (a b : FetchSpec) : Bool :=
  a.key == b.key && a.api.same b.api && a.transform == b.transform
    && sameOption Action.same a.onSuccess b.onSuccess && sameOption Action.same a.onError b.onError

mutual

/-- Equality of nodes. -/
def Node.same : Node → Node → Bool
  | ⟨kind, props, children, condition, repetition, key, events, bindings, fetches⟩, b =>
    kind == b.kind && Json.same (.object props) (.object b.props)
      && Children.sameOptional children b.children
      && sameOption Condition.same condition b.condition
      && sameOption Repeat.same repetition b.repetition && sameOption Json.same key b.key
      && sameList EventAction.same events b.events && Bindings.same bindings b.bindings
      && sameList FetchSpec.same fetches b.fetches

/-- Equality of optional children. -/
def Children.sameOptional : Option Children → Option Children → Bool
  | none, none => true
  | some a, some b => Children.same a b
  | _, _ => false

/-- Equality of children; a list of one is not the one alone. -/
def Children.same : Children → Children → Bool
  | .many a, .many b => Children.sameLists a b
  | .one a, .one b => Child.same a b
  | _, _ => false

/-- Equality of lists of children. -/
def Children.sameLists : List Child → List Child → Bool
  | [], [] => true
  | a :: as, b :: bs => Child.same a b && Children.sameLists as bs
  | _, _ => false

/-- Equality of single children. -/
def Child.same : Child → Child → Bool
  | .node a, .node b => Node.same a b
  | .content a, .content b => a.same b
  | .invalid a, .invalid b => a.same b
  | _, _ => false

end

end ViewTree
