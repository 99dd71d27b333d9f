import ViewTree.Config.Node

/-!
# Encoding configurations

Nodes and their parts as values.  Fields come in a fixed order; what is absent or empty is left
out, except a method, which is always written.
-/

namespace ViewTree

/-- A field, if there is a value for it. -/
def optionalField (name : String) (value : Option Json) : Fields :=
  (value.map fun value => [(name, value)]).getD []

/-- A field holding a text, if there is one. -/
def optionalText (name : String) (text : Option String) : Fields :=
  optionalField name (text.map .text)

namespace ApiCall

/-- A remote call as a value. -/
def toJson (call : ApiCall) : Json :=
  .object
    ([("url", .text call.url), ("method", .text call.method.name)]
      ++ (if call.headers.isEmpty then [] else [("headers", call.headers.toJson)])
      ++ optionalField "body" call.body)

end ApiCall

namespace Action

mutual

/-- An action as the fields of an object. -/
def toFields : Action → Fields
  | ⟨kind, target, params, onSuccess, onError⟩ =>
    [("action", .text kind.name)] ++ optionalText "target" target
      ++ optionalField "params" params ++ toField "successAction" onSuccess
      ++ toField "errorAction" onError

/-- A continuation as a field. -/
def toField (name : String) : Option Action → Fields
  | none => []
  | some action => [(name, .object (toFields action))]

end

/-- An action as a value. -/
def toJson (action : Action) : Json := .object action.toFields

end Action

namespace DataBinding

/-- A binding as a value. -/
def toJson (binding : DataBinding) : Json :=
  .object
    ([("source", .text binding.source)] ++ optionalText "field" binding.field
      ++ optionalText "transform" binding.transform)

end DataBinding

namespace FetchSpec

/-- A load as a value. -/
def toJson (spec : FetchSpec) : Json :=
  .object
    ([("key", .text spec.key), ("api", spec.api.toJson)] ++ optionalText "transform" spec.transform
      ++ Action.toField "onSuccess" spec.onSuccess ++ Action.toField "onError" spec.onError)

end FetchSpec

namespace EventAction

/-- An event binding as a value: the kind of event beside the fields of the action. -/
def toJson (binding : EventAction) : Json :=
  .object (("type", .text binding.event.propName) :: binding.action.toFields)

end EventAction

namespace Condition

/-- A condition as a value. -/
def toJson : Condition → Json
  | .flag b => .bool b
  | .expression s => .text s
  | .other value => value

end Condition

namespace Repeat

/-- A repetition as a value. -/
def toJson : Repeat → Json
  | .items values => .array values
  | .source key => .text key

end Repeat

/-- A list field, left out when the list is empty. -/
def listField (name : String) (values : List Json) : Fields :=
  if values.isEmpty then [] else [(name, .array values)]

/-- An object field, left out when the object is empty. -/
def objectField (name : String) (fields : Fields) : Fields :=
  if fields.isEmpty then [] else [(name, .object fields)]

mutual

/-- A node as a value. -/
def Node.toJson : Node → Json
  | ⟨kind, props, children, condition, repetition, key, events, bindings, fetches⟩ =>
    .object
      ([("type", .text kind)] ++ objectField "props" props ++ Children.toField children
        ++ optionalField "condition" (condition.map Condition.toJson)
        ++ optionalField "repeat" (repetition.map Repeat.toJson) ++ optionalField "key" key
        ++ listField "events" (events.map EventAction.toJson)
        ++ objectField "bindings"
          (bindings.map fun (prop, binding) => (prop, binding.toJson))
        ++ listField "dataFetch" (fetches.map FetchSpec.toJson))

/-- The children of a node as a field. -/
def Children.toField : Option Children → Fields
  | none => []
  | some children => [("children", Children.toJson children)]

/-- Children as a value. -/
def Children.toJson : Children → Json
  | .many children => .array (Children.listToJson children)
  | .one child => Child.toJson child

/-- A list of children as values. -/
def Children.listToJson : List Child → List Json
  | [] => []
  | child :: children => Child.toJson child :: Children.listToJson children

/-- A child as a value. -/
def Child.toJson : Child → Json
  | .node node => Node.toJson node
  | .content value => value
  | .invalid value => value

end

end ViewTree
