import ViewTree.Config.Node
import ViewTree.State.Store
import ViewTree.Transform.Table

/-!
# Resolving bindings

A binding copies a value of the state into a prop.  It also tells the node how the load behind the
value stands: the loading flag of its source becomes the prop `loading`, an error the prop `error`.
-/

namespace ViewTree

/-- The value in the state at a dotted path. -/
def stateValue (state : Fields) (path : String) : Option Json :=
  Fields.lookup? (Path.ofString path) state

namespace DataBinding

/-- The value a binding selects in the state, before its transform. -/
def select (binding : DataBinding) (state : Fields) : Option Json :=
  (stateValue state binding.source).bind fun value =>
    match binding.field with
    | some field => value.lookup? field
    | none => some value

/-- The value of a binding; an absent value counts as `null`. -/
def resolve (binding : DataBinding) (state : Fields) (transforms : TransformTable) : Json :=
  transforms.applyOption binding.transform ((binding.select state).getD .null)

/-- The props a binding assigns, in order. -/
def assignments (prop : String) (binding : DataBinding) (state : Fields)
    (transforms : TransformTable) : List (String × Json) :=
  let loading := (stateValue state (loadingKey binding.source)).toList
  let error := ((stateValue state (errorKey binding.source)).filter Json.truthy).toList
  (prop, binding.resolve state transforms)
    :: (loading.map fun value => ("loading", value)) ++ error.map fun value => ("error", value)

end DataBinding

namespace Bindings

/-- The props the bindings of a node give; of several assignments to a prop the last counts. -/
def resolve (bindings : Bindings) (state : Fields) (transforms : TransformTable) : Fields :=
  Fields.insertAll [] (bindings.flatMap fun (prop, binding) =>
    binding.assignments prop state transforms)

end Bindings

end ViewTree
