import ViewTree.State.Template

/-!
# Conditions

Whether a node shows: always, by a flag, or by an expression over the state.
-/

namespace ViewTree

/-- When a node shows. -/
inductive Condition where
  /-- Always or never. -/
  | flag (value : Bool)
  /-- By a text: a single state placeholder is looked up, any other text counts by being there. -/
  | expression (text : String)
  /-- Any other value; it is never met. -/
  | other (value : Json)
deriving Repr

namespace Condition

/-- The path `p` when the whole text is the one placeholder `${state.p}`. -/
def statePath? (text : String) : Option String := do
  let body ← Text.stripLead Template.opening text.toList
  let body ← Text.stripTail ['\x7d'] body
  if body.contains '\x7d' then none
  else
    let path ← Text.stripLead "state.".toList body
    some (String.ofList path)

/-- Whether a condition is met. -/
def holds (scope : Scope) : Condition → Bool
  | .flag value => value
  | .expression text =>
    match statePath? text with
    | some path => truthyOption (scope.stateValue path)
    | none => !text.isEmpty
  | .other _ => false

/-- Whether a node with this condition shows; one without a condition does. -/
def admits (scope : Scope) (condition : Option Condition) : Bool :=
  condition.all (holds scope)

end Condition

end ViewTree
