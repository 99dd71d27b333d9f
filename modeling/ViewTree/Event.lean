import ViewTree.Json.Basic

/-!
# Events

The kinds of events a node can attach actions to, and the events a host delivers.
-/

namespace ViewTree

/-- A kind of event. -/
inductive EventKind where
  | click | change | submit | blur | focus
  | keyPress | keyDown | keyUp | mouseOver | mouseOut
deriving DecidableEq, Repr, Inhabited

namespace EventKind

/-- Every kind of event, in order. -/
def all : List EventKind :=
  [.click, .change, .submit, .blur, .focus, .keyPress, .keyDown, .keyUp, .mouseOver, .mouseOut]

/-- The name of the prop that holds the handler for this kind of event. -/
def propName : EventKind → String
  | click => "onClick"
  | change => "onChange"
  | submit => "onSubmit"
  | blur => "onBlur"
  | focus => "onFocus"
  | keyPress => "onKeyPress"
  | keyDown => "onKeyDown"
  | keyUp => "onKeyUp"
  | mouseOver => "onMouseOver"
  | mouseOut => "onMouseOut"

/-- The kind of event with a prop name. -/
def ofPropName? (name : String) : Option EventKind :=
  all.find? fun kind => kind.propName == name

end EventKind

/-- An event with what it carries, to which templates refer. -/
structure UiEvent where
  kind : EventKind
  payload : Json

namespace UiEvent

/-- A click. -/
def click : UiEvent := ⟨.click, .object [("type", .text "click")]⟩

/-- A change of an input to a value. -/
def change (value : Json) : UiEvent :=
  ⟨.change, .object [("type", .text "change"), ("target", .object [("value", value)])]⟩

/-- A submission. -/
def submit : UiEvent := ⟨.submit, .object [("type", .text "submit")]⟩

/-- A key event of one of the kinds. -/
def key (kind : EventKind) (name : String) : UiEvent :=
  ⟨kind, .object [("type", .text kind.propName), ("key", .text name)]⟩

end UiEvent

end ViewTree
