import ViewTree.Inspect
import ViewTree.Render.Element
import ViewTree.Terminal.Line

/-!
# Drawing elements as lines

Titles, alerts, buttons, selects and rows of spans have a look of their own; any other element shows
its text and its children.  One of the selects and buttons may have the focus.
-/

namespace ViewTree.Terminal

/-- Where the user is. -/
structure Cursor where
  /-- Which of the focusable elements has the focus. -/
  focus : Nat := 0
  /-- Which option a select with the focus shows. -/
  option : Nat := 0
deriving DecidableEq, Repr

/-- Whether an element takes keys. -/
def isFocusable (element : Element) : Bool :=
  element.kind == "Select" || element.kind == "Button"

mutual

/-- The elements under an element that take keys, itself included, in tree order. -/
def focusablesUnder : Element → List Element
  | ⟨kind, key, props, children⟩ =>
    (if isFocusable ⟨kind, key, props, children⟩ then [⟨kind, key, props, children⟩] else [])
      ++ focusablesIn children

/-- The elements in a list of children that take keys. -/
def focusablesIn : List Content → List Element
  | [] => []
  | child :: children => focusablesOf child ++ focusablesIn children

/-- The elements in a child that take keys. -/
def focusablesOf : Content → List Element
  | .element element => focusablesUnder element
  | .literal _ => []

end

/-- The elements that take keys, in tree order. -/
def focusables (roots : List Element) : List Element :=
  roots.flatMap focusablesUnder

/-- An option of a select. -/
structure Choice where
  label : String
  value : Json
deriving Repr

/-- The option an item stands for: its label and value, or itself for want of them. -/
def Choice.ofJson (item : Json) : Choice :=
  { label := ((item.get? "label").getD item).display
    value := (item.get? "value").getD item }

/-- The options of a select. -/
def choices (select : Element) : List Choice :=
  match select.prop "options" with
  | some (.array items) => items.map Choice.ofJson
  | _ => []

/-- A prop that is not `null`. -/
def setProp (element : Element) (name : String) : Option Json :=
  (element.prop name).filter fun value => !value.isNull

/-- Which option the value of a select is, going by the display texts. -/
def selectedIndex (select : Element) : Option Nat :=
  (setProp select "value").bind fun value =>
    (choices select).findIdx? fun choice => choice.value.display == value.display

/-- The text of an element: its `children` prop, else its literal content. -/
def label (element : Element) : String :=
  match setProp element "children" with
  | some value => value.display
  | none => element.text

/-- The text of an element without that of its child elements. -/
def ownText (element : Element) : String :=
  match setProp element "children" with
  | some value => value.display
  | none =>
    String.join (element.children.map fun child =>
      match child with
      | .literal value => value.display
      | .element _ => "")

/-- The blanks before a line at a level. -/
def pad (level : Nat) : String := String.ofList (List.replicate (2 * level) ' ')

/-- Whether an element is a row of spans. -/
def isRow (element : Element) : Bool :=
  element.kind == "div" && !element.childElements.isEmpty
    && element.childElements.all fun child => child.kind == "span"

/-- Whether `needle` occurs in a text. -/
def occursIn (needle : List Char) : List Char → Bool
  | [] => needle.isEmpty
  | c :: cs => (Text.stripLead needle (c :: cs)).isSome || occursIn needle cs

/-- Whether a span of a row is bold. -/
def isStrong (span : Element) : Bool :=
  match span.prop "className" with
  | some (.text names) => occursIn "font-semibold".toList names.toList
  | _ => false

/-- A title. -/
def titleLine (level : Nat) (element : Element) : Line :=
  [{ text := pad level }, { text := label element, style := .strong .cyan }]

/-- An alert. -/
def alertLine (level : Nat) (element : Element) : Line :=
  let (marker, color) :=
    match element.prop "variant" with
    | some (.text "destructive") => ("! ", Color.red)
    | _ => ("i ", Color.yellow)
  [{ text := pad level }, { text := marker ++ label element, style := .colored color }]

/-- A button. -/
def buttonLine (level : Nat) (focused : Bool) (element : Element) : Line :=
  let style : Style := if focused then { reversed := true } else .colored .green
  [{ text := pad level }, { text := "[ " ++ label element ++ " ]", style }]

/-- A row of spans. -/
def rowLine (level : Nat) (element : Element) : Line :=
  { text := pad level } :: element.childElements.map fun span =>
    { text := label span, style := { bold := isStrong span } }

/-- What a select shows. -/
def selectText (focused : Bool) (cursor : Cursor) (select : Element) : String :=
  let choices := choices select
  let shown : Option Choice :=
    if focused && !choices.isEmpty then choices[cursor.option % choices.length]?
    else (selectedIndex select).bind fun index => choices[index]?
  if (select.prop "loading").any Json.truthy then "Loading…"
  else
    match shown with
    | some choice => choice.label
    | none => ((select.prop "placeholder").map Json.display).getD "Select"

/-- A select, and its error below it. -/
def selectLines (level : Nat) (focused : Bool) (cursor : Cursor) (select : Element) : List Line :=
  let (marker, style) := if focused then ("▸ ", Style.strong .cyan) else ("  ", Style.plain)
  let error := ((select.prop "error").filter Json.truthy).toList
  [{ text := pad level ++ marker },
    { text := "< " ++ selectText focused cursor select ++ " >", style }]
    :: error.map fun value =>
      [{ text := pad level ++ "  " ++ value.display, style := .colored .red }]

/-- How an element is drawn. -/
inductive Look where
  | title | alert | button | select | row
  /-- Its text, then its children, indented in a card. -/
  | nested (card : Bool)
deriving DecidableEq, Repr

/-- How an element is drawn. -/
def look (element : Element) : Look :=
  if element.kind = "CardTitle" then .title
  else if element.kind = "Alert" then .alert
  else if element.kind = "Button" then .button
  else if element.kind = "Select" then .select
  else if isRow element then .row
  else .nested (element.kind == "Card")

mutual

/-- The lines of an element at a level; `before` counts the elements that take keys before it in
tree order. -/
def drawElement (cursor : Cursor) (level before : Nat) : Element → List Line
  | ⟨kind, key, props, children⟩ =>
    let element : Element := ⟨kind, key, props, children⟩
    let focused := before == cursor.focus
    match look element with
    | .title => [titleLine level element]
    | .alert => [alertLine level element]
    | .button => [buttonLine level focused element]
    | .select => selectLines level focused cursor element
    | .row => [rowLine level element]
    | .nested card =>
      let text := ownText element
      (if text.isEmpty then [] else [Line.plain (pad level ++ text)])
        ++ drawContents cursor (if card then level + 1 else level) before children
        ++ (if card then [[]] else [])

/-- The lines of the elements in a list of children. -/
def drawContents (cursor : Cursor) (level before : Nat) : List Content → List Line
  | [] => []
  | child :: children =>
    drawContent cursor level before child
      ++ drawContents cursor level (before + (focusablesOf child).length) children

/-- The lines of a child that is an element. -/
def drawContent (cursor : Cursor) (level before : Nat) : Content → List Line
  | .element element => drawElement cursor level before element
  | .literal _ => []

end

/-- The lines of a list of roots, given how many elements before them take keys. -/
def drawRoots (cursor : Cursor) : Nat → List Element → List Line
  | _, [] => []
  | before, root :: roots =>
    drawElement cursor 0 before root
      ++ drawRoots cursor (before + (focusablesUnder root).length) roots

/-- The lines of a rendered view. -/
def drawLines (roots : List Element) (cursor : Cursor) : List Line :=
  drawRoots cursor 0 roots

/-- The lines of inspection panels, a blank line after each. -/
def panelLines (panels : List Panel) : List Line :=
  panels.flatMap fun panel =>
    [{ text := panel.title, style := .strong .magenta }]
      :: panel.rows.map (fun (key, value) =>
        [{ text := "  " ++ key ++ ": ", style := .colored .darkGray }, { text := value }])
      ++ [[]]

end ViewTree.Terminal
