import ViewTree.Config.Node
import ViewTree.Config.Record
import ViewTree.Json.Reader

/-!
# Decoding configurations

From a JSON text or value to nodes and their parts.  A child that is no node never makes its parent
fail: it is kept as what it is.
-/

namespace ViewTree

namespace Decode

/-- A text. -/
def text (_ : Source) (draft : Draft) : Decode String :=
  match draft with
  | .text s => return s
  | draft => wrongType draft "a string"

/-- Nothing for `null`, otherwise what `f` reads. -/
def optional {α : Type} (f : Source → Draft → Decode α) (source : Source) (draft : Draft) :
    Decode (Option α) :=
  match draft with
  | .null => return none
  | draft => some <$> f source draft

/-- Any value. -/
def json (source : Source) (draft : Draft) : Decode Json := source.read draft

/-- The entries of an object one after another; `insert` says what a repeated name does. -/
def entries {α β : Type} (f : Source → Draft → Decode α) (insert : String → α → β → β)
    (source : Source) : List (Option String × Draft) → β → Decode β
  | [], result => return result
  | (none, _) :: _, _ => .error (.text .malformed)
  | (some name, draft) :: rest, result => do
    let value ← f source draft
    entries f insert source rest (insert name value result)

/-- A map from names. -/
def map {α β : Type} (f : Source → Draft → Decode α) (insert : String → α → β → β) (empty : β)
    (source : Source) (draft : Draft) : Decode β :=
  match draft with
  | .object fields ending => do
    let inner ← source.enter
    let result ← entries f insert inner fields empty
    lift ending.check
    return result
  | draft => wrongType draft "a map"

/-- The items of an array one after another. -/
def items {α : Type} (f : Source → Draft → Decode α) (source : Source) :
    List Draft → Decode (List α)
  | [] => return []
  | draft :: drafts => do
    let value ← f source draft
    let values ← items f source drafts
    return value :: values

/-- A list. -/
def list {α : Type} (f : Source → Draft → Decode α) (source : Source) (draft : Draft) :
    Decode (List α) :=
  match draft with
  | .array drafts ending => do
    let inner ← source.enter
    let values ← items f inner drafts
    lift ending.check
    return values
  | draft => wrongType draft "a sequence"

/-- The payload of a variant that carries nothing. -/
def nothing (draft : Draft) : Decode Unit :=
  match draft with
  | .null => return ()
  | draft => wrongType draft "unit"

/-- One of several names, given as a text or as an object with the name over `null`. -/
def variant {α : Type} (ofName? : String → Option α) (names : List String) (source : Source)
    (draft : Draft) : Decode α :=
  let named (name : String) : Decode α :=
    match ofName? name with
    | some value => return value
    | none => fail (.unknownVariant name names)
  match draft with
  | .text name => named name
  | .object entries ending =>
    if source.origin = .text then do
      let _ ← source.enter
      match entries, ending with
      | (some name, payload) :: rest, ending => do
        let value ← named name
        nothing payload
        if rest.isEmpty then lift ending.checkLast else .error (.text .malformed)
        return value
      | (none, .broken fault _ _) :: _, _ => .error (.text fault)
      | (none, _) :: _, _ => .error (.text .malformed)
      | [], .closed => .error (.text .malformed)
      | [], .unnamed _ (some found) => fail (.wrongType found "variant identifier")
      | [], .unnamed fault none => .error (.text fault)
      | [], .cut fault | [], .dangling fault => .error (.text fault)
    else
      match entries with
      | [(some name, payload)] => do
        let value ← named name
        nothing payload
        return value
      | _ => fail (.wrongValue "map" "map with a single key")
  | draft =>
    if source.origin = .text then
      match draft with
      | .broken _ _ fault => .error (.text fault)
      | _ => .error (.text .malformed)
    else wrongType draft "string or map"

end Decode

/-- Reads a required field whose presence is the presence of its value. -/
def FieldRule.ofSlot {α β γ : Type} (name : String) (required : Bool) (slot : α → Option γ)
    (put : γ → α → α) (f : Source → β → Decode γ) : FieldRule α β :=
  { name, required
    filled := fun record => (slot record).isSome
    fill := fun source given record => do
      let value ← f source given
      return put value record }

namespace Method

/-- Decodes a method. -/
def decode : Source → Draft → Decode Method :=
  Decode.variant ofName? (all.map name)

end Method

namespace EventKind

/-- Decodes a kind of event. -/
def decode : Source → Draft → Decode EventKind :=
  Decode.variant ofPropName? (all.map propName)

end EventKind

namespace ApiCall

/-- A remote call while it is read. -/
structure Partial where
  url : Option String := none
  method : Option Method := none
  headers : Option Headers := none
  body : Option (Option Json) := none

/-- The fields of a remote call. -/
def rule : RecordRule Partial Draft :=
  { name := "ApiConfig"
    fields :=
      [.ofSlot "url" true Partial.url (fun v r => { r with url := some v }) Decode.text,
       .ofSlot "method" false Partial.method (fun v r => { r with method := some v })
         Method.decode,
       .ofSlot "headers" false Partial.headers (fun v r => { r with headers := some v })
         (Decode.map Decode.text Headers.insert []),
       .ofSlot "body" false Partial.body (fun v r => { r with body := some v })
         (Decode.optional Decode.json)] }

/-- Decodes a remote call. -/
def decode (source : Source) (draft : Draft) : Decode ApiCall := do
  let call ← rule.read source draft {}
  return { url := call.url.getD "", method := call.method.getD .get,
           headers := call.headers.getD [], body := call.body.getD none }

/-- The remote call a value describes. -/
def ofJson (value : Json) : Decode ApiCall := decode .ofValue (.ofJson value)

end ApiCall

namespace Action

/-- An action while it is read. -/
structure Partial where
  kind : Option ActionKind := none
  target : Option (Option String) := none
  params : Option (Option Json) := none
  onSuccess : Option (Option Action) := none
  onError : Option (Option Action) := none

/-- What a field of an action is given as: a draft, and the action the draft would be. -/
abbrev Given := Draft × (Source → Decode Action)

/-- A continuation, or none for `null`. -/
def readContinuation (source : Source) (given : Given) : Decode (Option Action) :=
  match given.1 with
  | .null => return none
  | _ => some <$> given.2 source

/-- The fields of an action. -/
def rule : RecordRule Partial Given :=
  { name := "ActionSpec"
    fields :=
      [.ofSlot "action" true Partial.kind (fun v r => { r with kind := some v })
         (fun source given => ActionKind.ofName <$> Decode.text source given.1),
       .ofSlot "target" false Partial.target (fun v r => { r with target := some v })
         (fun source given => Decode.optional Decode.text source given.1),
       .ofSlot "params" false Partial.params (fun v r => { r with params := some v })
         (fun source given => Decode.optional Decode.json source given.1),
       .ofSlot "successAction" false Partial.onSuccess (fun v r => { r with onSuccess := some v })
         readContinuation,
       .ofSlot "errorAction" false Partial.onError (fun v r => { r with onError := some v })
         readContinuation] }

/-- The action whose fields have been read. -/
def Partial.finish (action : Partial) : Action :=
  { kind := action.kind.getD (.unknown ""), target := action.target.getD none,
    params := action.params.getD none, onSuccess := action.onSuccess.getD none,
    onError := action.onError.getD none }

mutual

/-- Decodes an action. -/
def decodeDraft : Draft → Source → Decode Action
  | .object entries ending, source =>
    Partial.finish <$> rule.readObject source (givenEntries entries) ending {}
  | .array items ending, source =>
    Partial.finish <$> rule.readArray source (givenItems items) ending {}
  | draft, _ => rule.refuse draft

/-- Entries together with the actions their values would be. -/
def givenEntries : List (Option String × Draft) → List (Option String × Draft × Given)
  | [] => []
  | (name, draft) :: entries => (name, draft, draft, decodeDraft draft) :: givenEntries entries

/-- Items together with the actions they would be. -/
def givenItems : List Draft → List (Draft × Given)
  | [] => []
  | draft :: drafts => (draft, draft, decodeDraft draft) :: givenItems drafts

end

/-- Decodes an action. -/
def decode (source : Source) (draft : Draft) : Decode Action := decodeDraft draft source

/-- The action a value describes. -/
def ofJson (value : Json) : Decode Action := decode .ofValue (.ofJson value)

end Action

namespace DataBinding

/-- A binding while it is read. -/
structure Partial where
  source : Option String := none
  field : Option (Option String) := none
  transform : Option (Option String) := none

/-- The fields of a binding. -/
def rule : RecordRule Partial Draft :=
  { name := "DataBinding"
    fields :=
      [.ofSlot "source" true Partial.source (fun v r => { r with source := some v }) Decode.text,
       .ofSlot "field" false Partial.field (fun v r => { r with field := some v })
         (Decode.optional Decode.text),
       .ofSlot "transform" false Partial.transform (fun v r => { r with transform := some v })
         (Decode.optional Decode.text)] }

/-- Decodes a binding. -/
def decode (source : Source) (draft : Draft) : Decode DataBinding := do
  let binding ← rule.read source draft {}
  return { source := binding.source.getD "", field := binding.field.getD none,
           transform := binding.transform.getD none }

end DataBinding

namespace Bindings

/-- Decodes the bindings of a node. -/
def decode : Source → Draft → Decode Bindings :=
  Decode.map DataBinding.decode insert []

/-- The bindings a value describes. -/
def ofJson (value : Json) : Decode Bindings := decode .ofValue (.ofJson value)

end Bindings

namespace FetchSpec

/-- A load while it is read. -/
structure Partial where
  key : Option String := none
  api : Option ApiCall := none
  transform : Option (Option String) := none
  onSuccess : Option (Option Action) := none
  onError : Option (Option Action) := none

/-- The fields of a load. -/
def rule : RecordRule Partial Draft :=
  { name := "DataFetchSpec"
    fields :=
      [.ofSlot "key" true Partial.key (fun v r => { r with key := some v }) Decode.text,
       .ofSlot "api" true Partial.api (fun v r => { r with api := some v }) ApiCall.decode,
       .ofSlot "transform" false Partial.transform (fun v r => { r with transform := some v })
         (Decode.optional Decode.text),
       .ofSlot "onSuccess" false Partial.onSuccess (fun v r => { r with onSuccess := some v })
         (Decode.optional Action.decode),
       .ofSlot "onError" false Partial.onError (fun v r => { r with onError := some v })
         (Decode.optional Action.decode)] }

/-- Decodes a load. -/
def decode (source : Source) (draft : Draft) : Decode FetchSpec := do
  let spec ← rule.read source draft {}
  return { key := spec.key.getD "", api := spec.api.getD default,
           transform := spec.transform.getD none, onSuccess := spec.onSuccess.getD none,
           onError := spec.onError.getD none }

end FetchSpec

namespace EventAction

/-- Reads the entries of an event binding: its own kind of event, and the other entries collected
for the action. -/
def collect (source : Source) :
    List (Option String × Draft) → Option EventKind → List (Option String × Draft) →
      Decode (Option EventKind × List (Option String × Draft))
  | [], event, collected => return (event, collected)
  | (none, _) :: _, _, _ => .error (.text .malformed)
  | (some name, draft) :: entries, event, collected =>
    if name = "type" then
      match event with
      | some _ => .fail (.duplicateField name)
      | none => do
        let event ← EventKind.decode source draft
        collect source entries (some event) collected
    else do
      let _ ← source.read draft
      collect source entries event (collected ++ [(some name, draft)])

/-- Decodes an event binding: an object that holds the kind of event beside the fields of the
action. -/
def decode (source : Source) (draft : Draft) : Decode EventAction :=
  match draft with
  | .object entries ending => do
    let inner ← source.enter
    let (event, collected) ← collect inner entries none []
    Decode.lift ending.check
    match event with
    | none => .fail (.missingField "type")
    | some event => do
      let action ← Action.decode .ofCollected (.object collected .closed)
      return { event, action }
  | draft => .wrongType draft "struct EventBinding"

end EventAction

namespace Condition

/-- The condition a value is. -/
def ofJson : Json → Condition
  | .bool b => .flag b
  | .text s => .expression s
  | value => .other value

/-- Decodes a condition; every value is one. -/
def decode (source : Source) (draft : Draft) : Decode Condition :=
  ofJson <$> source.read draft

end Condition

namespace Repeat

/-- The repetition a value describes, if it does. -/
def ofJson? : Json → Option Repeat
  | .array values => some (.items values)
  | .text key => some (.source key)
  | _ => none

/-- Decodes a repetition. -/
def decode (source : Source) (draft : Draft) : Decode Repeat := do
  let value ← source.read draft
  match ofJson? value with
  | some repetition => return repetition
  | none => .fail (.noForm "Repeat")

end Repeat

namespace Node

/-- A node while it is read. -/
structure Partial where
  kind : Option String := none
  props : Option Fields := none
  children : Option (Option Children) := none
  condition : Option (Option Condition) := none
  repetition : Option (Option Repeat) := none
  key : Option (Option Json) := none
  events : Option (List EventAction) := none
  bindings : Option Bindings := none
  fetches : Option (List FetchSpec) := none

/-- The fields of a node, given how its children are read. -/
def rule (children : Source → Draft → Decode (Option Children)) : RecordRule Partial Draft :=
  { name := "ComponentNode"
    fields :=
      [.ofSlot "type" true Partial.kind (fun v r => { r with kind := some v }) Decode.text,
       .ofSlot "props" false Partial.props (fun v r => { r with props := some v })
         (Decode.map Decode.json Fields.insert []),
       .ofSlot "children" false Partial.children (fun v r => { r with children := some v })
         children,
       .ofSlot "condition" false Partial.condition (fun v r => { r with condition := some v })
         (Decode.optional Condition.decode),
       .ofSlot "repeat" false Partial.repetition (fun v r => { r with repetition := some v })
         (Decode.optional Repeat.decode),
       .ofSlot "key" false Partial.key (fun v r => { r with key := some v })
         (Decode.optional Decode.json),
       .ofSlot "events" false Partial.events (fun v r => { r with events := some v })
         (Decode.list EventAction.decode),
       .ofSlot "bindings" false Partial.bindings (fun v r => { r with bindings := some v })
         Bindings.decode,
       .ofSlot "dataFetch" false Partial.fetches (fun v r => { r with fetches := some v })
         (Decode.list FetchSpec.decode)] }

/-- The node whose fields have been read. -/
def Partial.finish (node : Partial) : Node :=
  { kind := node.kind.getD "", props := node.props.getD [], children := node.children.getD none,
    condition := node.condition.getD none, repetition := node.repetition.getD none,
    key := node.key.getD none, events := node.events.getD [],
    bindings := node.bindings.getD [], fetches := node.fetches.getD [] }

/-- Decodes a node, given how its children are read. -/
def decodeWith (children : Source → Draft → Decode (Option Children)) (source : Source)
    (draft : Draft) : Decode Node :=
  Partial.finish <$> (rule children).read source draft {}

end Node

/-- The node a value describes, its children known already. -/
def Node.assemble (children : Option Children) (value : Json) : Decode Node :=
  Node.decodeWith (fun _ _ => return children) .ofValue (.ofJson value)

/-- The child a value describes, the children it has as a node known already.  An object that names
its type is meant for a node; what is not meant for one is content. -/
def Child.classify (children : Option Children) (value : Json) : Child :=
  match value.get? "type" with
  | some (.text _) =>
    match Node.assemble children value with
    | .ok parsed => .node parsed
    | .error _ => .invalid value
  | _ => .content value

mutual

/-- The children a value has as a node. -/
def Children.within : Json → Option Children
  | .object fields => Children.ofFields fields
  | .array values => Children.ofItems 2 values
  | _ => none

/-- The children among the fields of a node. -/
def Children.ofFields : List (String × Json) → Option Children
  | [] => none
  | (name, value) :: fields =>
    if name = "children" then Children.ofJson value else Children.ofFields fields

/-- The children at a place of a node given as an array. -/
def Children.ofItems : Nat → List Json → Option Children
  | _, [] => none
  | 0, value :: _ => Children.ofJson value
  | place + 1, _ :: values => Children.ofItems place values

/-- The children a value describes: none for `null`, a list for an array, otherwise one. -/
def Children.ofJson : Json → Option Children
  | .null => none
  | .array values => some (.many (Children.listOf values))
  | .object fields =>
    some (.one (Child.classify (Children.ofFields fields) (.object fields)))
  | value => some (.one (.content value))

/-- A child for each value of a list. -/
def Children.listOf : List Json → List Child
  | [] => []
  | value :: values => Child.classify (Children.within value) value :: Children.listOf values

end

/-- The node a value describes. -/
def Node.ofJson (value : Json) : Decode Node :=
  Node.assemble (Children.within value) value

/-- The child a value describes. -/
def Child.ofJson (value : Json) : Child :=
  Child.classify (Children.within value) value

namespace Decode

/-- What a whole text describes. -/
def ofText {α : Type} (f : Source → Draft → Decode α) (s : String) : Decode α := do
  let reading := Json.readText s
  let value ← f .ofText reading.root
  if reading.trailing then .error (.text .malformed) else return value

end Decode

namespace Children

/-- Decodes children from a text: their value is read whole first. -/
def decode (source : Source) (draft : Draft) : Decode (Option Children) :=
  ofJson <$> source.read draft

end Children

namespace Child

/-- Decodes a child. -/
def decode (source : Source) (draft : Draft) : Decode Child :=
  ofJson <$> source.read draft

end Child

namespace Node

/-- Decodes a node. -/
def decode : Source → Draft → Decode Node := decodeWith Children.decode

/-- The node a text describes. -/
def ofText (s : String) : Decode Node := Decode.ofText decode s

end Node

/-- The message for a configuration that is no node. -/
def configMessage (message : String) : String := "invalid configuration: " ++ message

end ViewTree
