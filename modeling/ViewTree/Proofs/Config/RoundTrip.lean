import ViewTree.Proofs.Config.Canonical

/-!
# Reading back what was written

A canonical configuration, written as a value, reads back as itself.  This goes piece by piece:
calls, actions, loads, event bindings, and then nodes and children by induction on the tree.
-/

namespace ViewTree

variable {source : Source}

/-- An object that is read piece by piece, to what is required, is read. -/
theorem RecordRule.read_ofJson {α : Type} {rule : RecordRule α Draft} {fields : Fields}
    {empty result : α} (hsource : source.Settled)
    (h : rule.Reads source id fields empty result)
    (hfilled : RecordRule.requireFilled result rule.fields = .ok ()) :
    rule.read source (.ofJson (.object fields)) empty = .ok result := by
  rw [Draft.ofJson, RecordRule.read, entriesOf_ofFields]
  exact h.readObject hsource hfilled

theorem Method.decode_ofJson (method : Method) :
    decode source (.ofJson (.text method.name)) = .ok method := by
  cases method <;> rfl

theorem EventKind.decode_ofJson (kind : EventKind) :
    decode source (.ofJson (.text kind.propName)) = .ok kind := by
  cases kind <;> rfl

/-! ### Remote calls -/

theorem Headers.decode_ofJson (hsource : source.Settled) {headers : Headers}
    (h : headers.Sorted) :
    Decode.map Decode.text insert [] source (.ofJson headers.toJson) = .ok headers := by
  refine Decode.map_ofJson hsource (fun entry _ => Decode.text_ofJson entry.2) ?_
  rintro first name value last rfl
  refine insert_of_lt fun entry hentry => ?_
  exact (List.pairwise_append.mp h).2.2 entry hentry _ List.mem_cons_self

namespace ApiCall

/-- The call while it is read, when everything has been read. -/
def read (call : ApiCall) : Partial :=
  { url := some call.url, method := some call.method,
    headers := if call.headers.isEmpty then none else some call.headers
    body := call.body.map some }

theorem finish_read (call : ApiCall) : call.read.finish = call := by
  obtain ⟨url, method, headers, body⟩ := call
  cases headers <;> cases body <;> rfl

/-- A canonical call reads back as itself. -/
theorem decode_ofJson (hsource : source.Settled) {call : ApiCall} (h : call.Canonical) :
    decode source (.ofJson call.toJson) = .ok call := by
  have hurl : rule.Reads source id [("url", .text call.url)] {} { url := some call.url } :=
    RecordRule.reads_one rfl rfl rfl rfl
  have hmethod : rule.Reads source id [("method", .text call.method.name)]
      { url := some call.url } { url := some call.url, method := some call.method } :=
    RecordRule.reads_one rfl rfl (Method.decode_ofJson _) rfl
  have hheaders : rule.Reads source id
      (if call.headers.isEmpty then [] else [("headers", call.headers.toJson)])
      { url := some call.url, method := some call.method } { call.read with body := none } :=
    RecordRule.reads_unless rfl rfl (fun _ => Headers.decode_ofJson hsource h.sorted)
      (by rw [read]; split <;> rfl)
  have hbody : rule.Reads source id (optionalField "body" (call.body.map id))
      { call.read with body := none } call.read :=
    RecordRule.reads_option rfl rfl
      (fun value hvalue => Decode.optional_json_ofJson hsource (h.body value hvalue))
      (by rw [read]; cases call.body <;> rfl)
  rw [Option.map_id] at hbody
  have hread := RecordRule.read_ofJson hsource
    (((hurl.append hmethod).append hheaders).append hbody) rfl
  rw [decode_eq, toJson]
  exact map_eq_ok.mpr ⟨_, hread, finish_read call⟩

end ApiCall

/-! ### Actions -/

namespace Action

theorem toField_eq (name : String) (next : Option Action) :
    toField name next = optionalField name (next.map toJson) := by
  cases next <;> rw [toField] <;> rfl

theorem toFields_eq (action : Action) : action.toFields =
    [("action", .text action.kind.name)] ++ optionalText "target" action.target
      ++ optionalField "params" (action.params.map id)
      ++ optionalField "successAction" (action.onSuccess.map toJson)
      ++ optionalField "errorAction" (action.onError.map toJson) := by
  cases action
  rw [toFields, toField_eq, toField_eq, Option.map_id]
  rfl

/-- A draft together with the action it would be. -/
def give (draft : Draft) : Given := (draft, decodeDraft draft)

theorem givenEntries_ofFields (fields : Fields) :
    givenEntries (Draft.ofFields fields) = RecordRule.entriesOf give fields := by
  induction fields with
  | nil => rfl
  | cons entry fields ih =>
    rw [Draft.ofFields, givenEntries, ih]
    rfl

theorem readContinuation_ofJson {action : Action}
    (h : decodeDraft (.ofJson action.toJson) source = .ok action) :
    readContinuation source (give (.ofJson action.toJson)) = .ok (some action) :=
  map_eq_ok.mpr ⟨action, h, rfl⟩

/-- The action while it is read, when everything has been read. -/
def read (action : Action) : Partial :=
  { kind := some action.kind, target := action.target.map some, params := action.params.map some,
    onSuccess := action.onSuccess.map some, onError := action.onError.map some }

theorem finish_read (action : Action) : action.read.finish = action := by
  obtain ⟨kind, target, params, onSuccess, onError⟩ := action
  cases target <;> cases params <;> cases onSuccess <;> cases onError <;> rfl

/-- A canonical action reads back as itself.  By induction on the actions that follow it. -/
theorem decode_ofJson (hsource : source.Settled) {action : Action} (h : action.Canonical) :
    decode source (.ofJson action.toJson) = .ok action := by
  induction h generalizing source with
  | @intro action kind params _ _ onSuccess onError =>
    have hkind : rule.Reads source give [("action", .text action.kind.name)] {}
        { kind := some action.kind } :=
      RecordRule.reads_one rfl rfl (map_eq_ok.mpr ⟨_, rfl, kind⟩) rfl
    have htarget : rule.Reads source give (optionalText "target" action.target)
        { kind := some action.kind }
        { kind := some action.kind, target := action.target.map some } :=
      RecordRule.reads_option rfl rfl (fun s _ => Decode.optional_text_ofJson s)
        (by cases action.target <;> rfl)
    have hparams : rule.Reads source give (optionalField "params" (action.params.map id))
        { kind := some action.kind, target := action.target.map some }
        { action.read with onSuccess := none, onError := none } :=
      RecordRule.reads_option rfl rfl
        (fun value hvalue => Decode.optional_json_ofJson hsource (params value hvalue))
        (by rw [read]; cases action.params <;> rfl)
    have hsuccess : rule.Reads source give
        (optionalField "successAction" (action.onSuccess.map toJson))
        { action.read with onSuccess := none, onError := none }
        { action.read with onError := none } :=
      RecordRule.reads_option rfl rfl
        (fun next hnext => readContinuation_ofJson (onSuccess next hnext hsource))
        (by rw [read]; cases action.onSuccess <;> rfl)
    have herror : rule.Reads source give
        (optionalField "errorAction" (action.onError.map toJson))
        { action.read with onError := none } action.read :=
      RecordRule.reads_option rfl rfl
        (fun next hnext => readContinuation_ofJson (onError next hnext hsource))
        (by rw [read]; cases action.onError <;> rfl)
    have hread := ((((hkind.append htarget).append hparams).append hsuccess).append
      herror).readObject hsource rfl
    rw [decode, toJson, Draft.ofJson, decodeDraft, givenEntries_ofFields, toFields_eq]
    exact map_eq_ok.mpr ⟨_, hread, finish_read action⟩

theorem type_not_mem_names (action : Action) : "type" ∉ Fields.names action.toFields := by
  rw [toFields_eq]
  cases action.target <;> cases action.params <;> cases action.onSuccess <;>
    cases action.onError <;> simp [Fields.names, optionalText, optionalField]

end Action

namespace EventAction

/-- Once the kind of event is known, the other entries are collected as they are. -/
theorem collect_ofFields (hsource : source.Settled) (event : EventKind) {fields : Fields}
    (h : "type" ∉ Fields.names fields) (collected : List (Option String × Draft)) :
    collect source (Draft.ofFields fields) (some event) collected
      = .ok (some event, collected ++ Draft.ofFields fields) := by
  induction fields generalizing collected with
  | nil =>
    rw [Draft.ofFields, List.append_nil]
    rfl
  | cons entry fields ih =>
    obtain ⟨name, value⟩ := entry
    obtain ⟨hne, hrest⟩ := not_or.mp (List.mem_cons.not.mp h)
    obtain ⟨result, hresult⟩ := hsource.exists_read value
    rw [Draft.ofFields, collect, if_neg (Ne.symm hne), hresult, ok_bind, ih hrest,
      List.append_assoc]
    rfl

/-- An event binding with a canonical action reads back as itself. -/
theorem decode_ofJson (hsource : source.Settled) {binding : EventAction}
    (h : binding.action.Canonical) : decode source (.ofJson binding.toJson) = .ok binding := by
  have hcollect := collect_ofFields hsource binding.event binding.action.type_not_mem_names []
  have haction := Action.decode_ofJson Source.settled_ofCollected h
  have hkind : EventKind.decode source (.text binding.event.propName) = .ok binding.event :=
    EventKind.decode_ofJson binding.event
  rw [Action.toJson, Draft.ofJson] at haction
  simp only [toJson, Draft.ofJson, decode, hsource.enter, ok_bind, Draft.ofFields, collect,
    if_pos, hkind, hcollect, Ending.check, Decode.lift_ok, List.nil_append,
    haction]
  rfl

end EventAction

/-! ### Bindings, loads and the other fields of a node -/

namespace DataBinding

/-- The binding while it is read, when everything has been read. -/
def read (binding : DataBinding) : Partial :=
  { source := some binding.source, field := binding.field.map some,
    transform := binding.transform.map some }

/-- A binding reads back as itself. -/
theorem decode_ofJson (hsource : source.Settled) (binding : DataBinding) :
    decode source (.ofJson binding.toJson) = .ok binding := by
  have hname : rule.Reads source id [("source", .text binding.source)] {}
      { source := some binding.source } := RecordRule.reads_one rfl rfl rfl rfl
  have hfield : rule.Reads source id (optionalText "field" binding.field)
      { source := some binding.source } { binding.read with transform := none } :=
    RecordRule.reads_option rfl rfl (fun s _ => Decode.optional_text_ofJson s)
      (by rw [read]; cases binding.field <;> rfl)
  have htransform : rule.Reads source id (optionalText "transform" binding.transform)
      { binding.read with transform := none } binding.read :=
    RecordRule.reads_option rfl rfl (fun s _ => Decode.optional_text_ofJson s)
      (by rw [read]; cases binding.transform <;> rfl)
  have hread := RecordRule.read_ofJson hsource ((hname.append hfield).append htransform) rfl
  refine bind_eq_ok.mpr ⟨_, hread, ?_⟩
  obtain ⟨name, field, transform⟩ := binding
  cases field <;> cases transform <;> rfl

end DataBinding

/-- Bindings of distinct props read back as themselves. -/
theorem Bindings.decode_ofJson (hsource : source.Settled) {bindings : Bindings}
    (h : bindings.Distinct) :
    decode source (.ofJson (.object (bindings.map fun (prop, binding) => (prop, binding.toJson))))
      = .ok bindings := by
  refine Decode.map_ofJson hsource (fun entry _ => DataBinding.decode_ofJson hsource entry.2) ?_
  rintro first prop binding last rfl
  refine insert_of_not_mem fun hmem => ?_
  rw [Distinct, List.map_append, List.map_cons] at h
  exact (List.nodup_append.mp h).2.2 _ hmem _ List.mem_cons_self rfl

namespace FetchSpec

/-- The load while it is read, when everything has been read. -/
def read (spec : FetchSpec) : Partial :=
  { key := some spec.key, api := some spec.api, transform := spec.transform.map some,
    onSuccess := spec.onSuccess.map some, onError := spec.onError.map some }

theorem finish_read (spec : FetchSpec) : spec.read.finish = spec := by
  obtain ⟨key, api, transform, onSuccess, onError⟩ := spec
  cases transform <;> cases onSuccess <;> cases onError <;> rfl

theorem optional_action_ofJson (hsource : source.Settled) {action : Action}
    (h : action.Canonical) :
    Decode.optional Action.decode source (.ofJson action.toJson) = .ok (some action) :=
  Decode.optional_ofJson (by rw [Action.toJson]; nofun) (Action.decode_ofJson hsource h)

/-- A canonical load reads back as itself. -/
theorem decode_ofJson (hsource : source.Settled) {spec : FetchSpec} (h : spec.Canonical) :
    decode source (.ofJson spec.toJson) = .ok spec := by
  have hkey : rule.Reads source id [("key", .text spec.key)] {} { key := some spec.key } :=
    RecordRule.reads_one rfl rfl rfl rfl
  have hapi : rule.Reads source id [("api", spec.api.toJson)]
      { key := some spec.key } { key := some spec.key, api := some spec.api } :=
    RecordRule.reads_one rfl rfl (ApiCall.decode_ofJson hsource h.api) rfl
  have htransform : rule.Reads source id (optionalText "transform" spec.transform)
      { key := some spec.key, api := some spec.api }
      { spec.read with onSuccess := none, onError := none } :=
    RecordRule.reads_option rfl rfl (fun s _ => Decode.optional_text_ofJson s)
      (by rw [read]; cases spec.transform <;> rfl)
  have hsuccess : rule.Reads source id
      (optionalField "onSuccess" (spec.onSuccess.map Action.toJson))
      { spec.read with onSuccess := none, onError := none } { spec.read with onError := none } :=
    RecordRule.reads_option rfl rfl
      (fun next hnext => optional_action_ofJson hsource (h.onSuccess next hnext))
      (by rw [read]; cases spec.onSuccess <;> rfl)
  have herror : rule.Reads source id (optionalField "onError" (spec.onError.map Action.toJson))
      { spec.read with onError := none } spec.read :=
    RecordRule.reads_option rfl rfl
      (fun next hnext => optional_action_ofJson hsource (h.onError next hnext))
      (by rw [read]; cases spec.onError <;> rfl)
  have hread := RecordRule.read_ofJson hsource
    ((((hkey.append hapi).append htransform).append hsuccess).append herror) rfl
  rw [decode_eq, toJson, Action.toField_eq, Action.toField_eq]
  exact map_eq_ok.mpr ⟨_, hread, finish_read spec⟩

end FetchSpec

theorem Condition.optional_decode_ofJson (hsource : source.Settled) {condition : Condition}
    (h : condition.Canonical) :
    Decode.optional decode source (.ofJson condition.toJson) = .ok (some condition) := by
  have hread := hsource.read h.present.wellNamed
  exact Decode.optional_ofJson h.present.ne_null (map_eq_ok.mpr ⟨_, hread, h.described⟩)

theorem Repeat.optional_decode_ofJson (hsource : source.Settled) {repetition : Repeat}
    (h : repetition.Canonical) :
    Decode.optional decode source (.ofJson repetition.toJson) = .ok (some repetition) := by
  have hne : repetition.toJson ≠ .null := by cases repetition <;> nofun
  refine Decode.optional_ofJson hne ?_
  simp only [decode, hsource.read h, ok_bind, ofJson?_toJson]
  rfl

/-! ### Nodes and children -/

namespace Fields

variable {name other : String}

/-- The props of a node read back as themselves. -/
theorem decode_ofJson (hsource : source.Settled) {fields : Fields}
    (h : (Json.object fields).WellNamed) :
    Decode.map Decode.json insert [] source (.ofJson (.object fields)) = .ok fields := by
  obtain ⟨hd, hvalues⟩ := Json.wellNamed_object.mp h
  have hid : fields.map (fun entry => (entry.1, id entry.2)) = fields := List.map_id fields
  rw [← hid]
  refine (Decode.map_ofJson hsource
    (fun entry hentry => hsource.read (hvalues entry hentry)) ?_).trans
      (congrArg Except.ok hid.symm)
  rintro first name value last rfl
  exact insert_of_not_mem (not_mem_of_distinct_append_cons hd)

theorem get?_optionalField_self (value : Option Json) :
    get? name (optionalField name value) = value := by
  cases value with
  | none => rfl
  | some value => exact if_pos rfl

theorem get?_optionalField_of_ne (h : other ≠ name) (value : Option Json) :
    get? name (optionalField other value) = none := by
  cases value with
  | none => rfl
  | some value => exact if_neg h

theorem get?_objectField_of_ne (h : other ≠ name) (fields : Fields) :
    get? name (objectField other fields) = none := by
  rw [objectField]
  split
  · rfl
  · exact if_neg h

theorem get?_listField_of_ne (h : other ≠ name) (values : List Json) :
    get? name (listField other values) = none := by
  rw [listField]
  split
  · rfl
  · exact if_neg h

end Fields

theorem Children.toField_eq (children : Option Children) :
    toField children = optionalField "children" (children.map toJson) := by
  cases children <;> rw [toField] <;> rfl

namespace Node

theorem toJson_eq (node : Node) : node.toJson =
    .object ([("type", .text node.kind)] ++ objectField "props" node.props
      ++ optionalField "children" (node.children.map Children.toJson)
      ++ optionalField "condition" (node.condition.map Condition.toJson)
      ++ optionalField "repeat" (node.repetition.map Repeat.toJson)
      ++ optionalField "key" (node.key.map id)
      ++ listField "events" (node.events.map EventAction.toJson)
      ++ objectField "bindings" (node.bindings.map fun (prop, binding) => (prop, binding.toJson))
      ++ listField "dataFetch" (node.fetches.map FetchSpec.toJson)) := by
  cases node
  rw [toJson, Children.toField_eq, Option.map_id]
  rfl

theorem typed_toJson (node : Node) : node.toJson.Typed := by
  rw [toJson_eq]
  exact ⟨node.kind, rfl⟩

/-- What is written under the name of the children. -/
theorem within_toJson (node : Node) :
    Children.within node.toJson = (node.children.map Children.toJson).bind Children.ofJson := by
  rw [toJson_eq, Children.within, Children.ofFields_eq]
  simp [Fields.get?_append, Fields.get?_optionalField_self, Fields.get?_optionalField_of_ne,
    Fields.get?_objectField_of_ne, Fields.get?_listField_of_ne, Fields.get?]

/-- The node while it is read, when everything has been read. -/
def read (node : Node) : Partial :=
  { kind := some node.kind
    props := if node.props.isEmpty then none else some node.props
    children := node.children.map some, condition := node.condition.map some
    repetition := node.repetition.map some, key := node.key.map some
    events := if node.events.isEmpty then none else some node.events
    bindings := if node.bindings.isEmpty then none else some node.bindings
    fetches := if node.fetches.isEmpty then none else some node.fetches }

theorem finish_read (node : Node) : node.read.finish = node := by
  obtain ⟨kind, props, children, condition, repetition, key, events, bindings, fetches⟩ := node
  have hgetD : ∀ {α : Type} (o : Option α), (o.map some).getD none = o := fun o => by
    cases o <;> rfl
  have hlist : ∀ {α : Type} (l : List α), (if l.isEmpty then none else some l).getD [] = l :=
    fun l => by cases l <;> rfl
  simp only [read, Partial.finish, hgetD, hlist, Option.getD_some]

/-- A node whose other fields are canonical reads back as itself when its children are known. -/
theorem assemble_toJson {node : Node} (h : node.Settled) :
    assemble node.children node.toJson = .ok node := by
  have hsource := Source.settled_ofValue
  let rule := rule fun _ _ => return node.children
  have hkind : rule.Reads .ofValue id [("type", .text node.kind)] {} { kind := some node.kind } :=
    RecordRule.reads_one rfl rfl rfl rfl
  have hprops : rule.Reads .ofValue id (objectField "props" node.props)
      { kind := some node.kind } { kind := some node.kind, props := node.read.props } :=
    RecordRule.reads_unless rfl rfl (fun _ => Fields.decode_ofJson hsource h.props)
      (by rw [read]; cases node.props <;> rfl)
  have hchildren : rule.Reads .ofValue id
      (optionalField "children" (node.children.map Children.toJson))
      { kind := some node.kind, props := node.read.props }
      { kind := some node.kind, props := node.read.props, children := node.read.children } :=
    RecordRule.reads_option rfl rfl (fun _ hchildren => congrArg Except.ok hchildren)
      (by rw [read]; cases node.children <;> rfl)
  have hcondition : rule.Reads .ofValue id
      (optionalField "condition" (node.condition.map Condition.toJson))
      { kind := some node.kind, props := node.read.props, children := node.read.children }
      { node.read with
        repetition := none, key := none, events := none, bindings := none, fetches := none } :=
    RecordRule.reads_option rfl rfl
      (fun condition hmem => Condition.optional_decode_ofJson hsource (h.condition condition hmem))
      (by rw [read]; cases node.condition <;> rfl)
  have hrepetition : rule.Reads .ofValue id
      (optionalField "repeat" (node.repetition.map Repeat.toJson))
      { node.read with
        repetition := none, key := none, events := none, bindings := none, fetches := none }
      { node.read with key := none, events := none, bindings := none, fetches := none } :=
    RecordRule.reads_option rfl rfl
      (fun repetition hmem =>
        Repeat.optional_decode_ofJson hsource (h.repetition repetition hmem))
      (by rw [read]; cases node.repetition <;> rfl)
  have hkey : rule.Reads .ofValue id (optionalField "key" (node.key.map id))
      { node.read with key := none, events := none, bindings := none, fetches := none }
      { node.read with events := none, bindings := none, fetches := none } :=
    RecordRule.reads_option rfl rfl
      (fun key hmem => Decode.optional_json_ofJson hsource (h.key key hmem))
      (by rw [read]; cases node.key <;> rfl)
  have hevents : rule.Reads .ofValue id (listField "events" (node.events.map EventAction.toJson))
      { node.read with events := none, bindings := none, fetches := none }
      { node.read with bindings := none, fetches := none } :=
    RecordRule.reads_unless rfl rfl
      (fun _ => Decode.list_ofJson hsource
        (fun binding hmem => EventAction.decode_ofJson hsource (h.events binding hmem)))
      (by rw [read]; cases node.events <;> rfl)
  have hbindings : rule.Reads .ofValue id
      (objectField "bindings" (node.bindings.map fun (prop, binding) => (prop, binding.toJson)))
      { node.read with bindings := none, fetches := none } { node.read with fetches := none } :=
    RecordRule.reads_unless rfl rfl (fun _ => Bindings.decode_ofJson hsource h.bindings)
      (by rw [read]; cases node.bindings <;> rfl)
  have hfetches : rule.Reads .ofValue id
      (listField "dataFetch" (node.fetches.map FetchSpec.toJson))
      { node.read with fetches := none } node.read :=
    RecordRule.reads_unless rfl rfl
      (fun _ => Decode.list_ofJson hsource
        (fun spec hmem => FetchSpec.decode_ofJson hsource (h.fetches spec hmem)))
      (by rw [read]; cases node.fetches <;> rfl)
  have hread := RecordRule.read_ofJson hsource
    ((((((((hkind.append hprops).append hchildren).append hcondition).append hrepetition).append
      hkey).append hevents).append hbindings).append hfetches) rfl
  rw [assemble, decodeWith, toJson_eq]
  exact map_eq_ok.mpr ⟨_, hread, finish_read node⟩

end Node

mutual

/-- A canonical node reads back as itself. -/
theorem Node.ofJson_toJson : ∀ node : Node, node.Canonical →
    Node.ofJson node.toJson = .ok node
  | ⟨kind, props, children, condition, repetition, key, events, bindings, fetches⟩, h => by
    obtain ⟨hsettled, hchildren⟩ := Node.canonical_iff.mp h
    have hassemble := Node.assemble_toJson hsettled
    rw [Node.ofJson, Node.within_toJson, Children.bind_toJson children hchildren]
    exact hassemble

theorem Children.bind_toJson : ∀ children : Option Children, Children.CanonicalIn children →
    (children.map Children.toJson).bind Children.ofJson = children
  | none, _ => rfl
  | some children, h => Children.ofJson_toJson children h

/-- Canonical children read back as themselves. -/
theorem Children.ofJson_toJson : ∀ children : Children, children.Canonical →
    Children.ofJson children.toJson = some children
  | .many children, h => by
    rw [Children.toJson, Children.ofJson, Children.listOf_eq, Children.map_listToJson children h]
  | .one child, h => by
    obtain ⟨hchild, hnull, harray⟩ := h
    rw [Children.toJson, Children.ofJson_of_single hnull harray, Child.ofJson_toJson child hchild]

theorem Children.map_listToJson : ∀ children : List Child, Children.CanonicalAll children →
    (Children.listToJson children).map Child.ofJson = children
  | [], _ => rfl
  | child :: children, h => by
    obtain ⟨hchild, hchildren⟩ := h
    rw [Children.listToJson, List.map_cons, Child.ofJson_toJson child hchild,
      Children.map_listToJson children hchildren]

/-- A canonical child reads back as itself. -/
theorem Child.ofJson_toJson : ∀ child : Child, child.Canonical →
    Child.ofJson child.toJson = child
  | .node node, h => by
    rw [Child.toJson]
    exact Child.ofJson_of_ok node.typed_toJson (Node.ofJson_toJson node h)
  | .content _, h => h
  | .invalid _, h => h

end

end ViewTree
