import ViewTree.Proofs.Render.Merge
import ViewTree.Proofs.Session.Prompt
import ViewTree.Proofs.State.Condition
import ViewTree.Terminal.Drawing

/-!
# Choosing an option

A node that binds `options` to a list in the state and `value` to a path, and that writes the value
of a change to that path, shows what was chosen (`View.selection_round_trip`).  The value of the
option goes a long way: it becomes the payload of an event, a template makes a text of it, the text
is written to the state, read back by the binding, expanded as a template once more and compared
with the display texts of all options.

* `Node.Chooses.rendered`: what such a node renders to.
* `Scope.expandIn_eventValue`: the text that an event makes of its value.
* `selectedIndex_of_display`: which option a text selects.
-/

namespace ViewTree

open Terminal

/-! ### The text of an event -/

namespace Template

/-- A text in which no placeholder opens has no holes. -/
theorem plain_of_no_opening {text : String} (h : ¬ opening <:+: text.toList) : Plain text := by
  refine plain_of_no_placeholder fun before body after htext => absurd ?_ h
  refine ⟨before.toList, body.toList ++ '\x7d' :: after.toList, ?_⟩
  rw [htext, String.toList_append, String.toList_append, toList_placeholder]
  simp

/-- The placeholder of the value that the target of an event has. -/
def eventValue : String := placeholder "event.target.value"

theorem scan_eventValue : scan eventValue = [.hole "event.target.value".toList] := by decide +kernel

end Template

namespace Scope

variable {scope : Scope}

/-- The body of a placeholder of the event names the value at its path. -/
theorem resolve_event (scope : Scope) (path : String) :
    scope.resolve ("event." ++ path).toList = scope.event.bind (Json.lookup? path) := by
  have hbody : ("event." ++ path).toList = 'e' :: ("vent.".toList ++ path.toList) := by
    rw [String.toList_append]
    rfl
  have hstate : Text.stripLead "state.".toList ("event." ++ path).toList = none := by
    rw [hbody]
    rfl
  have hitem : Text.stripLead "item.".toList ("event." ++ path).toList = none := by
    rw [hbody]
    rfl
  have hwhole : ("event." ++ path).toList ≠ "item".toList := by
    rw [hbody]
    exact fun h => absurd (List.cons.inj h).1 (by decide)
  have hevent : Text.stripLead "event.".toList ("event." ++ path).toList = some path.toList := by
    rw [String.toList_append, Text.stripLead_append]
  rw [resolve, hstate, hitem, if_neg hwhole, hevent]
  exact congrArg (fun path => scope.event.bind (Json.lookup? path)) String.ofList_toList

/-- A template for the value of a change becomes the display text of that value. -/
theorem expandIn_eventValue {value : Json}
    (h : scope.event = some (UiEvent.change value).payload) :
    scope.expandIn (.text Template.eventValue) = .text value.display := by
  have hpath : Json.lookup? "target.value" (UiEvent.change value).payload = some value := rfl
  have hresolve : scope.resolve ("event." ++ "target.value").toList = some value := by
    rw [resolve_event, h, Option.bind_some, hpath]
  rw [expandIn, scope.expand_of_hole Template.scan_eventValue]
  exact congrArg (fun found => Json.text (displayOption found)) hresolve

end Scope

/-! ### A node that lets the user choose -/

/-- A node without condition and repetition whose props `options` and `value` are bound to a list
and to a path of the state, as they are, and that writes the value of a change to that path; it may
have any other props and handlers. -/
structure Node.Chooses (node : Node) (source key : String) : Prop where
  condition : node.condition = none
  repetition : node.repetition = none
  bindings : ∀ entry, entry ∈ node.bindings ↔
    entry = ("options", { source }) ∨ entry = ("value", { source := key })
  change : ∃ action, actionsFor .change node.events = [action] ∧ action.kind = .setState ∧
    action.target = some key ∧ action.params = some (.text Template.eventValue)

/-- Under a name other than those of the flags a binding leaves its own value, and that under its
prop. -/
theorem DataBinding.leaves?_of_ne {name : String} (herror : name ≠ "error")
    (hloading : name ≠ "loading") (prop : String) (binding : DataBinding) (state : Fields)
    (transforms : TransformTable) : binding.leaves? prop state transforms name
      = if name = prop then some (binding.ownValue state transforms) else none := by
  rw [leaves?, if_neg herror, if_neg hloading]
  rfl

theorem DataBinding.ownValue_of_plain (source : String) (state : Fields)
    (transforms : TransformTable) : DataBinding.ownValue { source } state transforms
      = (stateValue state source).getD .null := rfl

namespace Node

variable {node : Node} {scene : RenderScene} {source key name : String}

/-- A name under which only one binding leaves a value has that one. -/
theorem boundValue?_of_mem {entry : String × DataBinding} {value : Json}
    (hmem : entry ∈ node.bindings)
    (hleaves : entry.2.leaves? entry.1 scene.state scene.transforms name = some value)
    (hothers : ∀ other ∈ node.bindings, other ≠ entry →
      other.2.leaves? other.1 scene.state scene.transforms name = none) :
    node.boundValue? scene name = some value := by
  have hsome : (node.boundValue? scene name).isSome := by
    refine List.findSome?_isSome_iff.mpr ⟨entry, List.mem_reverse.mpr hmem, ?_⟩
    show (entry.2.leaves? entry.1 scene.state scene.transforms name).isSome = true
    rw [hleaves]
    rfl
  obtain ⟨found, hfound⟩ := Option.isSome_iff_exists.mp hsome
  obtain ⟨other, hother, hvalue⟩ := List.exists_of_findSome?_eq_some hfound
  by_cases heq : other = entry
  · subst heq
    rw [hfound, ← hleaves]
    exact hvalue.symm
  · have hnone := hothers other (List.mem_reverse.mp hother) heq
    exact nomatch hnone.symm.trans hvalue

namespace Chooses

variable (h : node.Chooses source key)

include h

theorem bound_options : node.boundValue? scene "options"
    = some ((stateValue scene.state source).getD .null) := by
  refine boundValue?_of_mem ((h.bindings _).mpr (.inl rfl)) ?_ fun other hother hne => ?_
  · rw [DataBinding.leaves?_of_ne (by decide) (by decide), if_pos rfl,
      DataBinding.ownValue_of_plain]
  · obtain rfl := ((h.bindings other).mp hother).resolve_left hne
    have hprop : "options" ≠ "value" := by decide
    rw [DataBinding.leaves?_of_ne (by decide) (by decide), if_neg hprop]

theorem bound_value : node.boundValue? scene "value"
    = some ((stateValue scene.state key).getD .null) := by
  refine boundValue?_of_mem ((h.bindings _).mpr (.inr rfl)) ?_ fun other hother hne => ?_
  · rw [DataBinding.leaves?_of_ne (by decide) (by decide), if_pos rfl,
      DataBinding.ownValue_of_plain]
  · obtain rfl := ((h.bindings other).mp hother).resolve_right hne
    have hprop : "value" ≠ "options" := by decide
    rw [DataBinding.leaves?_of_ne (by decide) (by decide), if_neg hprop]

/-- A node that lets the user choose, with a component that leaves its props alone, renders to a
single element with the list, the value at the path and the handler for a change. -/
theorem rendered (scene : RenderScene) {component : Component} {depth : Nat}
    (place : Option String)
    (hfind : scene.components.find? node.kind = some component)
    (hkeeps : ∀ props children, (component props children).props = props)
    (hdepth : depth ≤ scene.maxDepth) :
    ∃ select, renderNode scene depth place node = [select] ∧
      select.prop "options"
        = some (scene.scope.expandText ((stateValue scene.state source).getD .null)) ∧
      select.prop "value"
        = some (scene.scope.expandText ((stateValue scene.state key).getD .null)) ∧
      select.handler .change = some ⟨.change, actionsFor .change node.events⟩ := by
  have hshown : Condition.admits scene.scope node.condition = true := by
    rw [h.condition]
    rfl
  let select := node.instantiate scene component
    (renderOptional scene (depth + 1) node.children)
    ((node.key.map Json.display).or place, node.props)
  have hprops : select.props = node.attributes scene node.props := hkeeps _ _
  have hvalue : ∀ name value, (∀ kind : EventKind, kind.propName ≠ name) →
      node.boundValue? scene name = some value →
      select.prop name = some (scene.scope.expandText value) := by
    intro name value hname hbound
    rw [Element.prop, hprops, get?_attributes_of_unhandled node.props fun _ _ => hname _, hbound]
    rfl
  refine ⟨select, ?single, ?options, ?value, ?handler⟩
  case single =>
    rw [renderNode_eq, elements_of_shown hdepth hshown hfind, instances_of_single h.repetition]
    exact List.map_singleton
  case options => exact hvalue _ _ (fun kind => by cases kind <;> decide) h.bound_options
  case value => exact hvalue _ _ (fun kind => by cases kind <;> decide) h.bound_value
  case handler =>
    obtain ⟨action, haction, -⟩ := h.change
    have hhandled : ∃ binding ∈ node.events, binding.event = .change := by
      by_contra hnone
      rw [actionsFor_eq_nil hnone] at haction
      exact List.cons_ne_nil _ _ haction.symm
    rw [Element.handler, hprops, get?_attributes_of_handled node.props hhandled]
    rfl

end Chooses

end Node

/-! ### Which option is selected -/

namespace Terminal

theorem choices_of_options {select : Element} {items : List Json}
    (h : select.prop "options" = some (.array items)) :
    choices select = items.map Choice.ofJson := by
  rw [choices, h]

/-- A text selects the option with that display text, when there is no other one. -/
theorem selectedIndex_of_display {select : Element} {i : Nat} {choice : Choice}
    (hdistinct : ((choices select).map fun choice => choice.value.display).Nodup)
    (hchoice : (choices select)[i]? = some choice)
    (hvalue : select.prop "value" = some (.text choice.value.display)) :
    selectedIndex select = some i := by
  have hset : setProp select "value" = some (.text choice.value.display) := by
    rw [setProp, hvalue]
    rfl
  rw [selectedIndex, hset, Option.bind_some, List.findIdx?_eq_some_iff_getElem]
  obtain ⟨hi, rfl⟩ := List.getElem?_eq_some_iff.mp hchoice
  refine ⟨hi, beq_self_eq_true _, fun j hji hsame => ?_⟩
  -- No earlier option has the same display text.
  have hne := List.pairwise_iff_getElem.mp (List.pairwise_map.mp hdistinct) j i
    (Nat.lt_trans hji hi) hi hji
  exact hne (beq_iff_eq.mp hsame)

end Terminal

/-! ### The round trip -/

/-- What rendering a view reads. -/
def View.scene (view : View) : RenderScene :=
  { state := view.store.fields, components := view.components
    transforms := view.setting.transforms, maxDepth := view.setting.options.maxDepth }

theorem View.render_eq (view : View) :
    view.render = renderNode view.scene 0 none view.root := rfl

namespace Node.Chooses

variable {node : Node} {source key : String} {view : View} {component : Component}
  {depth i : Nat} {place : Option String} {items : List Json} {choice : Choice} {action : Action}

/-- Where the state holds the list and, at the path, the text of an option, that option shows. -/
theorem selects (h : node.Chooses source key)
    (hfind : view.components.find? node.kind = some component)
    (hkeeps : ∀ props children, (component props children).props = props)
    (hdepth : depth ≤ view.setting.options.maxDepth)
    (hdistinct : (items.map fun item => (Choice.ofJson item).value.display).Nodup)
    (hchoice : (items.map Choice.ofJson)[i]? = some choice)
    (hplain : ¬ Template.opening <:+: choice.value.display.toList)
    (hitems : view.store.get? source = some (.array items))
    (hvalue : view.store.get? key = some (.text choice.value.display)) :
    ∃ select, renderNode view.scene depth place node = [select] ∧
      selectedIndex select = some i := by
  obtain ⟨select, hsingle, hoptions, hshown, -⟩ :=
    h.rendered view.scene place hfind hkeeps hdepth
  have hlist : stateValue view.scene.state source = some (.array items) := hitems
  have htext : stateValue view.scene.state key = some (.text choice.value.display) := hvalue
  rw [hlist] at hoptions
  rw [htext] at hshown
  have hchoices : choices select = items.map Choice.ofJson := choices_of_options hoptions
  -- Expanding the text once more leaves it as it is.
  have hplain : select.prop "value" = some (.text choice.value.display) := by
    rw [hshown]
    exact congrArg (fun s => some (Json.text s))
      (view.scene.scope.expand_of_plain (Template.plain_of_no_opening hplain))
  refine ⟨select, hsingle, selectedIndex_of_display ?_ (hchoices ▸ hchoice) hplain⟩
  rw [hchoices, List.map_map]
  exact hdistinct

/-- The handler for a change writes the text of the option to the path, and ends. -/
theorem turn_change (hkind : action.kind = .setState) (htarget : action.target = some key)
    (hparams : action.params = some (.text Template.eventValue)) (hlive : view.isEnded = false)
    (choice : Choice) :
    ∃ link result, (Job.routine view.setting).run view.world
        (.handler (.start ⟨.change, [action]⟩ (UiEvent.change choice.value).payload))
      = ((view.world.set key (.text choice.value.display)).record link, .finished result) := by
  let payload := (UiEvent.change choice.value).payload
  have hvalue : (view.world.scope (some payload)).expandIn (action.params.getD .null)
      = .text choice.value.display := by
    rw [hparams]
    exact Scope.expandIn_eventValue rfl
  have hturn := Job.turn_setState view.setting view.world .change payload hkind htarget hlive
  rw [hvalue] at hturn
  exact ⟨_, _, hturn⟩

/-- Writing to the path leaves the list as it is. -/
theorem get?_source (hapart : ¬ Path.Comparable key source) (hopen : view.store.Open key)
    (hitems : view.store.get? source = some (.array items)) (text : String) :
    (view.store.set key (.text text)).get? source = some (.array items) := by
  rw [Store.get?_eq_walk?, Store.fields_set (by simp), Fields.walk?_write_of_open
    (Path.apart_of_not_comparable hapart) (Store.open_iff_openAlong.mp hopen)]
  exact hitems

/-- In any view whose state is another one's with the text of an option at the path, that option
shows. -/
theorem selects_after (h : node.Chooses source key) {after : View}
    (hfind : after.components.find? node.kind = some component)
    (hkeeps : ∀ props children, (component props children).props = props)
    (hdepth : depth ≤ after.setting.options.maxDepth)
    (hdistinct : (items.map fun item => (Choice.ofJson item).value.display).Nodup)
    (hchoice : (items.map Choice.ofJson)[i]? = some choice)
    (hplain : ¬ Template.opening <:+: choice.value.display.toList)
    (hapart : ¬ Path.Comparable key source) (hopen : view.store.Open key)
    (hitems : view.store.get? source = some (.array items))
    (hstore : after.store = view.store.set key (.text choice.value.display)) :
    ∃ shown, renderNode after.scene depth place node = [shown] ∧
      selectedIndex shown = some i := by
  refine h.selects hfind hkeeps hdepth hdistinct hchoice hplain ?source ?key
  case source =>
    rw [hstore]
    exact get?_source hapart hopen hitems _
  case key =>
    rw [hstore]
    exact Store.get?_set_self (by simp)

end Node.Chooses

/-- **Choosing an option.**  A node binds a list to its options and a path of the state to its
value, and its only action for a change writes the value of the event to that path.  The options
have different display texts, and in none of these does a placeholder open; the path and that of the
list do not lead to one another, and whatever leads to the path is an object.  In a view that goes
on, firing the handler with a change to the value of an option makes the node show that option,
whatever values the options have: when the host waits for the handler, and also when the handler
runs in a background that has nothing else to do. -/
theorem View.selection_round_trip {view : View} {node : Node} {source key : String}
    {component : Component} {depth : Nat} {place : Option String} {items : List Json}
    (hnode : node.Chooses source key)
    (hfind : view.components.find? node.kind = some component)
    (hkeeps : ∀ props children, (component props children).props = props)
    (hdepth : depth ≤ view.setting.options.maxDepth) (hlive : view.isEnded = false)
    (hitems : view.store.get? source = some (.array items))
    (hapart : ¬ Path.Comparable key source) (hopen : view.store.Open key)
    (hdistinct : (items.map fun item => (Choice.ofJson item).value.display).Nodup)
    (hplain : ∀ item ∈ items,
      ¬ Template.opening <:+: (Choice.ofJson item).value.display.toList) :
    ∃ select handler, renderNode view.scene depth place node = [select] ∧
      select.handler .change = some handler ∧ choices select = items.map Choice.ofJson ∧
      ∀ i choice, (choices select)[i]? = some choice →
        let waited := (view.fireAndWait handler (UiEvent.change choice.value).payload).1
        let fired := (view.fire handler (.change choice.value)).settle
        (∃ shown, renderNode waited.scene depth place node = [shown] ∧
          selectedIndex shown = some i) ∧
        (view.Idle → ∃ shown, renderNode fired.scene depth place node = [shown] ∧
          selectedIndex shown = some i) := by
  obtain ⟨select, hsingle, hoptions, -, hhandler⟩ :=
    hnode.rendered view.scene place hfind hkeeps hdepth
  have hlist : stateValue view.scene.state source = some (.array items) := hitems
  rw [hlist] at hoptions
  have hchoices : choices select = items.map Choice.ofJson := choices_of_options hoptions
  obtain ⟨action, haction, hkind, htarget, hparams⟩ := hnode.change
  rw [haction] at hhandler
  refine ⟨select, _, hsingle, hhandler, hchoices, fun i choice hchoice => ?_⟩
  rw [hchoices] at hchoice
  obtain ⟨link, result, hturn⟩ :=
    Node.Chooses.turn_change hkind htarget hparams hlive choice
  have hopening : ¬ Template.opening <:+: choice.value.display.toList := by
    obtain ⟨item, hitem, rfl⟩ := List.mem_map.mp (List.mem_of_getElem? hchoice)
    exact hplain item hitem
  have hshows : ∀ after : View, after.components = view.components →
      after.setting = view.setting →
      after.world = (view.world.set key (.text choice.value.display)).record link →
      ∃ shown, renderNode after.scene depth place node = [shown] ∧
        selectedIndex shown = some i := by
    intro after hcomponents hsetting hworld
    exact hnode.selects_after (hcomponents ▸ hfind) hkeeps (hsetting ▸ hdepth) hdistinct hchoice
      hopening hapart hopen hitems (congrArg World.store hworld)
  refine ⟨?waited, fun hidle => ?fired⟩
  case waited =>
    have hrun := Session.runJob_of_finished hturn hlive
    rw [Session.fst_fireAndWait, hrun]
    exact hshows _ rfl rfl rfl
  case fired =>
    have hidle' : ({ view with fired := view.fired + 1 } : View).Idle :=
      ⟨hidle.ready, hidle.waiting⟩
    rw [Session.fire_of_live hlive]
    exact hshows _ rfl rfl (Session.world_settle_spawn hidle' _ hturn hlive hlive)

/-- Options of all sorts, one of them `null`, over a path that is not there yet: the select shows
`null` once it has been chosen, by its empty text. -/
theorem View.selection_round_trip_null :
    let items := [.text "a", .null, .object [("label", .text "yes"), ("value", .bool true)],
      .object [("id", .array [])]]
    let node := { Node.ofKind "Select" with
      bindings := [("options", { source := "users" }), ("value", { source := "form.user" })]
      events := [⟨.change, .setState "form.user" (.text "$\x7bevent.target.value\x7d")⟩] }
    let view := (View.create node .standard ⟨{}, ⟨[]⟩⟩ {}).set "users" (.array items)
    node.Chooses "users" "form.user" ∧ view.store.Open "form.user" ∧ view.Idle ∧
      ∃ select handler, view.render = [select] ∧ select.handler .change = some handler ∧
        (choices select)[1]? = some (Choice.ofJson .null) ∧
        (∃ shown, (view.fireAndWait handler (UiEvent.change .null).payload).1.render = [shown] ∧
          selectedIndex shown = some 1) ∧
        ∃ shown, (view.fire handler (.change .null)).settle.render = [shown] ∧
          selectedIndex shown = some 1 := by
  intro items node view
  have hnode : node.Chooses "users" "form.user" :=
    ⟨rfl, rfl, fun entry => by simp [node], _, rfl, rfl, rfl, rfl⟩
  have hitems : view.store.get? "users" = some (.array items) := rfl
  have hopen : view.store.Open "form.user" := by
    refine Store.open_iff_openAlong.mpr ?_
    show Fields.OpenAlong ["form", "user"] view.store.fields
    intro value hvalue
    have hnone : Fields.get? "form" view.store.fields = none := rfl
    exact nomatch hnone.symm.trans hvalue
  have hidle : view.Idle := ⟨rfl, rfl⟩
  have hfind : view.components.find? node.kind = some (.passthrough "Select") := rfl
  have hdepth : 0 ≤ view.setting.options.maxDepth := by decide
  have hapart : ¬ Path.Comparable "form.user" "users" := by decide +kernel
  have hdistinct : (items.map fun item => (Choice.ofJson item).value.display).Nodup := by
    decide +kernel
  have hplain : ∀ item ∈ items,
      ¬ Template.opening <:+: (Choice.ofJson item).value.display.toList := by
    decide +kernel
  obtain ⟨select, handler, hsingle, hhandler, hchoices, hall⟩ :=
    View.selection_round_trip hnode hfind (fun _ _ => rfl) hdepth rfl hitems hapart hopen hdistinct
      hplain
  have hnull : (choices select)[1]? = some (Choice.ofJson .null) := by
    rw [hchoices]
    rfl
  obtain ⟨hwaited, hfired⟩ := hall 1 _ hnull
  have hroot : (view.fireAndWait handler (UiEvent.change .null).payload).1.root = node := by
    rw [Session.fst_fireAndWait]
    rfl
  refine ⟨hnode, hopen, hidle, select, handler, hsingle, hhandler, hnull, ?_, hfired hidle⟩
  rw [View.render_eq, hroot]
  exact hwaited

end ViewTree
