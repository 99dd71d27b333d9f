import Mathlib.Data.List.Induction
import ViewTree.Proofs.Json.Reading
import ViewTree.Proofs.Render.Props

/-!
# Merged props

The props of an element come from its bindings, its handlers and what its node gives outright.
`Node.props_merged` says which of them counts under a name: a handler, else what the last binding
to leave a value there has left (`Node.boundValue?`), else what is given outright.  What a binding
leaves is `DataBinding.leaves?`, its own value (`DataBinding.ownValue`) among it.

Writing entries one after another leaves the last one of each name (`Fields.get?_insertAll`), so a
binding is looked for from the end of the list on (`Node.get?_bound`).  The handlers are found by
adding one action at a time (`mem_handlersOf_iff`); their names are distinct, so that none hides
another.
-/

namespace ViewTree

/-! ### Entries written one after another -/

namespace Fields

variable {name : String} {fields entries : Fields}

/-- Of the entries of a name the last one counts. -/
theorem get?_insertAll : get? name (insertAll fields entries)
    = (get? name entries.reverse).or (get? name fields) := by
  induction entries generalizing fields with
  | nil => rfl
  | cons entry entries ih =>
    obtain ⟨key, value⟩ := entry
    rw [insertAll_cons, ih, get?_insert, List.reverse_cons, get?_append, Option.or_assoc,
      get?_cons]
    by_cases hname : name = key
    · rw [if_pos hname, if_pos hname.symm]
      rfl
    · rw [if_neg hname, if_neg (Ne.symm hname)]
      rfl

theorem get?_flatMap {α : Type} (f : α → Fields) (items : List α) :
    get? name (items.flatMap f) = items.findSome? fun item => get? name (f item) := by
  induction items with
  | nil => rfl
  | cons item items ih =>
    rw [List.flatMap_cons, get?_append, ih, List.findSome?_cons]
    cases get? name (f item) <;> rfl

theorem distinct_insertAll (hd : Distinct fields) : Distinct (insertAll fields entries) := by
  induction entries generalizing fields with
  | nil => exact hd
  | cons entry entries ih => exact ih (distinct_insert hd)

theorem get?_reverse (hd : Distinct fields) : get? name fields.reverse = get? name fields := by
  have hreverse : Distinct fields.reverse := by
    rw [Distinct, names, List.map_reverse]
    exact List.nodup_reverse.mpr hd
  ext value
  rw [get?_eq_some_iff hreverse, get?_eq_some_iff hd, List.mem_reverse]

end Fields

namespace Attributes

variable {name : String} {prop : Attribute} {props : Attributes}
  {entries : List (String × Attribute)}

theorem insertAll_cons (entry : String × Attribute) : insertAll props (entry :: entries)
    = insertAll (insert entry.1 entry.2 props) entries := rfl

theorem get?_insertAll_of_not_mem (h : name ∉ entries.map Prod.fst) :
    get? name (insertAll props entries) = get? name props := by
  induction entries generalizing props with
  | nil => rfl
  | cons entry entries ih =>
    obtain ⟨hne, hrest⟩ := not_or.mp (List.mem_cons.not.mp h)
    rw [insertAll_cons, ih hrest, get?_insert, if_neg hne]

/-- Where the names are distinct, each entry counts. -/
theorem get?_insertAll_of_mem (hd : (entries.map Prod.fst).Nodup) (h : (name, prop) ∈ entries) :
    get? name (insertAll props entries) = some prop := by
  induction entries generalizing props with
  | nil => exact absurd h List.not_mem_nil
  | cons entry entries ih =>
    obtain ⟨hnew, hd⟩ := List.nodup_cons.mp hd
    rw [insertAll_cons]
    rcases List.mem_cons.mp h with rfl | h
    · rw [get?_insertAll_of_not_mem hnew, get?_insert, if_pos rfl]
    · exact ih hd h

theorem names_insert : (insert name prop props).map Prod.fst
    = if name ∈ props.map Prod.fst then props.map Prod.fst else props.map Prod.fst ++ [name] := by
  induction props with
  | nil => rfl
  | cons entry props ih =>
    obtain ⟨key, old⟩ := entry
    rw [insert]
    by_cases hkey : key = name
    · subst hkey
      simp
    · simp only [if_neg hkey, List.map_cons, ih, List.mem_cons, Ne.symm hkey, false_or]
      split <;> rfl

theorem nodup_insertAll (hd : (props.map Prod.fst).Nodup) :
    ((insertAll props entries).map Prod.fst).Nodup := by
  induction entries generalizing props with
  | nil => exact hd
  | cons entry entries ih =>
    refine ih ?_
    rw [names_insert]
    split
    · exact hd
    case isFalse hnew =>
      rw [← List.concat_eq_append]
      exact hd.concat hnew

end Attributes

/-! ### Bindings -/

namespace DataBinding

/-- The value a binding gives its own prop: what the state holds at its source, and in there at its
field if it names one, or `null` where that is missing, after its transform. -/
def ownValue (binding : DataBinding) (state : Fields) (transforms : TransformTable) : Json :=
  let source := Fields.lookup? (Path.ofString binding.source) state
  let value :=
    match binding.field with
    | some field => source.bind (Json.lookup? field)
    | none => source
  transforms.applyOption binding.transform (value.getD .null)

theorem resolve_eq_ownValue (binding : DataBinding) (state : Fields)
    (transforms : TransformTable) :
    binding.resolve state transforms = binding.ownValue state transforms := by
  unfold resolve ownValue select
  cases binding.field with
  | some field => rfl
  | none =>
    show transforms.applyOption _ (((stateValue state binding.source).bind some).getD .null) = _
    rw [Option.bind_fun_some]
    rfl

/-- What a binding of a prop leaves under a name: the error of its source under `error`, if that is
set, else the loading flag of its source under `loading`, if there is one, else its own value under
its prop. -/
def leaves? (prop : String) (binding : DataBinding) (state : Fields) (transforms : TransformTable)
    (name : String) : Option Json :=
  let found (path : String) := Fields.lookup? (Path.ofString path) state
  (if name = "error" then (found (binding.source ++ "_error")).filter Json.truthy else none)
  |>.or (if name = "loading" then found (binding.source ++ "_loading") else none)
  |>.or (if name = prop then some (binding.ownValue state transforms) else none)

theorem get?_assignments (prop : String) (binding : DataBinding) (state : Fields)
    (transforms : TransformTable) (name : String) :
    Fields.get? name (binding.assignments prop state transforms).reverse
      = binding.leaves? prop state transforms name := by
  have hentry : ∀ (key : String) (found : Option Json),
      Fields.get? name (found.toList.map fun value => (key, value)).reverse
        = if name = key then found else none := by
    intro key found
    cases found with
    | none => exact (ite_self none).symm
    | some value =>
      refine (Fields.get?_cons key value).trans ?_
      simp only [eq_comm]
      rfl
  have hown : Fields.get? name [(prop, binding.ownValue state transforms)]
      = if name = prop then some (binding.ownValue state transforms) else none :=
    hentry prop (some _)
  rw [assignments, resolve_eq_ownValue, List.reverse_append, List.reverse_cons, Fields.get?_append,
    Fields.get?_append, hentry, hentry, hown, ← Option.or_assoc]
  rfl

end DataBinding

namespace Node

variable (node : Node) (scene : RenderScene) (name : String)

/-- What the bindings of a node leave under a name: what the last of them does that leaves a value
there. -/
def boundValue? : Option Json :=
  node.bindings.reverse.findSome? fun (prop, binding) =>
    binding.leaves? prop scene.state scene.transforms name

theorem get?_bound : Fields.get? name (node.bound scene) = node.boundValue? scene name := by
  rw [bound, Bindings.resolve, Fields.get?_insertAll, List.reverse_flatMap, Fields.get?_flatMap]
  refine (Option.or_none ..).trans ?_
  unfold boundValue?
  refine congrArg (List.findSome? · node.bindings.reverse) (funext fun entry => ?_)
  exact entry.2.get?_assignments entry.1 scene.state scene.transforms name

end Node

/-! ### Handlers -/

theorem EventKind.propName_injective : Function.Injective EventKind.propName := by
  intro first second h
  revert h
  cases first <;> cases second <;> decide

/-- The actions attached to a kind of event, in the order of their declaration. -/
def actionsFor (event : EventKind) (events : List EventAction) : List Action :=
  (events.filter fun binding => binding.event = event).map EventAction.action

theorem actionsFor_concat (event : EventKind) (events : List EventAction) (binding : EventAction) :
    actionsFor event (events ++ [binding]) = actionsFor event events
      ++ if binding.event = event then [binding.action] else [] := by
  rw [actionsFor, List.filter_append, List.map_append]
  by_cases h : binding.event = event <;> simp [actionsFor, h]

theorem actionsFor_eq_nil {event : EventKind} {events : List EventAction}
    (h : ¬∃ binding ∈ events, binding.event = event) : actionsFor event events = [] := by
  have hnone : events.filter (fun binding => binding.event = event) = [] := by
    refine List.filter_eq_nil_iff.mpr fun binding hmem => ?_
    simpa using fun heq => h ⟨binding, hmem, heq⟩
  rw [actionsFor, hnone, List.map_nil]

theorem handlersOf_concat (events : List EventAction) (binding : EventAction) :
    handlersOf (events ++ [binding]) = addToHandlers binding (handlersOf events) :=
  List.foldl_concat ..

section

variable {binding : EventAction} {handlers : List Handler} {handler : Handler}

theorem events_addToHandlers : (addToHandlers binding handlers).map Handler.event
    = if binding.event ∈ handlers.map Handler.event then handlers.map Handler.event
      else handlers.map Handler.event ++ [binding.event] := by
  induction handlers with
  | nil => rfl
  | cons first handlers ih =>
    rw [addToHandlers]
    by_cases hfirst : first.event = binding.event
    · simp [hfirst]
    · simp only [if_neg hfirst, List.map_cons, ih, List.mem_cons, Ne.symm hfirst, false_or]
      split <;> rfl

/-- An action goes to the end of the handler for its kind of event; where there is none it is all
there is to a new one. -/
theorem mem_addToHandlers_iff (hd : (handlers.map Handler.event).Nodup) :
    handler ∈ addToHandlers binding handlers ↔
      (handler ∈ handlers ∧ handler.event ≠ binding.event) ∨
      (∃ earlier ∈ handlers, earlier.event = binding.event ∧
        handler = ⟨binding.event, earlier.actions ++ [binding.action]⟩) ∨
      (binding.event ∉ handlers.map Handler.event ∧
        handler = ⟨binding.event, [binding.action]⟩) := by
  induction handlers with
  | nil => simp [addToHandlers]
  | cons first handlers ih =>
    obtain ⟨hnew, hd⟩ := List.nodup_cons.mp hd
    rw [addToHandlers]
    by_cases hfirst : first.event = binding.event
    · -- No other handler is for the kind of event of the first one.
      have hother : ∀ later ∈ handlers, later.event ≠ binding.event := by
        intro later hmem heq
        exact hnew (hfirst ▸ heq ▸ List.mem_map_of_mem hmem)
      grind
    · rw [if_neg hfirst]
      have hrest := ih hd
      grind

end

theorem nodup_events_handlersOf (events : List EventAction) :
    ((handlersOf events).map Handler.event).Nodup := by
  induction events using List.reverseRecOn with
  | nil => exact List.nodup_nil
  | append_singleton events binding ih =>
    rw [handlersOf_concat, events_addToHandlers]
    split
    · exact ih
    case isFalse hnew =>
      rw [← List.concat_eq_append]
      exact ih.concat hnew

/-- There is a handler for each kind of event that actions are attached to, and it has these in the
order of their declaration. -/
theorem mem_handlersOf_iff {events : List EventAction} {handler : Handler} :
    handler ∈ handlersOf events ↔ (∃ binding ∈ events, binding.event = handler.event) ∧
      handler.actions = actionsFor handler.event events := by
  induction events using List.reverseRecOn generalizing handler with
  | nil => simp [handlersOf]
  | append_singleton events binding ih =>
    have hhandled : binding.event ∈ (handlersOf events).map Handler.event ↔
        ∃ earlier ∈ events, earlier.event = binding.event := by
      constructor
      · intro hmem
        obtain ⟨earlier, hearlier, heq⟩ := List.mem_map.mp hmem
        exact heq ▸ (ih.mp hearlier).1
      · intro hsome
        have hmem : ⟨binding.event, actionsFor binding.event events⟩ ∈ handlersOf events :=
          ih.mpr ⟨hsome, rfl⟩
        exact List.mem_map_of_mem hmem
    obtain ⟨event, actions⟩ := handler
    show _ ↔ (∃ earlier ∈ events ++ [binding], earlier.event = event) ∧
      actions = actionsFor event (events ++ [binding])
    rw [handlersOf_concat, mem_addToHandlers_iff (nodup_events_handlersOf events),
      actionsFor_concat]
    -- The last action leaves a handler alone, goes to the end of one or begins one.
    constructor
    · rintro (⟨hmem, hother⟩ | ⟨earlier, hmem, hevent, heq⟩ | ⟨hnew, heq⟩)
      · obtain ⟨⟨first, hfirst, hevent⟩, hactions⟩ := ih.mp hmem
        refine ⟨⟨first, List.mem_append_left _ hfirst, hevent⟩, ?_⟩
        rw [if_neg (Ne.symm hother), List.append_nil]
        exact hactions
      · cases heq
        refine ⟨⟨binding, List.mem_concat_self, rfl⟩, ?_⟩
        rw [(ih.mp hmem).2, hevent, if_pos rfl]
      · cases heq
        refine ⟨⟨binding, List.mem_concat_self, rfl⟩, ?_⟩
        rw [actionsFor_eq_nil (hhandled.not.mp hnew), if_pos rfl, List.nil_append]
    · rintro ⟨⟨first, hfirst, hevent⟩, hactions⟩
      subst hactions
      by_cases hlast : binding.event = event
      · subst hlast
        rw [if_pos rfl]
        by_cases hsome : ∃ earlier ∈ events, earlier.event = binding.event
        · exact .inr (.inl ⟨⟨binding.event, actionsFor binding.event events⟩,
            ih.mpr ⟨hsome, rfl⟩, rfl, rfl⟩)
        · rw [actionsFor_eq_nil hsome]
          exact .inr (.inr ⟨hhandled.not.mpr hsome, rfl⟩)
      · have hmem : first ∈ events := by
          refine (List.mem_append.mp hfirst).resolve_right fun hmem => hlast ?_
          rw [← List.mem_singleton.mp hmem, hevent]
        rw [if_neg hlast, List.append_nil]
        exact .inl ⟨ih.mpr ⟨⟨first, hmem, hevent⟩, rfl⟩, Ne.symm hlast⟩

/-! ### The props of an element -/

namespace Node

variable {node : Node} {scene : RenderScene} {event : EventKind} {name : String}

theorem get?_attributes_of_handled (explicit : Fields)
    (h : ∃ binding ∈ node.events, binding.event = event) :
    Attributes.get? event.propName (node.attributes scene explicit)
      = some (.handler ⟨event, actionsFor event node.events⟩) := by
  have hmem : ⟨event, actionsFor event node.events⟩ ∈ handlersOf node.events :=
    mem_handlersOf_iff.mpr ⟨h, rfl⟩
  refine Attributes.get?_insertAll_of_mem ?_ (List.mem_map_of_mem hmem)
  have hnames := (nodup_events_handlersOf node.events).map EventKind.propName_injective
  rwa [List.map_map] at hnames ⊢

theorem get?_attributes_of_unhandled (explicit : Fields)
    (h : ∀ binding ∈ node.events, binding.event.propName ≠ name) :
    Attributes.get? name (node.attributes scene explicit)
      = ((node.boundValue? scene name).or (Fields.get? name explicit)).map
          fun value => .value (scene.scope.expandText value) := by
  have hnew : name ∉ ((handlersOf node.events).map fun handler =>
      (handler.event.propName, Attribute.handler handler)).map Prod.fst := by
    intro hmem
    rw [List.map_map] at hmem
    obtain ⟨handler, hhandler, hname⟩ := List.mem_map.mp hmem
    obtain ⟨binding, hbinding, hevent⟩ := (mem_handlersOf_iff.mp hhandler).1
    exact h binding hbinding (hevent ▸ hname)
  have hbound : Fields.Distinct (node.bound scene) := Fields.distinct_insertAll Fields.distinct_nil
  have hvalues : Fields.get? name (Fields.insertAll explicit (node.bound scene))
      = (node.boundValue? scene name).or (Fields.get? name explicit) := by
    rw [Fields.get?_insertAll, Fields.get?_reverse hbound, get?_bound]
  unfold attributes
  rw [Attributes.get?_insertAll_of_not_mem hnew, Attributes.get?_values, expandProps_eq,
    Fields.get?_mapValues, ← hvalues, Option.map_map]
  rfl

theorem nodup_attributes (explicit : Fields) (hd : explicit.Distinct) :
    ((node.attributes scene explicit).map Prod.fst).Nodup := by
  refine Attributes.nodup_insertAll ?_
  rw [List.map_map, expandProps_eq]
  have hvalues : Fields.Distinct ((Fields.insertAll explicit (node.bound scene)).mapValues
      scene.scope.expandText) := by
    rw [Fields.Distinct, Fields.names_mapValues]
    exact Fields.distinct_insertAll hd
  exact hvalues

/-- **The props of an element.**  A node that is shown and not repeated renders, with a component
that passes its props through, to a single element.  Under the name of each kind of event that the
node attaches actions to, this has a handler with exactly those, in the order of their declaration.
Under any other name it has the value that the last binding to leave one there has left, else the
one given outright, else nothing; a text is expanded once.  No name stands twice. -/
theorem props_merged (node : Node) (scene : RenderScene) (depth : Nat) (key : Option String)
    {kind : String} (hsingle : node.repetition = none)
    (hcomponent : scene.components.find? node.kind = some (.passthrough kind))
    (hdepth : depth ≤ scene.maxDepth)
    (hshown : Condition.admits scene.scope node.condition = true) :
    ∃ element, renderNode scene depth key node = [element] ∧
      (∀ event, (∃ binding ∈ node.events, binding.event = event) →
        Attributes.get? event.propName element.props
          = some (.handler ⟨event, actionsFor event node.events⟩)) ∧
      (∀ name, (∀ binding ∈ node.events, binding.event.propName ≠ name) →
        Attributes.get? name element.props
          = ((node.boundValue? scene name).or (Fields.get? name node.props)).map
              fun value => .value (scene.scope.expandText value)) ∧
      (node.props.Distinct → (element.props.map Prod.fst).Nodup) := by
  refine ⟨node.instantiate scene (.passthrough kind)
    (renderOptional scene (depth + 1) node.children)
    ((node.key.map Json.display).or key, node.props), ?single, ?handled, ?unhandled, ?distinct⟩
  case single =>
    rw [renderNode_eq, elements_of_shown hdepth hshown hcomponent, instances_of_single hsingle]
    exact List.map_singleton
  case handled => exact fun event h => get?_attributes_of_handled node.props h
  case unhandled => exact fun name h => get?_attributes_of_unhandled node.props h
  case distinct => exact nodup_attributes node.props

/-- A select in which names meet: the loading flag of the users hides the value bound to `loading`
before, the handler hides the prop `onChange`, and the age of the first user, made a text, hides the
one given outright. -/
theorem props_merged_select :
    let node := { ofKind "Select" with
      props := [("title", .text "Hi $\x7bstate.name\x7d"), ("onChange", .text "none"),
        ("age", .text "unknown")]
      bindings := [("loading", { source := "name" }),
        ("options", { source := "users", field := some "2" }),
        ("age", { source := "users", field := some "0.age", transform := some "toString" })]
      events := [⟨.change, .setState "a" .null⟩, ⟨.click, .navigate "/"⟩,
        ⟨.change, .setState "b" .null⟩] }
    let state : Fields := [("name", .text "Ann"), ("users_loading", .text "soon"),
      ("users", .array [.object [("age", .int 36)]])]
    let scene : RenderScene := ⟨state, .standard, ⟨[("toString", Transform.toText)]⟩, 64⟩
    node.repetition = none ∧ node.props.Distinct ∧
      ∃ element, renderNode scene 0 none node = [element] ∧
        (element.props.map Prod.fst).Nodup ∧
        (element.handler .change).map (fun handler => handler.actions.map Action.target)
          = some [some "a", some "b"] ∧
        element.prop "onChange" = none ∧
        (element.prop "title").bind Json.text? = some "Hi Ann" ∧
        (element.prop "loading").bind Json.text? = some "soon" ∧
        (element.prop "options").map Json.isNull = some true ∧
        (element.prop "age").bind Json.text? = some "36" := by
  intro node state scene
  have hdistinct : node.props.Distinct := by
    unfold Fields.Distinct
    decide
  obtain ⟨element, hsingle, hhandled, hvalues, hnodup⟩ :=
    props_merged node scene 0 none rfl rfl (Nat.zero_le _) rfl
  have hchange := hhandled .change ⟨⟨.change, .setState "a" .null⟩, List.mem_cons_self, rfl⟩
  have htitle := hvalues "title" (by decide)
  have hloading := hvalues "loading" (by decide)
  have hoptions := hvalues "options" (by decide)
  have hage := hvalues "age" (by decide)
  replace hchange : Attributes.get? "onChange" element.props = _ := hchange
  refine ⟨rfl, hdistinct, element, hsingle, hnodup hdistinct, ?_, ?_, ?_, ?_, ?_, ?_⟩
  · rw [Element.handler, EventKind.propName, hchange]
    rfl
  · rw [Element.prop, hchange]
    rfl
  · rw [Element.prop, htitle]
    decide +kernel
  · rw [Element.prop, hloading]
    decide +kernel
  · rw [Element.prop, hoptions]
    decide +kernel
  · rw [Element.prop, hage]
    decide +kernel

end Node

end ViewTree
