import ViewTree.Proofs.Render.Props
import ViewTree.Proofs.State.Template
import ViewTree.Proofs.Text.Split

/-!
# Props of a repeated node

The texts among the props of a repeated node are expanded for each item, with the item and the state
in scope, and then once more, as those of any other node are, with the state in scope.  Where no
text names the item, the first expansion is one with the state alone (`expandProps_of_itemFree`).

So an instance has the value props that the node has without its repetition, but for this: a text
given outright and not hidden by a binding is expanded once more (`Node.value_props_of_instance`).
That shows where the state holds a text that looks like a placeholder
(`Node.instance_expanded_twice`), and nowhere else.
-/

namespace ViewTree

namespace Template

/-- A piece is no hole whose body names the item or something in it. -/
def Piece.ItemFree : Piece → Prop
  | .literal _ => True
  | .hole body => body ≠ "item".toList ∧ ¬"item.".toList <+: body

instance : ∀ piece : Piece, Decidable piece.ItemFree
  | .literal _ => inferInstanceAs (Decidable True)
  | .hole body => inferInstanceAs (Decidable (body ≠ "item".toList ∧ ¬"item.".toList <+: body))

/-- No placeholder of a text names the item. -/
def ItemFree (text : String) : Prop := ∀ piece ∈ scan text, piece.ItemFree

instance (text : String) : Decidable (ItemFree text) :=
  inferInstanceAs (Decidable (∀ piece ∈ scan text, piece.ItemFree))

end Template

/-- No text among the props names the item; texts inside other values are left alone. -/
def Fields.ItemFree (props : Fields) : Prop :=
  ∀ entry ∈ props, ∀ text ∈ entry.2.text?, Template.ItemFree text

instance (props : Fields) : Decidable props.ItemFree :=
  inferInstanceAs (Decidable (∀ entry ∈ props, ∀ text ∈ entry.2.text?, Template.ItemFree text))

namespace Scope

variable (scope : Scope) (item : Json)

theorem resolve_withItem {body : List Char} (h : (Template.Piece.hole body).ItemFree) :
    resolve { scope with item := some item } body = resolve scope body := by
  have hmember : Text.stripLead "item.".toList body = none := by
    refine Option.eq_none_iff_forall_ne_some.mpr fun path hpath => h.2 ⟨path, ?_⟩
    exact (Text.stripLead_eq_some_iff.mp hpath).symm
  unfold resolve
  rw [hmember]
  dsimp only
  rw [if_neg h.1, if_neg h.1]
  rfl

/-- A text that does not name the item does not depend on it. -/
theorem expand_withItem {text : String} (h : Template.ItemFree text) :
    expand { scope with item := some item } text = scope.expand text := by
  have hfill : (Template.scan text).flatMap (fill { scope with item := some item })
      = (Template.scan text).flatMap scope.fill := by
    refine List.flatMap_congr fun piece hpiece => ?_
    cases piece with
    | literal c => rfl
    | hole body => rw [fill, fill, resolve_withItem scope item (h _ hpiece)]
  rw [expand, expand, hfill]

end Scope

theorem expandProps_of_itemFree (scope : Scope) (item : Json) {props : Fields}
    (h : props.ItemFree) :
    expandProps { scope with item := some item } props = expandProps scope props := by
  rw [expandProps_eq, expandProps_eq]
  refine List.map_congr_left fun entry hmem => ?_
  obtain ⟨name, value⟩ := entry
  cases value with
  | text text =>
    have hexpand := scope.expand_withItem item (h _ hmem text rfl)
    simp only [Scope.expandText, hexpand]
  | _ => rfl

namespace Node

variable {scene : RenderScene} {node : Node} {repetition : Repeat}

/-- The props given outright to an instance are those of the node, expanded once. -/
theorem props_of_mem_instances {key : Option String} {explicit : Option String × Fields}
    (hrepeat : node.repetition = some repetition) (hfree : node.props.ItemFree)
    (h : explicit ∈ node.instances scene key) :
    explicit.2 = node.props.mapValues scene.scope.expandText := by
  rw [instances_of_repeat hrepeat] at h
  obtain ⟨numbered, -, rfl⟩ := List.mem_map.mp h
  rw [instanceOf, expandProps_of_itemFree scene.scope numbered.1 hfree, expandProps_eq]

/-- Without its repetition, a node renders to a single element if it has a rendered instance; the
two differ at most in the props they are made of. -/
theorem exists_single {depth : Nat} {key : Option String} {element : Element}
    (hrepeat : node.repetition = some repetition) (hfree : node.props.ItemFree)
    (h : element ∈ renderNode scene depth key node) :
    ∃ (component : Component) (contents : List Content) (single : Element),
      scene.components.find? node.kind = some component ∧
      renderNode scene depth key { node with repetition := none } = [single] ∧
      single.props = (component (node.attributes scene node.props) contents).props ∧
      element.props = (component
        (node.attributes scene (node.props.mapValues scene.scope.expandText)) contents).props := by
  rw [renderNode_eq] at h
  obtain ⟨hdepth, hshown, component, hfind, explicit, hmem, rfl⟩ := mem_elements_iff.mp h
  have hsingle : renderNode scene depth key { node with repetition := none } = _ :=
    (renderNode_eq _).trans (elements_of_shown hdepth hshown hfind)
  refine ⟨component, renderOptional scene (depth + 1) node.children, _, hfind, hsingle, rfl, ?_⟩
  rw [← props_of_mem_instances hrepeat hfree hmem]
  rfl

/-- Without holes in what they expand to, the props given outright and not bound may be expanded
twice. -/
theorem attributes_of_plain (hd : Fields.Distinct node.props)
    (hplain : ∀ name text, Fields.get? name node.props = some (.text text) →
      name ∉ Fields.names (node.bound scene) → Template.Plain (scene.scope.expand text)) :
    node.attributes scene (node.props.mapValues scene.scope.expandText)
      = node.attributes scene node.props := by
  have hvalues : expandProps scene.scope
      (Fields.insertAll (node.props.mapValues scene.scope.expandText) (node.bound scene))
      = expandProps scene.scope (Fields.insertAll node.props (node.bound scene)) := by
    rw [expandProps_eq, expandProps_eq, Fields.mapValues_insertAll, Fields.mapValues_insertAll]
    refine Fields.insertAll_congr (by simpa [Fields.Distinct] using hd) (by simp) ?_
    intro name hname
    rw [Fields.names_mapValues] at hname
    rw [Fields.get?_mapValues, Fields.get?_mapValues]
    cases hvalue : Fields.get? name node.props with
    | none => rfl
    | some value =>
      cases value with
      | text text =>
        have htwice := scene.scope.expand_of_plain (hplain name text hvalue hname)
        simp only [Option.map_some, Scope.expandText, htwice]
      | _ => rfl
  unfold bound at hvalues
  simp only [attributes, hvalues]

/-- The value props of an instance of a node whose texts do not name the item.  Without its
repetition the node renders to a single element.  The instance has the same props, if the texts
given outright, once expanded, have no holes, those hidden by bindings apart.  In general, with
components that pass their props through, a bound prop has the same value, and any other value is
that of the single element, expanded once more. -/
theorem value_props_of_instance {depth : Nat} {key : Option String} {element : Element}
    (hrepeat : node.repetition = some repetition) (hfree : node.props.ItemFree)
    (hmem : element ∈ renderNode scene depth key node) :
    ∃ single, renderNode scene depth key { node with repetition := none } = [single] ∧
      (Fields.Distinct node.props →
        (∀ name text, Fields.get? name node.props = some (.text text) →
          name ∉ Fields.names (node.bound scene) → Template.Plain (scene.scope.expand text)) →
        element.props = single.props) ∧
      (scene.components.PassThrough → ∀ name, element.prop name
        = if name ∈ Fields.names (node.bound scene) then single.prop name
          else (single.prop name).map scene.scope.expandText) := by
  obtain ⟨component, contents, single, hfind, hsingle, hprops, helement⟩ :=
    exists_single hrepeat hfree hmem
  refine ⟨single, hsingle, ?same, ?law⟩
  case same =>
    intro hd hplain
    rw [hprops, helement, attributes_of_plain hd hplain]
  case law =>
    intro hpass name
    obtain ⟨kind, rfl⟩ := hpass node.kind component hfind
    replace hprops : single.props = node.attributes scene node.props := hprops
    replace helement : element.props
        = node.attributes scene (node.props.mapValues scene.scope.expandText) := helement
    rw [Element.prop, Element.prop, hprops, helement, value?_attributes, value?_attributes]
    -- A bound prop stands in front of what is given outright, which alone is expanded twice.
    by_cases hbound : name ∈ Fields.names (node.bound scene)
    · rw [if_pos hbound, Fields.get?_insertAll_of_mem hbound]
    · rw [if_neg hbound, Fields.get?_insertAll_of_not_mem hbound,
        Fields.get?_insertAll_of_not_mem hbound, Fields.get?_mapValues]
      split <;> rfl

/-- A greeting that is repeated over a list in the state. -/
theorem value_props_of_instance_greeting :
    let node := { ofKind "span" with
      props := [("title", .text "Hi $\x7bstate.name\x7d")]
      bindings := [("label", { source := "name" })]
      repetition := some (.source "users") }
    let scene : RenderScene :=
      ⟨[("name", .text "Ann"), ("users", .array [.int 1, .int 2])], .standard, ⟨[]⟩, 64⟩
    node.repetition = some (.source "users") ∧ node.props.ItemFree ∧
      ∃ element ∈ renderNode scene 0 none node, ∃ single,
        renderNode scene 0 none { node with repetition := none } = [single] ∧
          element.props = single.props ∧
          element.prop "title" = (single.prop "title").map scene.scope.expandText ∧
          (single.prop "title").bind Json.text? = some "Hi Ann" := by
  intro node scene
  have hfree : node.props.ItemFree := by decide +kernel
  obtain ⟨first, rest, hlist⟩ : ∃ first rest, renderNode scene 0 none node = first :: rest :=
    ⟨_, _, rfl⟩
  have hmem : first ∈ renderNode scene 0 none node := hlist ▸ List.mem_cons_self
  have hrepeat : node.repetition = some (.source "users") := rfl
  obtain ⟨single, hsingle, hsame, hlaw⟩ := value_props_of_instance hrepeat hfree hmem
  have htitle : (single.prop "title").bind Json.text? = some "Hi Ann" := by
    have htitles : (renderNode scene 0 none { node with repetition := none }).map
        (fun element => (element.prop "title").bind Json.text?) = [some "Hi Ann"] := by
      decide +kernel
    rw [hsingle] at htitles
    exact (List.cons.inj htitles).1
  have hplain : ∀ name text, Fields.get? name node.props = some (.text text) →
      name ∉ Fields.names (node.bound scene) → Template.Plain (scene.scope.expand text) := by
    intro name text hget _
    have hd : Fields.Distinct node.props := List.nodup_singleton _
    obtain ⟨-, htext⟩ : name = "title" ∧ Json.text text = .text "Hi $\x7bstate.name\x7d" := by
      simpa [node] using (Fields.get?_eq_some_iff hd).mp hget
    rw [Json.text.inj htext]
    decide +kernel
  have hprops : first.props = single.props := hsame (List.nodup_singleton _) hplain
  refine ⟨rfl, hfree, first, hmem, single, hsingle, hprops, ?_, htitle⟩
  have hunbound : "title" ∉ Fields.names (node.bound scene) := by decide +kernel
  rw [hlaw Components.standard_passThrough "title", if_neg hunbound]

/-- In an instance a text of the state that looks like a placeholder is filled in; in the element of
the node without its repetition it shows as it is. -/
theorem instance_expanded_twice :
    let node := { ofKind "span" with
      props := [("title", .text "$\x7bstate.a\x7d")], repetition := some (.items [.int 1]) }
    let scene : RenderScene :=
      ⟨[("a", .text "$\x7bstate.b\x7d"), ("b", .text "secret")], .standard, ⟨[]⟩, 64⟩
    node.props.ItemFree ∧
      (renderNode scene 0 none node).map (fun element => (element.prop "title").bind Json.text?)
        = [some "secret"] ∧
      (renderNode scene 0 none { node with repetition := none }).map
          (fun element => (element.prop "title").bind Json.text?)
        = [some "$\x7bstate.b\x7d"] := by
  intro node scene
  exact ⟨by decide +kernel, by decide +kernel, by decide +kernel⟩

end Node

end ViewTree
