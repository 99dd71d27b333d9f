import ViewTree.Proofs.Config.Containment
import ViewTree.Proofs.Render.Basic

/-!
# Siblings of what does not render

The elements of a node depend on its children only through what these contribute
(`renderNode_give`), so what does not render at a place leaves everything else as it is, at any
depth.  With what is known of reading children this bounds what a malformed piece of a
configuration can do (`Node.malformed_contained`).
-/

namespace ViewTree

variable {scene : RenderScene} {depth : Nat} {key : Option String}

namespace Node

variable {node : Node} {children : Option Children}

theorem instances_children :
    instances scene { node with children := children } key = instances scene node key := by
  cases hrepeat : node.repetition with
  | none => exact (instances_of_single rfl).trans (instances_of_single hrepeat).symm
  | some repetition => exact (instances_of_repeat rfl).trans (instances_of_repeat hrepeat).symm

/-- The elements of a node for given contents do not depend on its children. -/
theorem elements_children (contents : List Content) :
    elements scene depth key { node with children := children } contents
      = elements scene depth key node contents := by
  unfold elements
  rw [instances_children]
  rfl

end Node

theorem renderList_append (index : Nat) (before after : List Child) :
    renderList scene depth index (before ++ after)
      = renderList scene depth index before
        ++ renderList scene depth (index + before.length) after := by
  induction before generalizing index with
  | nil => rfl
  | cons child before ih =>
    rw [List.cons_append, renderList, renderList, ih, List.append_assoc, List.length_cons,
      Nat.add_right_comm, Nat.add_assoc]

namespace Place

variable {place : Place Node Child} {child other : Child}

/-- A node renders the same with children at a place that contribute the same. -/
theorem renderNode_give
    (h : renderChild scene (depth + 1) place.index child
      = renderChild scene (depth + 1) place.index other) :
    renderNode scene depth key (place.give child)
      = renderNode scene depth key (place.give other) := by
  obtain ⟨parent, siblings⟩ := place
  rw [renderNode_eq, renderNode_eq]
  have hcontents : renderOptional scene (depth + 1) (give ⟨parent, siblings⟩ child).children
      = renderOptional scene (depth + 1) (give ⟨parent, siblings⟩ other).children := by
    cases siblings with
    | none => exact h
    | some siblings =>
      obtain ⟨before, after⟩ := siblings
      have hchild : renderChild scene (depth + 1) (0 + before.length) child
          = renderChild scene (depth + 1) (0 + before.length) other := by
        rw [Nat.zero_add]
        exact h
      show renderList scene (depth + 1) 0 (before ++ child :: after)
        = renderList scene (depth + 1) 0 (before ++ other :: after)
      rw [renderList_append, renderList_append, renderList, renderList, hchild]
  rw [hcontents]
  exact (Node.elements_children _).trans (Node.elements_children _).symm

theorem kind_foldr_give (outer : List (Place Node Child)) (place : Place Node Child)
    (child other : Child) : (outer.foldr giveNode (place.give child)).kind
      = (outer.foldr giveNode (place.give other)).kind := by
  cases outer <;> rfl

/-- At any depth, a tree renders the same with children at a place that contribute the same. -/
theorem renderNode_foldr_give (outer : List (Place Node Child))
    (h : renderChild scene (depth + outer.length + 1) place.index child
      = renderChild scene (depth + outer.length + 1) place.index other) :
    renderNode scene depth key (outer.foldr giveNode (place.give child))
      = renderNode scene depth key (outer.foldr giveNode (place.give other)) := by
  induction outer generalizing depth key with
  | nil => exact renderNode_give h
  | cons first outer ih =>
    refine renderNode_give ?_
    have hdepth : depth + (first :: outer).length + 1 = depth + 1 + outer.length + 1 := by
      rw [List.length_cons]
      omega
    rw [hdepth] at h
    rw [renderChild, renderChild, kind_foldr_give outer place child other, ih h]

end Place

/-- Malformed children are contained.  Whether an object describes a node, and the fields of the
node other than its children, do not depend on what is given for its children; each child is what
its own entry describes; and so it is at any depth, where what does not describe a node though it
is meant for one shows nothing and leaves everything else to show as beside any other child that
shows nothing. -/
theorem Node.malformed_contained :
    (∀ {fields : Fields} (children : Json) {node : Node}, Fields.Distinct fields →
      (ofJson (.object (Fields.insert "children" children fields)) = .ok node ↔
        ∃ bare, ofJson (.object (Fields.erase "children" fields)) = .ok bare ∧
          node = { bare with children := Children.ofJson children })) ∧
    (∀ {children : Json} {node : Node}, node.children = Children.ofJson children → ∀ i : Nat,
      node.childList[i]? = (Children.entries children)[i]?.map Child.ofJson) ∧
    (∀ entry : Json, (¬entry.Typed → Child.ofJson entry = .content entry) ∧
      (entry.Typed → ∀ node, ofJson entry = .ok node → Child.ofJson entry = .node node) ∧
      (entry.Typed → ∀ error, ofJson entry = .error error →
        Child.ofJson entry = .invalid entry)) ∧
    (∀ {outer : List (Place Fields Json)} {nodes : List (Place Node Child)}
      {place : Place Fields Json} {node : Place Node Child} (entry : Json),
      List.Forall₂ Place.Describes outer nodes → place.Describes node →
      (place.siblings = none → entry ≠ .null ∧ ∀ items, entry ≠ .array items) →
      ofJson (outer.foldr Place.fill (place.fill entry))
        = .ok (nodes.foldr Place.giveNode (node.give (Child.ofJson entry)))) ∧
    ∀ (scene : RenderScene) (depth : Nat) (key : Option String) (outer : List (Place Node Child))
      (place : Place Node Child) (raw : Json),
      renderChild scene (depth + outer.length + 1) place.index (.invalid raw) = [] ∧
      ∀ other, renderChild scene (depth + outer.length + 1) place.index other = [] →
        renderNode scene depth key (outer.foldr Place.giveNode (place.give (.invalid raw)))
          = renderNode scene depth key (outer.foldr Place.giveNode (place.give other)) := by
  refine ⟨fun children _ hd => ofJson_insert_children hd children, ?entries, ?entry, ?place,
    ?rendering⟩
  case entries =>
    intro children node h i
    rw [childList, h, Children.ofJson_toList, List.getElem?_map]
  case entry =>
    intro entry
    exact ⟨Child.ofJson_of_not_typed, fun ht _ h => Child.ofJson_of_ok ht h,
      fun ht _ h => Child.ofJson_of_error ht h⟩
  case place =>
    intro outer nodes place node entry houter hplace halone
    exact (Place.ofJson_foldr_fill houter hplace halone).2
  case rendering =>
    intro scene depth key outer place raw
    have hnothing : renderChild scene (depth + outer.length + 1) place.index (.invalid raw) = [] :=
      by rw [renderChild]
    exact ⟨hnothing, fun other hother =>
      Place.renderNode_foldr_give outer (hnothing.trans hother.symm)⟩

/-- A box without proper props in a section in a `div`, and what takes its place. -/
theorem Node.malformed_contained_box :
    Fields.Distinct [("type", .text "section")] ∧
    ofJson (.object [("type", .text "div"), ("children", .object [("type", .text "section"),
        ("children", .array [.text "a", .object [("type", .text "Box"), ("props", .null)]])])])
      = .ok { ofKind "div" with children := some (.one (.node { ofKind "section" with
          children := some (.many [.content (.text "a"),
            .invalid (.object [("type", .text "Box"), ("props", .null)])]) })) } ∧
    renderNode ⟨[], .standard, ⟨[]⟩, 4⟩ 0 none
        ({ ofKind "div" with children := some (.one (.node { ofKind "section" with
          children := some (.many [.content (.text "a"),
            .invalid (.object [("type", .text "Box"), ("props", .null)])]) })) })
      = renderNode ⟨[], .standard, ⟨[]⟩, 4⟩ 0 none
        ({ ofKind "div" with children := some (.one (.node { ofKind "section" with
          children := some (.many [.content (.text "a"), .node (ofKind "Box")]) })) }) := by
  have hdistinct : ∀ entry : String × Json, Fields.Distinct [entry] := fun _ =>
    List.nodup_singleton _
  have hsection : Place.Describes ⟨[("type", .text "section")], some ([.text "a"], [])⟩
      ⟨ofKind "section", some ([.content (.text "a")], [])⟩ := ⟨hdistinct _, rfl, rfl⟩
  have hdiv : Place.Describes ⟨[("type", .text "div")], none⟩ ⟨ofKind "div", none⟩ :=
    ⟨hdistinct _, rfl, rfl⟩
  obtain ⟨-, -, hentry, hplace, hrender⟩ := malformed_contained
  have hbox := (hentry (.object [("type", .text "Box"), ("props", .null)])).2.2 ⟨_, rfl⟩ _ rfl
  refine ⟨hdistinct _, ?_, ?_⟩
  · have hread := hplace (.object [("type", .text "Box"), ("props", .null)]) (.cons hdiv .nil)
      hsection (fun h => (nomatch h))
    rw [hbox] at hread
    exact hread
  · exact (hrender _ 0 none [⟨ofKind "div", none⟩]
      ⟨ofKind "section", some ([.content (.text "a")], [])⟩ _).2 (.node (ofKind "Box")) rfl

end ViewTree
