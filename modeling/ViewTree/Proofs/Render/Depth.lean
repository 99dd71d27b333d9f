import ViewTree.Proofs.Render.Basic

/-!
# The limit of depth

Rendering with a limit of depth cuts off what lies deeper and does nothing else.  `Element.upTo`
takes the elements below a limit out of a tree; a node renders with a limit to what is left of it
with any larger limit (`renderNode_withLimit`), by induction on the node and its children.

A node with no more levels than the limit allows renders the same with any other limit that allows
them (`renderNode_of_levels`).  `renderRoot_limit` puts the two together.
-/

namespace ViewTree

/-- The scene with another limit of depth. -/
def RenderScene.withLimit (scene : RenderScene) (limit : Nat) : RenderScene :=
  { scene with maxDepth := limit }

/-! ### What is left of a tree up to a limit -/

mutual

/-- An element at a depth without the elements under it that are deeper than a limit. -/
def Element.upTo (limit depth : Nat) : Element → Element
  | ⟨kind, key, props, children⟩ => ⟨kind, key, props, Content.listUpTo limit (depth + 1) children⟩

/-- Children at a depth without the elements that are deeper than a limit. -/
def Content.listUpTo (limit depth : Nat) : List Content → List Content
  | [] => []
  | child :: children =>
    Content.upTo limit depth child ++ Content.listUpTo limit depth children

/-- A child at a depth, if it is not an element deeper than a limit. -/
def Content.upTo (limit depth : Nat) : Content → List Content
  | .element e => if limit < depth then [] else [.element (e.upTo limit depth)]
  | .literal value => [.literal value]

end

/-- Elements at a depth without those deeper than a limit. -/
def Element.forestUpTo (limit depth : Nat) (elements : List Element) : List Element :=
  if limit < depth then [] else elements.map (Element.upTo limit depth)

namespace Content

variable {limit depth : Nat}

theorem listUpTo_append (before after : List Content) :
    listUpTo limit depth (before ++ after)
      = listUpTo limit depth before ++ listUpTo limit depth after := by
  induction before with
  | nil => rfl
  | cons child before ih => rw [List.cons_append, listUpTo, listUpTo, ih, List.append_assoc]

theorem listUpTo_elements (elements : List Element) :
    listUpTo limit depth (elements.map .element)
      = (Element.forestUpTo limit depth elements).map .element := by
  induction elements with
  | nil => unfold Element.forestUpTo; split <;> rfl
  | cons e elements ih =>
    rw [List.map_cons, listUpTo, upTo, ih]
    unfold Element.forestUpTo
    split <;> rfl

end Content

/-! ### The elements of a node, whatever the depth -/

variable {scene : RenderScene} {limit larger : Nat}

namespace Node

/-- The elements of a node with these children, if it renders at its depth. -/
def shown (scene : RenderScene) (key : Option String) (node : Node) (contents : List Content) :
    List Element :=
  match scene.components.find? node.kind with
  | none => []
  | some component =>
    if Condition.admits scene.scope node.condition then
      (node.instances scene key).map (node.instantiate scene component contents)
    else []

variable (key : Option String) (node : Node) (contents : List Content)

theorem elements_eq_shown (depth : Nat) : node.elements (scene.withLimit limit) depth key contents
    = if limit < depth then [] else node.shown (scene.withLimit limit) key contents := rfl

/-- The limit of depth shows in nothing else. -/
theorem shown_withLimit :
    node.shown (scene.withLimit limit) key contents = node.shown scene key contents := by
  have hinstances : node.instances (scene.withLimit limit) key = node.instances scene key := by
    cases hrepeat : node.repetition with
    | none => rw [instances_of_single hrepeat, instances_of_single hrepeat]
    | some repetition =>
      rw [instances_of_repeat hrepeat, instances_of_repeat hrepeat]
      rfl
  unfold shown
  rw [hinstances]
  rfl

/-- Children that are cut off are cut off from every element. -/
theorem shown_listUpTo (hpass : scene.components.PassThrough) (depth : Nat) :
    node.shown scene key (Content.listUpTo limit (depth + 1) contents)
      = (node.shown scene key contents).map (Element.upTo limit depth) := by
  unfold shown
  cases hfind : scene.components.find? node.kind with
  | none => rfl
  | some component =>
    obtain ⟨kind, rfl⟩ := hpass node.kind component hfind
    cases Condition.admits scene.scope node.condition with
    | false => rfl
    | true =>
      simp only [↓reduceIte, List.map_map]
      rfl

theorem elements_withLimit (hpass : scene.components.PassThrough) (h : limit ≤ larger)
    (depth : Nat) :
    node.elements (scene.withLimit limit) depth key (Content.listUpTo limit (depth + 1) contents)
      = Element.forestUpTo limit depth
          (node.elements (scene.withLimit larger) depth key contents) := by
  rw [elements_eq_shown, elements_eq_shown, Element.forestUpTo, shown_withLimit, shown_withLimit]
  by_cases hdeep : limit < depth
  · rw [if_pos hdeep, if_pos hdeep]
  · have hlarger : ¬larger < depth := fun hlt => hdeep (Nat.lt_of_le_of_lt h hlt)
    rw [if_neg hdeep, if_neg hdeep, if_neg hlarger, shown_listUpTo key node contents hpass]

end Node

/-! ### Rendering with two limits -/

mutual

/-- With a smaller limit, what lies deeper is cut off and the rest stays as it is. -/
theorem renderNode_withLimit (hpass : scene.components.PassThrough) (h : limit ≤ larger)
    (depth : Nat) (key : Option String) : ∀ node : Node,
    renderNode (scene.withLimit limit) depth key node
      = Element.forestUpTo limit depth (renderNode (scene.withLimit larger) depth key node)
  | ⟨kind, props, children, condition, repetition, ownKey, events, bindings, fetches⟩ => by
    rw [renderNode, renderNode, renderOptional_withLimit hpass h (depth + 1) children]
    exact Node.elements_withLimit key _ _ hpass h depth

theorem renderOptional_withLimit (hpass : scene.components.PassThrough) (h : limit ≤ larger)
    (depth : Nat) : ∀ children : Option Children,
    renderOptional (scene.withLimit limit) depth children
      = Content.listUpTo limit depth (renderOptional (scene.withLimit larger) depth children)
  | none => rfl
  | some (.many children) => renderList_withLimit hpass h depth 0 children
  | some (.one child) => renderChild_withLimit hpass h depth 0 child

theorem renderList_withLimit (hpass : scene.components.PassThrough) (h : limit ≤ larger)
    (depth index : Nat) : ∀ children : List Child,
    renderList (scene.withLimit limit) depth index children
      = Content.listUpTo limit depth (renderList (scene.withLimit larger) depth index children)
  | [] => rfl
  | child :: children => by
    rw [renderList, renderList, Content.listUpTo_append,
      renderChild_withLimit hpass h depth index child,
      renderList_withLimit hpass h depth (index + 1) children]

theorem renderChild_withLimit (hpass : scene.components.PassThrough) (h : limit ≤ larger)
    (depth index : Nat) : ∀ child : Child,
    renderChild (scene.withLimit limit) depth index child
      = Content.listUpTo limit depth (renderChild (scene.withLimit larger) depth index child)
  | .node node => by
    rw [renderChild, renderChild, Content.listUpTo_elements,
      renderNode_withLimit hpass h depth _ node]
  | .content _ => rfl
  | .invalid _ => rfl

end

/-! ### Nodes that the limit allows -/

mutual

/-- The number of levels of nodes. -/
def Node.levels : Node → Nat
  | ⟨_, _, children, _, _, _, _, _, _⟩ => Children.levelsOf children + 1

/-- The number of levels of nodes among the children of a node, if it has any. -/
def Children.levelsOf : Option Children → Nat
  | none => 0
  | some (.many children) => Child.levelsOfList children
  | some (.one child) => child.levels

/-- The number of levels of nodes in a list of children. -/
def Child.levelsOfList : List Child → Nat
  | [] => 0
  | child :: children => max child.levels (Child.levelsOfList children)

/-- The number of levels of nodes in a child. -/
def Child.levels : Child → Nat
  | .node node => node.levels
  | .content _ | .invalid _ => 0

end

section

variable {other : Nat}

mutual

/-- Two limits that allow every level of a node do not show. -/
theorem renderNode_of_levels (depth : Nat) (key : Option String) : ∀ node : Node,
    depth + node.levels ≤ limit + 1 → depth + node.levels ≤ other + 1 →
    renderNode (scene.withLimit limit) depth key node
      = renderNode (scene.withLimit other) depth key node
  | ⟨kind, props, children, condition, repetition, ownKey, events, bindings, fetches⟩, h, h' => by
    rw [Node.levels] at h h'
    have hchildren := renderOptional_of_levels (depth + 1) children (by omega) (by omega)
    rw [renderNode, renderNode, hchildren, Node.elements_eq_shown, Node.elements_eq_shown,
      if_neg (by omega), if_neg (by omega), Node.shown_withLimit, Node.shown_withLimit]

theorem renderOptional_of_levels (depth : Nat) : ∀ children : Option Children,
    depth + Children.levelsOf children ≤ limit + 1 →
    depth + Children.levelsOf children ≤ other + 1 →
    renderOptional (scene.withLimit limit) depth children
      = renderOptional (scene.withLimit other) depth children
  | none, _, _ => rfl
  | some (.many children), h, h' => renderList_of_levels depth 0 children h h'
  | some (.one child), h, h' => renderChild_of_levels depth 0 child h h'

theorem renderList_of_levels (depth index : Nat) : ∀ children : List Child,
    depth + Child.levelsOfList children ≤ limit + 1 →
    depth + Child.levelsOfList children ≤ other + 1 →
    renderList (scene.withLimit limit) depth index children
      = renderList (scene.withLimit other) depth index children
  | [], _, _ => rfl
  | child :: children, h, h' => by
    rw [Child.levelsOfList] at h h'
    have hchild := renderChild_of_levels depth index child (by omega) (by omega)
    have hchildren := renderList_of_levels depth (index + 1) children (by omega) (by omega)
    rw [renderList, renderList, hchild, hchildren]

theorem renderChild_of_levels (depth index : Nat) : ∀ child : Child,
    depth + child.levels ≤ limit + 1 → depth + child.levels ≤ other + 1 →
    renderChild (scene.withLimit limit) depth index child
      = renderChild (scene.withLimit other) depth index child
  | .node node, h, h' => by rw [renderChild, renderChild, renderNode_of_levels depth _ node h h']
  | .content _, _, _ => rfl
  | .invalid _, _, _ => rfl

end

end

/-- The limit of depth only cuts off.  With a smaller limit, a tree renders to what it renders to
with a larger one, less every element deeper than the smaller limit; what is left stays as it is.
So a tree with no more levels than a limit allows renders the same with every other limit that
allows them. -/
theorem renderRoot_limit (hpass : scene.components.PassThrough) (root : Node) :
    (∀ limit larger : Nat, limit ≤ larger →
      renderRoot (scene.withLimit limit) root
        = (renderRoot (scene.withLimit larger) root).map (Element.upTo limit 0)) ∧
    ∀ limit other : Nat, root.levels ≤ limit + 1 → root.levels ≤ other + 1 →
      renderRoot (scene.withLimit limit) root = renderRoot (scene.withLimit other) root := by
  constructor
  · intro limit larger h
    have hnode := renderNode_withLimit hpass h 0 none root
    rwa [Element.forestUpTo, if_neg (Nat.not_lt_zero limit)] at hnode
  · intro limit other h h'
    exact renderNode_of_levels 0 none root (by omega) (by omega)

/-- A card in a section that is repeated in a `div`, with a limit that the card is too deep for and
with two that it is not. -/
theorem renderRoot_limit_card :
    let card := { Node.ofKind "Card" with children := some (.one (.content (.text "deep"))) }
    let repeated := { Node.ofKind "section" with
      repetition := some (.items [.int 1, .int 2])
      children := some (.many [.content (.text "a"), .node card]) }
    let root := { Node.ofKind "div" with children := some (.one (.node repeated)) }
    let scene : RenderScene := ⟨[], .standard, ⟨[]⟩, 64⟩
    scene.components.PassThrough ∧ root.levels = 3 ∧
      renderRoot (scene.withLimit 1) root
        = (renderRoot (scene.withLimit 2) root).map (Element.upTo 1 0) ∧
      renderRoot (scene.withLimit 2) root = renderRoot (scene.withLimit 64) root ∧
      (renderRoot (scene.withLimit 1) root).map Element.text = ["aa"] ∧
      (renderRoot (scene.withLimit 2) root).map Element.text = ["adeepadeep"] := by
  intro card repeated root scene
  have hpass : scene.components.PassThrough := Components.standard_passThrough
  have hlevels : root.levels = 3 := rfl
  obtain ⟨hcut, hallowed⟩ := renderRoot_limit hpass root
  exact ⟨hpass, hlevels, hcut 1 2 (by decide), hallowed 2 64 (by omega) (by omega),
    by decide +kernel, by decide +kernel⟩

end ViewTree
