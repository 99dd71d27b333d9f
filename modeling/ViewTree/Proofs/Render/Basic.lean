import ViewTree.Render.Render

/-!
# What a node renders to

A node that renders gives one element for each of its instances, all with the same children
(`Node.mem_elements_iff`), which are rendered from its child list (`renderOptional_eq`).  The
instances of a repeated node are made one by one from its numbered items
(`Node.instances_of_repeat`).

Components that pass their props and children through (`Components.PassThrough`) are what most of
the theory is about: with them an element says what its node says (`of_mem_renderNode`).
-/

namespace ViewTree

variable {scene : RenderScene} {depth : Nat} {key : Option String}

/-! ### Components that pass everything through -/

namespace Components

/-- Every component gives its element the props and children unchanged, and no key. -/
def PassThrough (components : Components) : Prop :=
  ∀ name component, components.find? name = some component →
    ∃ kind, component = .passthrough kind

theorem passThrough_of_names (names : List String) :
    PassThrough ⟨names.map fun name => (name, .passthrough name)⟩ := by
  intro name component hfind
  replace hfind : (names.map fun name => (name, Component.passthrough name)).lookup name
      = some component := hfind
  obtain ⟨before, after, hentries, -⟩ := List.lookup_eq_some_iff.mp hfind
  have hmem : (name, component) ∈ names.map fun name => (name, Component.passthrough name) := by
    rw [hentries]
    exact List.mem_append_right before List.mem_cons_self
  obtain ⟨kind, -, hentry⟩ := List.mem_map.mp hmem
  exact ⟨kind, (congrArg Prod.snd hentry).symm⟩

theorem standard_passThrough : standard.PassThrough := passThrough_of_names standardNames

end Components

/-! ### Elements of a node -/

namespace Node

/-- The instance of a repeated node for a numbered item. -/
def instanceOf (scene : RenderScene) (node : Node) (numbered : Json × Nat) :
    Option String × Fields :=
  (some (instanceKey node.kind numbered.2 numbered.1),
    expandProps { scene.scope with item := some numbered.1 } node.props)

variable {node : Node} {element : Element} {contents : List Content}

theorem instancesFrom_eq (index : Nat) (items : List Json) :
    instancesFrom scene node index items = (items.zipIdx index).map (node.instanceOf scene) := by
  induction items generalizing index with
  | nil => rfl
  | cons item items ih => rw [instancesFrom, ih, List.zipIdx_cons, List.map_cons, instanceOf]

theorem instances_of_repeat {repetition : Repeat} (h : node.repetition = some repetition) :
    node.instances scene key
      = (repeatItems scene repetition).zipIdx.map (node.instanceOf scene) := by
  rw [instances, h]
  exact instancesFrom_eq 0 _

theorem instances_of_single (h : node.repetition = none) :
    node.instances scene key = [((node.key.map Json.display).or key, node.props)] := by
  rw [instances, h]

theorem elements_of_shown {component : Component} (hdepth : depth ≤ scene.maxDepth)
    (hshown : Condition.admits scene.scope node.condition = true)
    (hfind : scene.components.find? node.kind = some component) :
    node.elements scene depth key contents
      = (node.instances scene key).map (node.instantiate scene component contents) := by
  unfold elements
  rw [if_neg (Nat.not_lt.mpr hdepth), hfind]
  exact if_pos hshown

theorem mem_elements_iff : element ∈ node.elements scene depth key contents ↔
    depth ≤ scene.maxDepth ∧ Condition.admits scene.scope node.condition = true ∧
      ∃ component, scene.components.find? node.kind = some component ∧
        ∃ explicit ∈ node.instances scene key,
          element = node.instantiate scene component contents explicit := by
  unfold elements
  split
  case isTrue hdeep => simp [Nat.not_le.mpr hdeep]
  case isFalse hdeep =>
    have hdepth : depth ≤ scene.maxDepth := Nat.not_lt.mp hdeep
    cases hfind : scene.components.find? node.kind with
    | none => simp
    | some component =>
      simp only [hdepth, true_and, Option.some.injEq, exists_eq_left']
      split
      case isTrue hshown => simp [hshown, eq_comm]
      case isFalse hhidden => simp [hhidden]

end Node

theorem renderNode_eq (node : Node) : renderNode scene depth key node
    = node.elements scene depth key (renderOptional scene (depth + 1) node.children) := by
  cases node
  rw [renderNode]

/-- A child that stands alone renders like a list of one. -/
theorem renderOptional_eq (node : Node) :
    renderOptional scene depth node.children = renderList scene depth 0 node.childList := by
  unfold Node.childList
  cases node.children with
  | none => rfl
  | some children =>
    cases children with
    | many children => rfl
    | one child => exact (List.append_nil _).symm

/-- Where components pass everything through, an element has the children of its node rendered, and
the key and the props of one of its instances. -/
theorem of_mem_renderNode {node : Node} {element : Element}
    (hpass : scene.components.PassThrough) (h : element ∈ renderNode scene depth key node) :
    element.children = renderList scene (depth + 1) 0 node.childList ∧
      ∃ explicit ∈ node.instances scene key,
        element.key = explicit.1 ∧ element.props = node.attributes scene explicit.2 := by
  rw [renderNode_eq, renderOptional_eq] at h
  obtain ⟨-, -, component, hfind, explicit, hmem, rfl⟩ := Node.mem_elements_iff.mp h
  obtain ⟨kind, rfl⟩ := hpass node.kind component hfind
  exact ⟨rfl, explicit, hmem, rfl, rfl⟩

end ViewTree
