import Mathlib.Data.List.Nodup
import ViewTree.Proofs.Render.Basic
import ViewTree.Proofs.Text.Split

/-!
# Keys of siblings

A child without a key of its own gets one from its kind and its place, an instance of a repeated
child one from its kind, its number and the identity of its item.  Read as texts, two such keys are
equal only where one kind is the other or extends it by a dash and a number (`instanceKey_eq`,
`childKey_eq_instanceKey`), as `a-0` extends `a`.

Two instances of one kind and number differ in the identity of their items.

So the elements of the children of a node have different keys, where no repeated child may meet a
sibling in one of these ways (`nodup_keys_renderList`).  As every element of a rendered tree comes
from a node of the tree (`exists_node_of_mem_descendants`), this holds under every parent:
`siblings_differ`.
-/

namespace ViewTree

/-! ### Keys as texts -/

/-- A kind is another one, a dash and a number, alone or followed by a dash and more. -/
def ExtendsKind (base kind : String) : Prop :=
  ∃ (index : Nat) (more : String), kind ++ "-" = base ++ "-" ++ toString index ++ "-" ++ more

/-- What stands for an item in the key of its instance. -/
def Node.identity (index : Nat) (item : Json) : String :=
  match (item.get? "id").filter Json.truthy with
  | some id => id.display
  | none => toString index

theorem Node.instanceKey_def (kind : String) (index : Nat) (item : Json) :
    instanceKey kind index item = kind ++ "-" ++ toString index ++ "-" ++ identity index item :=
  rfl

section

variable {kind base : String} {i j : Nat} {item item' : Json}

theorem toList_childKey : (childKey kind i).toList
    = kind.toList ++ '-' :: ("child".toList ++ '-' :: (toString i).toList) := by
  have hdash : "-child-".toList = '-' :: ("child".toList ++ ['-']) := by decide +kernel
  rw [childKey, String.toList_append, String.toList_append, hdash]
  simp

theorem toList_instanceKey (kind : String) (i : Nat) (item : Json) :
    (Node.instanceKey kind i item).toList
      = kind.toList ++ '-' :: ((toString i).toList ++ '-' :: (Node.identity i item).toList) := by
  have hdash : "-".toList = ['-'] := rfl
  simp only [Node.instanceKey_def, String.toList_append, hdash]
  simp

/-- Children at different places have different keys. -/
theorem childKey_injective (h : childKey kind i = childKey base j) : i = j := by
  have hreverse := congrArg (fun key : String => key.toList.reverse) h
  simp only [toList_childKey, List.reverse_append, List.reverse_cons, List.append_assoc,
    List.cons_append, List.nil_append] at hreverse
  have hdigits := (Text.append_cons_inj (by simpa using Text.not_mem_toString rfl i)
    (by simpa using Text.not_mem_toString rfl j) hreverse).1
  exact Text.toString_injective (String.toList_injective (List.reverse_inj.mp hdigits))

/-- Instances of one kind have different keys, unless they have one number, and items of one
identity. -/
theorem instanceKey_injective (h : Node.instanceKey kind i item = Node.instanceKey kind j item') :
    i = j ∧ Node.identity i item = Node.identity j item' := by
  have htexts := congrArg String.toList h
  rw [toList_instanceKey, toList_instanceKey] at htexts
  have htail := (List.cons.inj (List.append_cancel_left htexts)).2
  obtain ⟨hdigits, hid⟩ := Text.append_cons_inj (Text.not_mem_toString rfl i)
    (Text.not_mem_toString rfl j) htail
  exact ⟨Text.toString_injective (String.toList_injective hdigits), String.toList_injective hid⟩

/-- A kind is extended by one that reaches into the key of an instance. -/
theorem extendsKind_of_append {more rest id : List Char} (hkind : kind.toList = base.toList ++ more)
    (hne : more ≠ []) (h : '-' :: ((toString i).toList ++ '-' :: id) = more ++ '-' :: rest) :
    ExtendsKind base kind := by
  obtain ⟨c, more, rfl⟩ := List.exists_cons_of_ne_nil hne
  obtain ⟨rfl, htail⟩ := List.cons.inj h
  obtain ⟨last, hlast⟩ := Text.lead_of_append_cons (Text.not_mem_toString rfl i) htail.symm
  refine ⟨i, String.ofList last, String.toList_injective ?_⟩
  have hdash : "-".toList = ['-'] := rfl
  simp only [String.toList_append, String.toList_ofList, hkind, hdash]
  simpa using hlast

/-- Instances of two kinds have different keys, unless one kind is the other or extends it. -/
theorem instanceKey_eq (h : Node.instanceKey kind i item = Node.instanceKey base j item') :
    kind = base ∨ ExtendsKind kind base ∨ ExtendsKind base kind := by
  have htexts := congrArg String.toList h
  rw [toList_instanceKey, toList_instanceKey] at htexts
  -- One kind starts the other; what is left of the longer one reaches into the number.
  rcases List.append_eq_append_iff.mp htexts with ⟨more, hkind, htail⟩ | ⟨more, hkind, htail⟩
  · by_cases hnone : more = []
    · rw [hnone, List.append_nil] at hkind
      exact .inl (String.toList_injective hkind.symm)
    · exact .inr (.inl (extendsKind_of_append hkind hnone htail))
  · by_cases hnone : more = []
    · rw [hnone, List.append_nil] at hkind
      exact .inl (String.toList_injective hkind)
    · exact .inr (.inr (extendsKind_of_append hkind hnone htail))

/-- A child that is not repeated and an instance have different keys, unless the kind of the child
extends that of the instance. -/
theorem childKey_eq_instanceKey (h : childKey kind i = Node.instanceKey base j item) :
    ExtendsKind base kind := by
  have htexts := congrArg String.toList h
  rw [toList_childKey, toList_instanceKey] at htexts
  -- Behind kinds that are equal, the word would have to be a number.
  have hchild : ∀ rest, "child".toList ++ '-' :: (toString i).toList
      ≠ (toString j).toList ++ '-' :: rest := by
    intro rest heq
    have hdigits := (Text.append_cons_inj (by decide +kernel) (Text.not_mem_toString rfl j) heq).1
    have hc : 'c' ∈ (toString j).toList := by
      rw [← hdigits]
      decide +kernel
    exact Text.not_mem_toString rfl j hc
  rcases List.append_eq_append_iff.mp htexts with ⟨more, hkind, htail⟩ | ⟨more, hkind, htail⟩
  · -- The key of the child has two dashes behind its kind, both of which stand behind `more`.
    have hdashes : ∀ n : Nat, (toString n).toList.count '-' = 0 :=
      fun n => List.count_eq_zero.mpr (Text.not_mem_toString rfl n)
    have hword : "child".toList.count '-' = 0 := by decide +kernel
    have hcount := congrArg (List.count '-') htail
    simp only [List.count_append, List.count_cons_self, hdashes, hword] at hcount
    have hnone : more.count '-' = 0 := by omega
    cases more with
    | nil => exact absurd (List.cons.inj htail).2 (hchild _)
    | cons c more =>
      obtain ⟨rfl, -⟩ := List.cons.inj htail
      rw [List.count_cons_self] at hnone
      exact absurd hnone (Nat.succ_ne_zero _)
  · by_cases hnone : more = []
    · rw [hnone] at htail
      exact absurd (List.cons.inj htail).2.symm (hchild _)
    · exact extendsKind_of_append hkind hnone htail

theorem not_extendsKind (h : '-' ∉ kind.toList) : ¬ExtendsKind base kind := by
  rintro ⟨index, more, heq⟩
  have hcount := congrArg (fun text : String => text.toList.count '-') heq
  have hdash : "-".toList = ['-'] := rfl
  have hkind : kind.toList.count '-' = 0 := List.count_eq_zero.mpr h
  simp only [String.toList_append, List.count_append, hdash, hkind, List.count_singleton_self]
    at hcount
  omega

end

/-! ### Keys of the elements of a child -/

namespace Node

section

variable (scene : RenderScene)

/-- The items a node is repeated over; none for a node that is not. -/
def items (node : Node) : List Json := node.repetition.elim [] (repeatItems scene)

/-- A key that an element of a child at an index may have, if the child has no key of its own. -/
def Keyed (node : Node) (index : Nat) (key : String) : Prop :=
  if node.repetition.isSome then
    ∃ number item, (node.items scene)[number]? = some item ∧ key = instanceKey node.kind number item
  else key = childKey node.kind index

/-- Nodes of one kind that are repeated over lists with items of one identity at one index. -/
def MeetsItem (node other : Node) : Prop :=
  node.kind = other.kind ∧ ∃ number item item', (node.items scene)[number]? = some item ∧
    (other.items scene)[number]? = some item' ∧ identity number item = identity number item'

/-- A repeated node whose instances may have the keys of elements of another node. -/
def MayMeet (node other : Node) : Prop :=
  node.MeetsItem scene other ∨ node.repetition.isSome = true ∧ ExtendsKind node.kind other.kind

end

variable {scene : RenderScene} {node other : Node} {i j : Nat} {key : String}

theorem MeetsItem.symm (h : node.MeetsItem scene other) :
    other.MeetsItem scene node := by
  obtain ⟨hkind, number, item, item', hitem, hitem', hidentity⟩ := h
  exact ⟨hkind.symm, number, item', item, hitem', hitem, hidentity.symm⟩

/-- Children at different places have different keys, unless they may meet. -/
theorem Keyed.mayMeet (h : node.Keyed scene i key) (h' : other.Keyed scene j key) (hne : i ≠ j) :
    node.MayMeet scene other ∨ other.MayMeet scene node := by
  unfold Keyed at h h'
  split at h <;> split at h'
  case isTrue.isTrue hnode hother =>
    obtain ⟨number, item, hitem, hkey⟩ := h
    obtain ⟨number', item', hitem', hkey'⟩ := h'
    have hkeys := hkey.symm.trans hkey'
    rcases instanceKey_eq hkeys with hkind | hextends | hextends
    · rw [hkind] at hkeys
      obtain ⟨rfl, hidentity⟩ := instanceKey_injective hkeys
      exact .inl (.inl ⟨hkind, number, item, item', hitem, hitem', hidentity⟩)
    · exact .inl (.inr ⟨hnode, hextends⟩)
    · exact .inr (.inr ⟨hother, hextends⟩)
  case isTrue.isFalse hnode _ =>
    obtain ⟨number, item, -, hkey⟩ := h
    exact .inl (.inr ⟨hnode, childKey_eq_instanceKey (h'.symm.trans hkey)⟩)
  case isFalse.isTrue _ hother =>
    obtain ⟨number, item, -, hkey⟩ := h'
    exact .inr (.inr ⟨hother, childKey_eq_instanceKey (h.symm.trans hkey)⟩)
  case isFalse.isFalse => exact absurd (childKey_injective (h.symm.trans h')) hne

/-- A node that is not repeated may have the key of an instance only if there is a dash in its
kind. -/
theorem not_mayMeet_of_none (hnone : node.repetition = none) (hdash : '-' ∉ node.kind.toList) :
    ¬node.MayMeet scene other ∧ ¬other.MayMeet scene node := by
  have hitem : ∀ number : Nat, (node.items scene)[number]? = none := by
    intro number
    rw [items, hnone]
    rfl
  constructor
  · rintro (⟨-, number, item, -, hmem, -⟩ | ⟨hrepeated, -⟩)
    · rw [hitem] at hmem
      cases hmem
    · rw [hnone] at hrepeated
      cases hrepeated
  · rintro (⟨-, number, -, item, -, hmem, -⟩ | ⟨-, hextends⟩)
    · rw [hitem] at hmem
      cases hmem
    · exact not_extendsKind hdash hextends

/-- The instances of a node have different keys: their numbers differ. -/
theorem nodup_keys_instances (key : Option String) :
    ((node.instances scene key).map Prod.fst).Nodup := by
  cases hrepeat : node.repetition with
  | none =>
    rw [instances_of_single hrepeat]
    exact List.nodup_singleton _
  | some repetition =>
    have hnumbers : ((repeatItems scene repetition).zipIdx.map Prod.snd).Nodup := by
      rw [List.zipIdx_map_snd]
      exact List.nodup_range'
    rw [instances_of_repeat hrepeat, List.map_map]
    refine List.pairwise_map.mpr ((List.pairwise_map.mp hnumbers).imp ?_)
    intro numbered other hne hkeys
    exact hne (instanceKey_injective (Option.some.inj hkeys)).1

theorem keyed_of_mem_instances {explicit : Option String × Fields} (hkey : node.key = none)
    (h : explicit ∈ node.instances scene (some (childKey node.kind i))) :
    ∃ key, explicit.1 = some key ∧ node.Keyed scene i key := by
  unfold Keyed items
  cases hrepeat : node.repetition with
  | none =>
    rw [instances_of_single hrepeat] at h
    obtain rfl := List.mem_singleton.mp h
    exact ⟨childKey node.kind i, by rw [hkey]; rfl, rfl⟩
  | some repetition =>
    rw [instances_of_repeat hrepeat] at h
    obtain ⟨numbered, hitem, rfl⟩ := List.mem_map.mp h
    exact ⟨_, rfl, numbered.2, numbered.1, List.mem_zipIdx_iff_getElem?.mp hitem, rfl⟩

end Node

/-! ### Keys of the elements of a list of children -/

/-- The keys of the elements among some contents. -/
def Content.keys (contents : List Content) : List (Option String) :=
  (contents.filterMap Content.element?).map Element.key

theorem Content.keys_append (before after : List Content) :
    keys (before ++ after) = keys before ++ keys after := by
  simp [keys]

/-- Children whose elements have different keys. -/
def Child.Apart (scene : RenderScene) (child other : Child) : Prop :=
  ∀ node node', child = .node node → other = .node node' →
    ¬node.MayMeet scene node' ∧ ¬node'.MayMeet scene node

/-- Children without keys of their own. -/
def Child.Unkeyed (child : Child) : Prop := ∀ node, child = .node node → node.key = none

section

variable {scene : RenderScene} {depth index : Nat} {key : Option String}

/-- The keys of the elements of a node are keys of instances of it. -/
theorem keys_renderNode_sublist (hpass : scene.components.PassThrough) (node : Node) :
    ((renderNode scene depth key node).map Element.key).Sublist
      ((node.instances scene key).map Prod.fst) := by
  rw [renderNode_eq]
  unfold Node.elements
  split
  · exact List.nil_sublist _
  · cases hfind : scene.components.find? node.kind with
    | none => exact List.nil_sublist _
    | some component =>
      obtain ⟨kind, rfl⟩ := hpass node.kind component hfind
      dsimp only
      split
      · rw [List.map_map]
        exact List.Sublist.refl _
      · exact List.nil_sublist _

theorem keys_renderChild (node : Node) : Content.keys (renderChild scene depth index (.node node))
    = (renderNode scene depth (some (childKey node.kind index)) node).map Element.key := by
  rw [renderChild, Content.keys, List.filterMap_map]
  simp [Function.comp_def, Content.element?]

theorem nodup_keys_renderChild (hpass : scene.components.PassThrough) (child : Child) :
    (Content.keys (renderChild scene depth index child)).Nodup := by
  cases child with
  | node node =>
    rw [keys_renderChild]
    exact (Node.nodup_keys_instances _).sublist (keys_renderNode_sublist hpass node)
  | content value => exact List.nodup_nil
  | invalid raw => exact List.nodup_nil

theorem keyed_of_mem_renderChild (hpass : scene.components.PassThrough) {child : Child}
    (hkey : child.Unkeyed) (h : key ∈ Content.keys (renderChild scene depth index child)) :
    ∃ node text, child = .node node ∧ key = some text ∧ node.Keyed scene index text := by
  cases child with
  | node node =>
    rw [keys_renderChild] at h
    obtain ⟨explicit, hexplicit, rfl⟩ :=
      List.mem_map.mp ((keys_renderNode_sublist hpass node).subset h)
    obtain ⟨text, htext, hkeyed⟩ := Node.keyed_of_mem_instances (hkey node rfl) hexplicit
    exact ⟨node, text, rfl, htext, hkeyed⟩
  | content value => exact absurd h List.not_mem_nil
  | invalid raw => exact absurd h List.not_mem_nil

theorem keyed_of_mem_renderList (hpass : scene.components.PassThrough) {children : List Child}
    (hkeys : ∀ child ∈ children, child.Unkeyed)
    (h : key ∈ Content.keys (renderList scene depth index children)) :
    ∃ node i text, .node node ∈ children ∧ index ≤ i ∧ key = some text ∧
      node.Keyed scene i text := by
  induction children generalizing index with
  | nil => exact absurd h List.not_mem_nil
  | cons child children ih =>
    rw [renderList, Content.keys_append] at h
    rcases List.mem_append.mp h with h | h
    · obtain ⟨node, text, rfl, htext, hkeyed⟩ :=
        keyed_of_mem_renderChild hpass (hkeys _ List.mem_cons_self) h
      exact ⟨node, index, text, List.mem_cons_self, Nat.le_refl index, htext, hkeyed⟩
    · obtain ⟨node, i, text, hmem, hle, htext, hkeyed⟩ :=
        ih (fun other hother => hkeys other (List.mem_cons_of_mem child hother)) h
      exact ⟨node, i, text, List.mem_cons_of_mem child hmem, Nat.le_of_succ_le hle, htext, hkeyed⟩

/-- The elements of children that are apart have different keys. -/
theorem nodup_keys_renderList (hpass : scene.components.PassThrough) {children : List Child}
    (hkeys : ∀ child ∈ children, child.Unkeyed) (hapart : children.Pairwise (Child.Apart scene)) :
    (Content.keys (renderList scene depth index children)).Nodup := by
  induction children generalizing index with
  | nil => exact List.nodup_nil
  | cons child children ih =>
    obtain ⟨hchild, hchildren⟩ := List.pairwise_cons.mp hapart
    have hrest : ∀ other ∈ children, other.Unkeyed :=
      fun other hother => hkeys other (List.mem_cons_of_mem child hother)
    rw [renderList, Content.keys_append]
    refine (nodup_keys_renderChild hpass child).append (ih hrest hchildren) ?_
    intro key hmem hmem'
    obtain ⟨node, text, rfl, rfl, hkeyed⟩ :=
      keyed_of_mem_renderChild hpass (hkeys _ List.mem_cons_self) hmem
    obtain ⟨node', i, text', hnode', hle, htext, hkeyed'⟩ :=
      keyed_of_mem_renderList hpass hrest hmem'
    obtain rfl := Option.some.inj htext
    obtain ⟨hfirst, hsecond⟩ := hchild _ hnode' node node' rfl rfl
    exact (hkeyed.mayMeet hkeyed' (by omega)).elim hfirst hsecond

end

/-! ### Every parent of a tree -/

/-- A node that occurs in a tree of nodes. -/
inductive Node.Contains (root : Node) : Node → Prop where
  | root : Contains root root
  | child {parent child : Node} (h : Contains root parent) (hmem : .node child ∈ parent.childList) :
      Contains root child

/-- A tree whose children have no children has no other nodes. -/
theorem Node.Contains.of_flat {root node : Node} (h : root.Contains node)
    (hflat : ∀ child, .node child ∈ root.childList → child.childList = []) :
    node = root ∨ .node node ∈ root.childList := by
  induction h with
  | root => exact .inl rfl
  | child _ hmem ih =>
    rcases ih with rfl | hparent
    · exact .inr hmem
    · rw [hflat _ hparent] at hmem
      exact absurd hmem List.not_mem_nil

theorem Node.Contains.key_eq_none {root node : Node} (h : root.Contains node)
    (hroot : root.key = none) (hchildren : ∀ child, .node child ∈ root.childList →
      child.key = none ∧ child.childList = []) : node.key = none := by
  rcases h.of_flat fun child hmem => (hchildren child hmem).2 with rfl | hmem
  · exact hroot
  · exact (hchildren node hmem).1

/-- What is passed on from an element to the elements among its children holds of every element
under one that it holds of. -/
theorem Element.forall_mem_breadthFirst {p : Element → Prop}
    (hstep : ∀ element, p element → ∀ child ∈ element.childElements, p child)
    {queue : List Element} (h : ∀ element ∈ queue, p element) :
    ∀ element ∈ breadthFirst queue, p element := by
  fun_induction breadthFirst queue with
  | case1 => exact h
  | case2 parent queue ih =>
    obtain ⟨hparent, hqueue⟩ := List.forall_mem_cons.mp h
    refine List.forall_mem_cons.mpr ⟨hparent, ih ?_⟩
    intro element hmem
    exact (List.mem_append.mp hmem).elim (hqueue element) (hstep parent hparent element)

section

variable {scene : RenderScene} {root : Node}

theorem exists_of_mem_childElements {depth index : Nat} {children : List Child} {element : Element}
    (h : element ∈ (renderList scene depth index children).filterMap Content.element?) :
    ∃ key node, .node node ∈ children ∧ element ∈ renderNode scene depth key node := by
  induction children generalizing index with
  | nil => exact absurd h List.not_mem_nil
  | cons child children ih =>
    rw [renderList, List.filterMap_append] at h
    rcases List.mem_append.mp h with h | h
    · cases child with
      | node node =>
        rw [renderChild] at h
        obtain ⟨content, hcontent, helement⟩ := List.mem_filterMap.mp h
        obtain ⟨other, hother, rfl⟩ := List.mem_map.mp hcontent
        obtain rfl := Option.some.inj helement
        exact ⟨_, node, List.mem_cons_self, hother⟩
      | content value => exact absurd h List.not_mem_nil
      | invalid raw => exact absurd h List.not_mem_nil
    · obtain ⟨key, node, hmem, hnode⟩ := ih h
      exact ⟨key, node, List.mem_cons_of_mem child hmem, hnode⟩

/-- Every element of a rendered tree is rendered from a node of the tree. -/
theorem exists_node_of_mem_descendants (hpass : scene.components.PassThrough)
    {top element : Element} (htop : top ∈ renderRoot scene root)
    (h : element ∈ top.descendants) :
    ∃ node depth key, root.Contains node ∧ element ∈ renderNode scene depth key node := by
  refine Element.forall_mem_breadthFirst
    (p := fun e => ∃ node depth key, root.Contains node ∧ e ∈ renderNode scene depth key node)
    ?_ ?_ element h
  · rintro parent ⟨node, depth, key, hnode, hparent⟩ child hchild
    rw [Element.childElements, (of_mem_renderNode hpass hparent).1] at hchild
    obtain ⟨key, childNode, hmem, hrender⟩ := exists_of_mem_childElements hchild
    exact ⟨childNode, depth + 1, key, hnode.child hmem, hrender⟩
  · intro e he
    obtain rfl := List.mem_singleton.mp he
    exact ⟨root, 0, none, .root, htop⟩

/-- In what a tree renders to, the elements among the children of any one element have keys, and
these are different. -/
def SiblingsDiffer (scene : RenderScene) (root : Node) : Prop :=
  ∀ top ∈ renderRoot scene root, ∀ element ∈ top.descendants,
    (element.childElements.map Element.key).Nodup ∧
      none ∉ element.childElements.map Element.key

/-- Siblings have different keys, when no node has a key of its own and no repeated child may meet a
sibling. -/
theorem siblings_differ (hpass : scene.components.PassThrough)
    (hkeys : ∀ node, root.Contains node → node.key = none)
    (hapart : ∀ parent, root.Contains parent → parent.childList.Pairwise (Child.Apart scene)) :
    SiblingsDiffer scene root := by
  intro top htop element hmem
  -- What is under an element are the children of its node, rendered, so it is enough to look there.
  obtain ⟨parent, depth, key, hparent, hrender⟩ := exists_node_of_mem_descendants hpass htop hmem
  have hunkeyed : ∀ child ∈ parent.childList, child.Unkeyed := by
    rintro child hchild node rfl
    exact hkeys node (hparent.child hchild)
  rw [Element.childElements, (of_mem_renderNode hpass hrender).1]
  refine ⟨nodup_keys_renderList hpass hunkeyed (hapart parent hparent), ?_⟩
  intro hnone
  obtain ⟨-, -, text, -, -, htext, -⟩ := keyed_of_mem_renderList hpass hunkeyed hnone
  cases htext

theorem Element.mem_descendants_self (element : Element) : element ∈ element.descendants := by
  rw [descendants, breadthFirst]
  exact List.mem_cons_self

end

/-- A card between two that are repeated: the identity of an item looks like the place of a child,
and the two lists have items at one index. -/
theorem siblings_differ_card :
    let card := Node.ofKind "Card"
    let first := { card with
      repetition := some (.items [.object [("id", .text "child-1")], .int 1]) }
    let second := { card with repetition := some (.source "users") }
    let root := { Node.ofKind "div" with
      children := some (.many [.node first, .node card, .content (.text "a"), .node second]) }
    let scene : RenderScene :=
      ⟨[("users", .array [.object [("id", .text "ann")]])], .standard, ⟨[]⟩, 64⟩
    scene.components.PassThrough ∧ (∀ node, root.Contains node → node.key = none) ∧
      (∀ parent, root.Contains parent → parent.childList.Pairwise (Child.Apart scene)) ∧
      SiblingsDiffer scene root ∧
      (renderRoot scene root).flatMap (fun top => top.childElements.map Element.key)
        = [some "Card-0-child-1", some "Card-1-1", some "Card-child-1", some "Card-0-ann"] := by
  intro card first second root scene
  have hpass : scene.components.PassThrough := Components.standard_passThrough
  have hnodes : ∀ node, root.Contains node →
      node = root ∨ node = first ∨ node = card ∨ node = second := by
    intro node h
    have hchild : ∀ child, .node child ∈ root.childList →
        child = first ∨ child = card ∨ child = second := by
      intro child hmem
      simpa [Node.childList, root, Children.toList] using hmem
    refine (h.of_flat ?_).imp_right (hchild node)
    intro child hmem
    rcases hchild child hmem with rfl | rfl | rfl <;> rfl
  have hkeys : ∀ node, root.Contains node → node.key = none := by
    intro node h
    rcases hnodes node h with rfl | rfl | rfl | rfl <;> rfl
  have hcard : ∀ node : Node, ¬card.MayMeet scene node ∧ ¬node.MayMeet scene card :=
    fun node => Node.not_mayMeet_of_none rfl (by decide +kernel)
  have hlists : ¬first.MayMeet scene second ∧ ¬second.MayMeet scene first := by
    have hextends : ¬ExtendsKind "Card" "Card" := not_extendsKind (by decide +kernel)
    have hitem : ¬first.MeetsItem scene second := by
      rintro ⟨-, number, item, item', hfirst, hsecond, heq⟩
      cases number with
      | zero =>
        obtain rfl := Option.some.inj hfirst
        obtain rfl := Option.some.inj hsecond
        exact absurd heq (by decide +kernel)
      | succ number => cases hsecond
    exact ⟨fun h => h.elim hitem fun h => hextends h.2,
      fun h => h.elim (fun h => hitem h.symm) fun h => hextends h.2⟩
  have hapart : ∀ parent, root.Contains parent →
      parent.childList.Pairwise (Child.Apart scene) := by
    intro parent h
    rcases hnodes parent h with rfl | rfl | rfl | rfl
    · refine .cons ?_ (.cons ?_ (.cons ?_ (List.pairwise_singleton _ _)))
      · rintro _ hmem node node' hnode rfl
        obtain rfl := Child.node.inj hnode
        have hcases : node' = card ∨ node' = second := by simpa using hmem
        rcases hcases with rfl | rfl
        · exact (hcard first).symm
        · exact hlists
      · rintro _ - node node' hnode rfl
        obtain rfl := Child.node.inj hnode
        exact hcard node'
      · rintro _ - node node' hnode
        cases hnode
    all_goals exact .nil
  exact ⟨hpass, hkeys, hapart, siblings_differ hpass hkeys hapart, by decide +kernel⟩

theorem not_siblingsDiffer (scene : RenderScene) (root : Node) {top : Element}
    (htop : renderRoot scene root = [top])
    (h : ¬(top.childElements.map Element.key).Nodup) : ¬SiblingsDiffer scene root := by
  intro hdiffer
  have hmem : top ∈ renderRoot scene root := htop ▸ List.mem_singleton_self top
  exact h (hdiffer top hmem top top.mem_descendants_self).1

/-- Two repeated siblings of one kind share a key; so do a repeated node of kind `a` and a sibling
of kind `a-0`. -/
theorem repeated_siblings_share_keys :
    let span := { Node.ofKind "span" with repetition := some (.items [.text "x"]) }
    let a := { Node.ofKind "a" with
      repetition := some (.items [.object [("id", .text "child-1")]]) }
    let spans := { Node.ofKind "div" with children := some (.many [.node span, .node span]) }
    let mixed := { Node.ofKind "div" with
      children := some (.many [.node a, .node (Node.ofKind "a-0")]) }
    let components : Components :=
      ⟨["div", "span", "a", "a-0"].map fun kind => (kind, .passthrough kind)⟩
    let scene : RenderScene := ⟨[], components, ⟨[]⟩, 64⟩
    components.PassThrough ∧
      (∀ node, spans.Contains node → node.key = none) ∧
      (renderRoot scene spans).flatMap (fun top => top.childElements.map Element.key)
        = [some "span-0-0", some "span-0-0"] ∧
      ¬SiblingsDiffer scene spans ∧
      (∀ node, mixed.Contains node → node.key = none) ∧
      (renderRoot scene mixed).flatMap (fun top => top.childElements.map Element.key)
        = [some "a-0-child-1", some "a-0-child-1"] ∧
      ¬SiblingsDiffer scene mixed := by
  intro span a spans mixed components scene
  have hpass : components.PassThrough := Components.passThrough_of_names _
  have hspans : ∀ node, spans.Contains node → node.key = none := by
    refine fun node h => h.key_eq_none rfl ?_
    intro child hmem
    obtain rfl : child = span := by
      simpa [Node.childList, spans, Children.toList] using hmem
    exact ⟨rfl, rfl⟩
  have hmixed : ∀ node, mixed.Contains node → node.key = none := by
    refine fun node h => h.key_eq_none rfl ?_
    intro child hmem
    have hchild : child = a ∨ child = Node.ofKind "a-0" := by
      simpa [Node.childList, mixed, Children.toList] using hmem
    rcases hchild with rfl | rfl <;> exact ⟨rfl, rfl⟩
  refine ⟨hpass, hspans, by decide +kernel, ?_, hmixed, by decide +kernel, ?_⟩
  · exact not_siblingsDiffer scene spans rfl (by decide +kernel)
  · exact not_siblingsDiffer scene mixed rfl (by decide +kernel)

end ViewTree
