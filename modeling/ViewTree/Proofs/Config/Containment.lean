import ViewTree.Proofs.Config.Children
import ViewTree.Proofs.Config.Independent

/-!
# What children cannot break

Whether a value describes a node does not depend on what is given for its children, and the other
fields of the node do not either (`Node.ofJson_insert_children`).  So an entry anywhere in a tree
counts for the child at its own place and for nothing else (`Node.ofJson_fill`).
-/

namespace ViewTree

namespace Node

/-- The field that holds the children, given how they are read. -/
def childrenField (children : Source → Draft → Decode (Option Children)) :
    FieldRule Partial Draft :=
  .ofSlot "children" false Partial.children (fun v r => { r with children := some v }) children

variable {children : Source → Draft → Decode (Option Children)}

theorem childrenField_mem : childrenField children ∈ (rule children).fields :=
  .tail _ (.tail _ (.head _))

/-- The fields of a node are independent of each other. -/
theorem lawful_rule : (rule children).Lawful where
  steady := by
    simp only [rule, List.forall_mem_cons]
    and_intros <;> first
      | exact FieldRule.steady_ofSlot fun _ _ => rfl
      | exact fun _ h => absurd h List.not_mem_nil
  apart := by
    simp only [rule, List.pairwise_cons, List.forall_mem_cons]
    and_intros <;> first
      | exact FieldRule.apart_ofSlot (by decide) (fun _ _ _ => rfl) (fun _ _ => rfl)
          fun _ _ => rfl
      | exact fun _ h => absurd h List.not_mem_nil
      | exact List.Pairwise.nil

/-- How children are read does not matter to an object that has none. -/
theorem gather_rule_congr {other : Source → Draft → Decode (Option Children)} {source : Source}
    {given : String → Option Draft} {record : Partial} (h : given "children" = none) :
    RecordRule.gather source given (rule children).fields record
      = RecordRule.gather source given (rule other).fields record := by
  have htake : ∀ record, (childrenField children).take source (given "children") record
      = (childrenField other).take source (given "children") record := fun record => by
    rw [h]
    rfl
  -- The two fields before the children and those after them are the same.
  exact bind_congr fun _ => bind_congr fun record =>
    congrArg (· >>= RecordRule.gather source given _) (htake record)

variable {fields : Fields} {node : Node}

theorem ofJson_object_eq_ok (hd : Fields.Distinct fields) :
    ofJson (.object fields) = .ok node ↔
      ∃ record, RecordRule.gather .ofValue (RecordRule.givenIn id fields)
        (rule fun _ _ => return Children.ofFields fields).fields {} = .ok record ∧
          record.finish = node := by
  have hopen : ∀ field ∈ (rule fun _ _ => return Children.ofFields fields).fields,
      field.filled ({} : Partial) = false := by
    simp only [rule, List.forall_mem_cons]
    and_intros <;> first
      | rfl
      | exact fun _ h => absurd h List.not_mem_nil
  rw [ofJson, Children.within, assemble, decodeWith, map_eq_ok, Draft.ofJson, RecordRule.read,
    RecordRule.entriesOf_ofFields]
  exact exists_congr fun record => and_congr_left fun _ =>
    RecordRule.readObject_eq_ok lawful_rule Source.settled_ofValue hd hopen

/-- An object describes a node whatever stands for its children, or it does not.  The children are
what that value describes, and the other fields do not depend on it. -/
theorem ofJson_insert_children (hd : Fields.Distinct fields) (children : Json) :
    ofJson (.object (Fields.insert "children" children fields)) = .ok node ↔
      ∃ bare, ofJson (.object (Fields.erase "children" fields)) = .ok bare ∧
        node = { bare with children := Children.ofJson children } := by
  have hgive : Children.ofFields (Fields.insert "children" children fields)
      = Children.ofJson children := by
    rw [Children.ofFields_eq, Fields.get?_insert_self, Option.bind_some]
  have hnone : Fields.get? "children" (Fields.erase "children" fields) = none := by
    rw [Fields.get?_erase hd, if_pos rfl]
  have hbare : Children.ofFields (Fields.erase "children" fields) = none := by
    rw [Children.ofFields_eq, hnone, Option.bind_none]
  let given := RecordRule.givenIn id (Fields.erase "children" fields)
  let field := childrenField fun _ _ => return Children.ofJson children
  let rule := rule fun _ _ => return Children.ofJson children
  let put (record : Partial) : Partial :=
    { record with children := some (Children.ofJson children) }
  have hgiven : given "children" = none := congrArg (Option.map _) hnone
  have hput : ∀ record, field.fill .ofValue (.ofJson children) record = .ok (put record) :=
    fun _ => rfl
  -- The children are read first, and then, with none given, last.
  have hfirst : RecordRule.gather .ofValue
      (RecordRule.givenIn id (Fields.insert "children" children fields)) rule.fields {}
        = RecordRule.gather .ofValue given rule.fields (put {}) := by
    refine RecordRule.gather_given lawful_rule.steady lawful_rule.apart childrenField_mem ?_
      hgiven ?_ hput
    · exact congrArg (Option.map _) Fields.get?_insert_self
    · intro name hname
      exact congrArg (Option.map _) ((Fields.get?_insert_of_ne hname).trans
        ((Fields.get?_erase hd).trans (if_neg hname)).symm)
  have hlast : ∀ record, RecordRule.gather .ofValue given rule.fields (put {}) = .ok record ↔
      ∃ last, RecordRule.gather .ofValue given rule.fields {} = .ok last ∧ put last = record := by
    intro record
    refine RecordRule.gather_put ⟨_, _, hput⟩ lawful_rule.steady fun first hmem => ?_
    by_cases hself : first = field
    · exact .inr ⟨hself ▸ rfl, hself ▸ hgiven⟩
    · exact .inl (lawful_rule.apart.forall hmem childrenField_mem hself)
  have hother : RecordRule.gather .ofValue given (Node.rule fun _ _ => return none).fields {}
      = RecordRule.gather .ofValue given rule.fields {} := gather_rule_congr hgiven
  constructor
  · intro h
    obtain ⟨record, hrecord, rfl⟩ := (ofJson_object_eq_ok (Fields.distinct_insert hd)).mp h
    rw [hgive] at hrecord
    obtain ⟨last, hread, rfl⟩ := (hlast record).mp (hfirst.symm.trans hrecord)
    refine ⟨_, (ofJson_object_eq_ok (Fields.distinct_erase hd)).mpr ⟨last, ?_, rfl⟩, rfl⟩
    rw [hbare]
    exact hother.trans hread
  · rintro ⟨bare, h, rfl⟩
    obtain ⟨last, hread, rfl⟩ := (ofJson_object_eq_ok (Fields.distinct_erase hd)).mp h
    rw [hbare] at hread
    have hrecord := hfirst.trans ((hlast _).mpr ⟨last, hother.symm.trans hread, rfl⟩)
    refine (ofJson_object_eq_ok (Fields.distinct_insert hd)).mpr ⟨put last, ?_, rfl⟩
    rw [hgive]
    exact hrecord

/-- An object that describes a node names its type. -/
theorem typed_of_ofJson (hd : Fields.Distinct fields) (h : ofJson (.object fields) = .ok node) :
    (Json.object fields).Typed := by
  obtain ⟨record, hread, -⟩ := (ofJson_object_eq_ok hd).mp h
  obtain ⟨next, htype, -⟩ := bind_eq_ok.mp hread
  replace htype : FieldRule.take _ .ofValue (RecordRule.givenIn id fields "type") {} = .ok next :=
    htype
  cases hkind : Fields.get? "type" fields with
  | none =>
    have hnone : RecordRule.givenIn id fields "type" = none := congrArg (Option.map _) hkind
    rw [hnone] at htype
    cases htype
  | some kind =>
    have hsome : RecordRule.givenIn id fields "type" = some (.ofJson kind) :=
      congrArg (Option.map _) hkind
    rw [hsome] at htype
    obtain ⟨text, htext, -⟩ := FieldRule.fill_ofSlot.mp htype
    cases kind with
    | text s => exact ⟨s, hkind⟩
    | _ =>
      unfold Decode.text at htext
      exact absurd htext Decode.wrongType_ne_ok

end Node

/-! ### Places -/

/-- A place among the children of a node: the node, and what stands before and after the place, or
that it stands alone. -/
structure Place (α β : Type) where
  parent : α
  siblings : Option (List β × List β)

namespace Place

/-- How many siblings stand before the place. -/
def index {α β : Type} (place : Place α β) : Nat :=
  (place.siblings.map fun siblings => siblings.1.length).getD 0

/-- The object with a value at the place. -/
def fill (place : Place Fields Json) (value : Json) : Json :=
  let children := match place.siblings with
    | none => value
    | some (before, after) => .array (before ++ value :: after)
  .object (Fields.insert "children" children place.parent)

/-- The node with a child at the place. -/
def give (place : Place Node Child) (child : Child) : Node :=
  let children := match place.siblings with
    | none => .one child
    | some (before, after) => .many (before ++ child :: after)
  { place.parent with children := some children }

/-- The node with another node at the place. -/
def giveNode (place : Place Node Child) (node : Node) : Node := place.give (.node node)

/-- What an object is as a node, apart from what is at the place. -/
structure Describes (place : Place Fields Json) (node : Place Node Child) : Prop where
  distinct : Fields.Distinct place.parent
  parent : Node.ofJson (.object (Fields.erase "children" place.parent)) = .ok node.parent
  siblings : node.siblings = place.siblings.map fun siblings =>
    (siblings.1.map Child.ofJson, siblings.2.map Child.ofJson)

variable {place : Place Fields Json} {node : Place Node Child} {value : Json}

/-- What is at the place counts for the child at that place. -/
theorem Describes.ofJson_fill (h : place.Describes node)
    (halone : place.siblings = none → value ≠ .null ∧ ∀ items, value ≠ .array items) :
    Node.ofJson (place.fill value) = .ok (node.give (Child.ofJson value)) := by
  refine (Node.ofJson_insert_children h.distinct _).mpr ⟨node.parent, h.parent, ?_⟩
  rw [give, h.siblings]
  cases hsiblings : place.siblings with
  | none =>
    obtain ⟨hnull, harray⟩ := halone hsiblings
    simp only [Option.map_none, Children.ofJson_of_single hnull harray]
  | some siblings =>
    obtain ⟨before, after⟩ := siblings
    simp only [Option.map_some, Children.ofJson, Children.listOf_eq, List.map_append,
      List.map_cons]

theorem Describes.typed_fill (h : place.Describes node)
    (halone : place.siblings = none → value ≠ .null ∧ ∀ items, value ≠ .array items) :
    (place.fill value).Typed :=
  Node.typed_of_ofJson (Fields.distinct_insert h.distinct) (h.ofJson_fill halone)

/-- At any depth, what is at a place counts for the child at that place.  By induction on the
places around it, each of which holds a typed object. -/
theorem ofJson_foldr_fill {outer : List (Place Fields Json)} {nodes : List (Place Node Child)}
    (houter : List.Forall₂ Describes outer nodes) (h : place.Describes node)
    (halone : place.siblings = none → value ≠ .null ∧ ∀ items, value ≠ .array items) :
    (outer.foldr fill (place.fill value)).Typed ∧
      Node.ofJson (outer.foldr fill (place.fill value))
        = .ok (nodes.foldr giveNode (node.give (Child.ofJson value))) := by
  induction houter with
  | nil => exact ⟨h.typed_fill halone, h.ofJson_fill halone⟩
  | @cons first nodeFirst rest nodeRest hfirst _ ih =>
    obtain ⟨htyped, hread⟩ := ih
    have hsingle := fun _ : first.siblings = none => htyped.single
    have hfill := hfirst.ofJson_fill hsingle
    rw [Child.ofJson_of_ok htyped hread] at hfill
    exact ⟨hfirst.typed_fill hsingle, hfill⟩

end Place

end ViewTree
