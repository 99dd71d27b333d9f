import ViewTree.Config.Decode
import ViewTree.Proofs.State.Fields

/-!
# What a child is

An entry of a list of children is a node, content, or was meant for a node and is none.  Which of
these depends on the entry alone (`Child.ofJson_eq_node`, `Child.ofJson_eq_content`,
`Child.ofJson_eq_invalid`), and the children of a node are the children its entries describe
(`Children.ofJson_toList`).
-/

namespace ViewTree

/-- A value that is meant for a node: an object with a text for its type. -/
def Json.Typed (value : Json) : Prop := ∃ kind, value.get? "type" = some (.text kind)

theorem Json.not_typed {value : Json} (h : value.fields? = none) : ¬value.Typed := by
  rintro ⟨kind, hkind⟩
  rw [get?, h] at hkind
  cases hkind

/-- What is meant for a node is neither `null` nor a list. -/
theorem Json.Typed.single {value : Json} (h : value.Typed) :
    value ≠ .null ∧ ∀ items, value ≠ .array items := by
  constructor
  · rintro rfl
    exact Json.not_typed rfl h
  · rintro items rfl
    exact Json.not_typed rfl h

namespace Child

variable {value : Json}

theorem ofJson_of_not_typed (h : ¬value.Typed) : ofJson value = .content value := by
  unfold ofJson classify
  split
  · rename_i kind hkind
    exact absurd ⟨kind, hkind⟩ h
  · rfl

theorem ofJson_of_ok (h : value.Typed) {node : Node} (hnode : Node.ofJson value = .ok node) :
    ofJson value = .node node := by
  obtain ⟨kind, hkind⟩ := h
  rw [Node.ofJson] at hnode
  simp only [ofJson, classify, hkind, hnode]

theorem ofJson_of_error (h : value.Typed) {error : DecodeError}
    (hnode : Node.ofJson value = .error error) : ofJson value = .invalid value := by
  obtain ⟨kind, hkind⟩ := h
  rw [Node.ofJson] at hnode
  simp only [ofJson, classify, hkind, hnode]

/-- The three things a child can be. -/
theorem ofJson_cases (value : Json) :
    (¬value.Typed ∧ ofJson value = .content value) ∨
      (∃ node, value.Typed ∧ Node.ofJson value = .ok node ∧ ofJson value = .node node) ∨
      ∃ error, value.Typed ∧ Node.ofJson value = .error error ∧ ofJson value = .invalid value := by
  by_cases h : value.Typed
  · right
    cases hnode : Node.ofJson value with
    | ok node => exact .inl ⟨node, h, rfl, ofJson_of_ok h hnode⟩
    | error error => exact .inr ⟨error, h, rfl, ofJson_of_error h hnode⟩
  · exact .inl ⟨h, ofJson_of_not_typed h⟩

theorem ofJson_eq_content {content : Json} :
    ofJson value = .content content ↔ ¬value.Typed ∧ content = value := by
  constructor
  · intro h
    rcases ofJson_cases value with ⟨ht, hc⟩ | ⟨node, -, -, hc⟩ | ⟨error, -, -, hc⟩ <;>
      rw [hc] at h <;> cases h
    exact ⟨ht, rfl⟩
  · rintro ⟨ht, rfl⟩
    exact ofJson_of_not_typed ht

theorem ofJson_eq_node {node : Node} :
    ofJson value = .node node ↔ value.Typed ∧ Node.ofJson value = .ok node := by
  constructor
  · intro h
    rcases ofJson_cases value with ⟨-, hc⟩ | ⟨other, ht, hnode, hc⟩ | ⟨error, -, -, hc⟩ <;>
      rw [hc] at h <;> cases h
    exact ⟨ht, hnode⟩
  · exact fun ⟨ht, hnode⟩ => ofJson_of_ok ht hnode

theorem ofJson_eq_invalid {raw : Json} : ofJson value = .invalid raw ↔
    value.Typed ∧ (∀ node, Node.ofJson value ≠ .ok node) ∧ raw = value := by
  constructor
  · intro h
    rcases ofJson_cases value with ⟨-, hc⟩ | ⟨other, -, -, hc⟩ | ⟨error, ht, herror, hc⟩ <;>
      rw [hc] at h <;> cases h
    exact ⟨ht, fun node hnode => (nomatch herror.symm.trans hnode), rfl⟩
  · rintro ⟨ht, hnone, rfl⟩
    cases hnode : Node.ofJson raw with
    | ok node => exact absurd hnode (hnone node)
    | error error => exact ofJson_of_error ht hnode

end Child

namespace Children

variable {fields : Fields}

/-- The children of a node stand under their name. -/
theorem ofFields_eq (fields : Fields) :
    ofFields fields = (Fields.get? "children" fields).bind ofJson := by
  induction fields with
  | nil => rw [ofFields, Fields.get?, Option.bind_none]
  | cons entry fields ih =>
    obtain ⟨name, value⟩ := entry
    rw [ofFields, Fields.get?]
    split
    · rfl
    · exact ih

theorem listOf_eq (values : List Json) : listOf values = values.map Child.ofJson := by
  induction values with
  | nil => rw [listOf, List.map_nil]
  | cons value values ih => rw [listOf, ih, List.map_cons, Child.ofJson]

/-- A value that is neither `null` nor a list describes one child. -/
theorem ofJson_of_single {value : Json} (hnull : value ≠ .null)
    (harray : ∀ items, value ≠ .array items) : ofJson value = some (.one (Child.ofJson value)) := by
  cases value with
  | null => exact absurd rfl hnull
  | array items => exact absurd rfl (harray items)
  | object fields =>
    rw [ofJson]
    simp only [Child.ofJson, within]
  | bool b => rw [ofJson, Child.ofJson_of_not_typed (Json.not_typed rfl)] <;> nofun
  | number n => rw [ofJson, Child.ofJson_of_not_typed (Json.not_typed rfl)] <;> nofun
  | text s => rw [ofJson, Child.ofJson_of_not_typed (Json.not_typed rfl)] <;> nofun

/-- The entries of a value as children: none for `null`, the items of an array, otherwise the
value itself. -/
def entries : Json → List Json
  | .null => []
  | .array items => items
  | value => [value]

/-- The children a value describes, one for each of its entries. -/
theorem ofJson_toList (value : Json) :
    ((ofJson value).map toList).getD [] = (entries value).map Child.ofJson := by
  cases value with
  | null => rw [ofJson]; rfl
  | array items => rw [ofJson, listOf_eq]; rfl
  | _ =>
    rw [ofJson_of_single]
    · rfl
    · nofun
    · nofun

end Children

end ViewTree
