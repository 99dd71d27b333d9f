import ViewTree.Proofs.Render.Basic
import ViewTree.Proofs.State.Fields

/-!
# Resolved props

The value props of an element are the props given outright and the bound ones, the texts among them
expanded, except where a handler takes the name (`Node.value?_attributes`).
-/

namespace ViewTree

/-! ### Props and handlers by name -/

namespace Attributes

variable {props : Attributes} {name other : String} {prop : Attribute}

theorem get?_cons (key : String) (old : Attribute) :
    get? name ((key, old) :: props) = if name = key then some old else get? name props := by
  unfold get?
  by_cases h : name = key
  · rw [if_pos h, h, List.lookup_cons_self]
  · rw [if_neg h, List.lookup_cons, beq_eq_false_iff_ne.mpr h]

theorem get?_insert : get? other (insert name prop props)
    = if other = name then some prop else get? other props := by
  induction props with
  | nil => exact get?_cons name prop
  | cons entry props ih =>
    obtain ⟨key, old⟩ := entry
    rw [insert]
    by_cases hkey : key = name
    · subst hkey
      rw [if_pos rfl, get?_cons, get?_cons]
      split <;> rfl
    · rw [if_neg hkey, get?_cons, get?_cons, ih]
      by_cases hother : other = key
      · subst hother
        rw [if_pos rfl, if_neg hkey, if_pos rfl]
      · rw [if_neg hother, if_neg hother]

/-- Handlers hide the values of their names and leave the others. -/
theorem value?_insertAll {entries : List (String × Attribute)}
    (h : ∀ entry ∈ entries, entry.2.value? = none) :
    (get? name (insertAll props entries)).bind Attribute.value?
      = if name ∈ entries.map Prod.fst then none else (get? name props).bind Attribute.value? := by
  induction entries generalizing props with
  | nil => rfl
  | cons entry entries ih =>
    have hrest : ∀ other ∈ entries, other.2.value? = none :=
      fun other hmem => h other (List.mem_cons_of_mem entry hmem)
    have hcons : insertAll props (entry :: entries)
        = insertAll (insert entry.1 entry.2 props) entries := rfl
    rw [hcons, ih hrest, get?_insert]
    by_cases hname : name = entry.1
    · simp [hname, h entry List.mem_cons_self]
    · simp only [List.map_cons, List.mem_cons, hname, false_or, if_false]

theorem get?_values (fields : Fields) :
    get? name (fields.map fun (name, value) => (name, Attribute.value value))
      = (Fields.get? name fields).map .value := by
  induction fields with
  | nil => rfl
  | cons entry fields ih =>
    obtain ⟨key, value⟩ := entry
    rw [List.map_cons, get?_cons, Fields.get?_cons, ih]
    by_cases hkey : key = name
    · rw [if_pos hkey, if_pos hkey.symm]
      rfl
    · rw [if_neg hkey, if_neg (Ne.symm hkey)]

end Attributes

/-- A value with its text expanded, if it is one; texts inside other values are left alone. -/
def Scope.expandText (scope : Scope) : Json → Json
  | .text s => .text (scope.expand s)
  | value => value

theorem expandProps_eq (scope : Scope) (props : Fields) :
    expandProps scope props = props.mapValues scope.expandText := by
  refine List.map_congr_left fun entry _ => ?_
  obtain ⟨name, value⟩ := entry
  cases value <;> rfl

namespace Node

variable (node : Node) (scene : RenderScene) (name : String)

/-- The names of the props that hold the handlers of a node. -/
def handledNames : List String := (handlersOf node.events).map fun handler => handler.event.propName

/-- The props the bindings of a node give. -/
def bound : Fields := node.bindings.resolve scene.state scene.transforms

/-- The value of a prop: expanded once, and hidden by a handler of that name. -/
theorem value?_attributes (explicit : Fields) :
    (Attributes.get? name (node.attributes scene explicit)).bind Attribute.value?
      = if name ∈ node.handledNames then none
        else (Fields.get? name (Fields.insertAll explicit (node.bound scene))).map
          scene.scope.expandText := by
  have hhandlers : ∀ entry ∈ (handlersOf node.events).map fun handler =>
      (handler.event.propName, Attribute.handler handler), entry.2.value? = none := by
    intro entry hmem
    obtain ⟨handler, -, rfl⟩ := List.mem_map.mp hmem
    rfl
  have hvalue : ∀ found : Option Json,
      (found.map Attribute.value).bind Attribute.value? = found := by
    intro found
    cases found <;> rfl
  unfold attributes
  rw [Attributes.value?_insertAll hhandlers, Attributes.get?_values, hvalue, expandProps_eq,
    Fields.get?_mapValues, List.map_map]
  rfl

end Node

end ViewTree
