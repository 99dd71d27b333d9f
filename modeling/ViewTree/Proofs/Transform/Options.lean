import Mathlib.Logic.Basic
import ViewTree.Transform.Builtin

/-!
# Choices made of choices

A list of items may be made into choices twice, once where it is loaded and once where it is bound.
The second pass reads the label and the value that the first one wrote.

* `label_option` and `chosen_option`: it keeps each of the two that counts as set, and puts the text
  or the whole of the choice in the place of the other.
* `truthy_label_iff` and `truthy_chosen_iff`: for which items they count as set.  Only an object has
  fields to take them from, and an object counts as set and has a text anyway.

So the second pass changes nothing exactly when every item counts as set and has a text
(`Transform.toOptions_twice`).
-/

namespace ViewTree

namespace Json

/-- Values that are the same count as set alike. -/
theorem truthy_eq_of_same {value other : Json} (h : value.same other = true) :
    value.truthy = other.truthy := by
  cases value <;> cases other <;> simp only [same, Bool.false_eq_true] at h
  case null => rfl
  case bool => rw [eq_of_beq h]
  case number m n =>
    cases m <;> cases n <;> simp only [Number.same, Bool.false_eq_true] at h
    case int => rw [eq_of_beq h]
    case double x y =>
      simp only [truthy, Number.isZero]
      rcases Bool.or_eq_true_iff.mp h with hzero | hequal
      · obtain ⟨hx, hy⟩ := Bool.and_eq_true_iff.mp hzero
        rw [hx, hy]
      · rw [eq_of_beq hequal]
  case text => rw [eq_of_beq h]
  case array => rfl
  case object => rfl

/-- The text of an object has its braces. -/
theorem display_object_ne (fields : Fields) : (Json.object fields).display ≠ "" := by
  rw [display, compact]
  intro hempty
  have hbraces := congrArg String.length hempty
  simp at hbraces

end Json

namespace Transform

variable {item : Json}

/-! ### The label and the value of a choice -/

/-- The label of the choice for an item. -/
def label (item : Json) : Json := (firstSet ["name", "label"] item).getD (.text item.display)

/-- The value of the choice for an item. -/
def chosen (item : Json) : Json := (firstSet ["id", "value"] item).getD item

theorem option_eq (item : Json) :
    option item = .object [("label", label item), ("value", chosen item)] := rfl

theorem option_inj {other : Json} :
    option item = option other ↔ label item = label other ∧ chosen item = chosen other := by
  simp [option_eq]

section

variable {names : List String} {value : Json}

/-- A field that is taken counts as set. -/
theorem truthy_of_firstSet (h : firstSet names item = some value) : value.truthy = true :=
  List.find?_some (p := Json.truthy) h

/-- Only objects have fields to take. -/
theorem exists_fields_of_firstSet (h : firstSet names item = some value) :
    ∃ fields, item = .object fields := by
  cases hfields : item.fields? with
  | none =>
    have hget : ∀ name, item.get? name = none := fun name => by rw [Json.get?, hfields]; rfl
    simp [firstSet, hget] at h
  | some fields =>
    cases item with
    | object fields => exact ⟨fields, rfl⟩
    | _ => cases hfields

end

/-- The label counts as set when the item has a text. -/
theorem truthy_label_iff : (label item).truthy = true ↔ item.display ≠ "" := by
  have htext : (Json.text item.display).truthy = true ↔ item.display ≠ "" := by
    rw [Json.truthy, Bool.not_eq_true', ← Bool.not_eq_true, String.isEmpty_iff]
  cases hfirst : firstSet ["name", "label"] item with
  | none => rw [label, hfirst, Option.getD_none, htext]
  | some value =>
    rw [label, hfirst, Option.getD_some]
    obtain ⟨fields, rfl⟩ := exists_fields_of_firstSet hfirst
    exact iff_of_true (truthy_of_firstSet hfirst) (Json.display_object_ne fields)

/-- The value counts as set when the item does. -/
theorem truthy_chosen_iff : (chosen item).truthy = true ↔ item.truthy = true := by
  cases hfirst : firstSet ["id", "value"] item with
  | none => rw [chosen, hfirst, Option.getD_none]
  | some value =>
    rw [chosen, hfirst, Option.getD_some]
    obtain ⟨fields, rfl⟩ := exists_fields_of_firstSet hfirst
    exact iff_of_true (truthy_of_firstSet hfirst) rfl

/-! ### The second pass -/

/-- Of a field that is missing and one that is there, the second is taken if it counts as set. -/
theorem firstSet_second {first second : String} {value : Json} (hfirst : item.get? first = none)
    (hsecond : item.get? second = some value) :
    firstSet [first, second] item = if value.truthy then some value else none := by
  simp only [firstSet, List.filterMap_cons, List.filterMap_nil, hfirst, hsecond, List.find?_cons,
    List.find?_nil]
  cases value.truthy <;> rfl

/-- A label that counts as set is kept; the text of the choice takes the place of another. -/
theorem label_option :
    label (option item)
      = if (label item).truthy then label item else .text (option item).display := by
  have hfirst : firstSet ["name", "label"] (option item)
      = if (label item).truthy then some (label item) else none := firstSet_second rfl rfl
  rw [label, hfirst]
  split <;> rfl

/-- A value that counts as set is kept; the whole choice takes the place of another. -/
theorem chosen_option :
    chosen (option item) = if (chosen item).truthy then chosen item else option item := by
  have hfirst : firstSet ["id", "value"] (option item)
      = if (chosen item).truthy then some (chosen item) else none := firstSet_second rfl rfl
  rw [chosen, hfirst]
  split <;> rfl

/-- What the second pass writes always counts as set.  So if it agrees on that with the first, the
item counts as set and has a text. -/
theorem of_truthy_eq (hlabel : (label (option item)).truthy = (label item).truthy)
    (hchosen : (chosen (option item)).truthy = (chosen item).truthy) :
    item.truthy = true ∧ item.display ≠ "" := by
  have hlabelSet : (label (option item)).truthy = true :=
    truthy_label_iff.mpr (Json.display_object_ne _)
  have hchosenSet : (chosen (option item)).truthy = true := truthy_chosen_iff.mpr rfl
  exact ⟨truthy_chosen_iff.mp (hchosen ▸ hchosenSet), truthy_label_iff.mp (hlabel ▸ hlabelSet)⟩

/-- A choice is its own choice when it is one for an item that counts as set and has a text. -/
theorem option_option_iff :
    option (option item) = option item ↔ item.truthy = true ∧ item.display ≠ "" := by
  constructor
  · intro h
    obtain ⟨hlabel, hchosen⟩ := option_inj.mp h
    exact of_truthy_eq (congrArg Json.truthy hlabel) (congrArg Json.truthy hchosen)
  · rintro ⟨htruthy, htext⟩
    rw [option_inj, label_option, chosen_option, if_pos (truthy_label_iff.mpr htext),
      if_pos (truthy_chosen_iff.mpr htruthy)]
    exact ⟨rfl, rfl⟩

/-- The same holds of a choice that is its own choice up to the sameness of values. -/
theorem of_same_option (h : (option (option item)).same (option item) = true) :
    item.truthy = true ∧ item.display ≠ "" := by
  have hfields : (label (option item)).same (label item) = true ∧
      (chosen (option item)).same (chosen item) = true := by
    rw [option_eq (option item)] at h
    simpa [option_eq item, Json.same, Json.sameFields, Fields.get?] using h
  exact of_truthy_eq (Json.truthy_eq_of_same hfields.1) (Json.truthy_eq_of_same hfields.2)

/-! ### Lists -/

/-- Lists that are the same have the same items. -/
theorem same_of_mem {f g : Json → Json} {items : List Json}
    (h : Json.sameItems (items.map f) (items.map g) = true) :
    ∀ item ∈ items, (f item).same (g item) = true := by
  induction items with
  | nil => exact nofun
  | cons item items ih =>
    rw [List.map_cons, List.map_cons, Json.sameItems, Bool.and_eq_true] at h
    exact List.forall_mem_cons.mpr ⟨h.1, ih h.2⟩

/-- A list has a choice for each item, in order.  Choices are their own choices, strictly or up to
the sameness of values, exactly when every item counts as set and has a text. -/
theorem toOptions_twice (items : List Json) :
    (∃ options : List Json, toOptions (.array items) = .array options ∧
      options.length = items.length ∧ ∀ k : Nat, options[k]? = items[k]?.map option) ∧
    (toOptions (toOptions (.array items)) = toOptions (.array items)
      ↔ ∀ item ∈ items, item.truthy = true ∧ item.display ≠ "") ∧
    ((toOptions (toOptions (.array items))).same (toOptions (.array items)) = true
      → ∀ item ∈ items, item.truthy = true ∧ item.display ≠ "") := by
  refine ⟨⟨items.map option, rfl, List.length_map _, fun k => List.getElem?_map⟩, ?_, ?_⟩
  · rw [toOptions, toOptions, List.map_map, Json.array.injEq, List.map_inj_left]
    exact forall₂_congr fun item _ => option_option_iff
  · intro h item hmem
    rw [toOptions, toOptions, List.map_map, Json.same] at h
    exact of_same_option (same_of_mem h item hmem)

end Transform

end ViewTree
