import ViewTree.Proofs.Json.Reading
import ViewTree.Proofs.State.Alike

/-!
# Writes that commute

Two writes of paths apart leave equal states in either order (`Store.writes_commute`), removals
included and whatever stands on the way to them.  Equal is meant as values are compared everywhere
else, by `Json.same`, which asks for the names in each object to be distinct: otherwise a value need
not even equal itself.

That the states are alike is `Store.set_comm`; what is left is that values that are alike are equal
(`Json.Alike.same`), and that writing keeps the names in the state distinct
(`Store.wellNamed_set`).
-/

namespace ViewTree

open ViewTree.Path Json

/-! ### Equality -/

theorem Number.same_refl (number : Number) : number.same number = true := by
  cases number with
  | int n => simp [Number.same]
  | double x => simp [Number.same, Double.same]

namespace Json

variable {value other : Json} {fields others : Fields}

/-- Entries are equal to others when each of them is equal to the one of its name. -/
theorem sameFields_of_get? (h : ∀ entry ∈ fields,
    ∃ found, Fields.get? entry.1 others = some found ∧ same entry.2 found = true) :
    sameFields fields others = true := by
  induction fields with
  | nil => rfl
  | cons entry fields ih =>
    obtain ⟨⟨found, hfound, hsame⟩, hrest⟩ := List.forall_mem_cons.mp h
    rw [sameFields, hfound, ih hrest]
    simpa using hsame

mutual

/-- A value with distinct names equals itself. -/
theorem same_refl : ∀ value : Json, value.WellNamed → same value value = true
  | .null, _ => rfl
  | .bool b, _ => by simp [same]
  | .number n, _ => Number.same_refl n
  | .text s, _ => by simp [same]
  | .array items, h => same_refl_items items h
  | .object fields, h => by
    rw [WellNamed] at h
    rw [same, beq_self_eq_true, Bool.true_and]
    refine sameFields_of_get? fun entry hentry => ?_
    exact ⟨entry.2, (Fields.get?_eq_some_iff h.1).mpr hentry,
      same_refl_entries fields h.2 entry hentry⟩

theorem same_refl_items : ∀ items : List Json, WellNamedItems items → sameItems items items = true
  | [], _ => rfl
  | item :: items, h => by
    rw [sameItems, same_refl item h.1, same_refl_items items h.2]
    rfl

theorem same_refl_entries : ∀ fields : List (String × Json), WellNamedFields fields →
    ∀ entry ∈ fields, same entry.2 entry.2 = true
  | [], _ => fun _ h => absurd h List.not_mem_nil
  | (name, value) :: fields, h => by
    refine List.forall_mem_cons.mpr ⟨same_refl value h.1, ?_⟩
    exact same_refl_entries fields h.2

end

/-- **Values that are alike are equal.** -/
theorem Alike.same (h : Alike value other) (hvalue : value.WellNamed) :
    value.same other = true := by
  induction h with
  | refl value => exact same_refl value hvalue
  | @object fields others hnames _ ih =>
    obtain ⟨hd, hall⟩ := wellNamed_object.mp hvalue
    have hlength : fields.length = others.length := by
      simpa [Fields.names] using hnames.length_eq
    rw [Json.same, hlength, beq_self_eq_true, Bool.true_and]
    refine sameFields_of_get? fun entry hentry => ?_
    -- The other object has an entry of the same name, which is alike.
    have hmem : entry.1 ∈ Fields.names others := hnames.mem_iff.mp (List.mem_map_of_mem hentry)
    obtain ⟨found, hfound⟩ := Option.isSome_iff_exists.mp (Fields.get?_isSome_iff.mpr hmem)
    have hget := (Fields.get?_eq_some_iff hd).mpr hentry
    exact ⟨found, hfound, ih entry.1 entry.2 found hget hfound (hall entry hentry)⟩

end Json

/-! ### Distinct names -/

namespace Fields

variable {name : String} {rest : List String} {value : Json} {fields : Fields}

theorem wellNamed_erase (h : (Json.object fields).WellNamed) (name : String) :
    (Json.object (erase name fields)).WellNamed := by
  obtain ⟨hd, hall⟩ := wellNamed_object.mp h
  refine wellNamed_object.mpr ⟨distinct_erase hd, ?_⟩
  intro entry hentry
  exact hall entry (List.mem_of_mem_filter ((erase_perm hd).mem_iff.mp hentry))

theorem wellNamed_inside (h : (Json.object fields).WellNamed) (name : String) :
    (Json.object (inside name fields)).WellNamed := by
  rcases inside_cases name fields with hin | ⟨-, hin⟩
  · exact h.get? hin
  · rw [hin]
    exact wellNamed_object_nil

theorem wellNamed_write (h : (Json.object fields).WellNamed) (hvalue : value.WellNamed) :
    (Json.object (write value name rest fields)).WellNamed := by
  induction rest generalizing name fields with
  | nil => exact wellNamed_insert h hvalue
  | cons next rest ih => exact wellNamed_insert h (ih (wellNamed_inside h name))

theorem wellNamed_remove (h : (Json.object fields).WellNamed) :
    (Json.object (remove name rest fields)).WellNamed := by
  induction rest generalizing name fields with
  | nil => exact wellNamed_erase h name
  | cons next rest ih =>
    rcases inside_cases name fields with hin | ⟨hnone, -⟩
    · rw [remove_cons_of_object hin]
      exact wellNamed_insert h (ih (wellNamed_inside h name))
    · rwa [remove_cons_of_not_object hnone]

end Fields

/-! ### The state -/

namespace Store

variable {store : Store} {path other : String} {value value' : Json}

/-- Writing values with distinct names keeps the names in the state distinct. -/
theorem wellNamed_set (h : store.toJson.WellNamed) (hvalue : value.WellNamed) (path : String) :
    (store.set path value).toJson.WellNamed := by
  rw [toJson_set]
  unfold Fields.put
  split
  · exact Fields.wellNamed_remove h
  · exact Fields.wellNamed_write h hvalue

/-- **Writes of paths apart commute.**  Whatever objects, arrays, other values or gaps lie on the
way to two paths neither of which leads to the other, and whatever is written to them, `null`
included: the two orders leave equal states after equally many writes. -/
theorem writes_commute (hap : ¬ Comparable path other) (hstore : store.toJson.WellNamed)
    (hvalue : value.WellNamed) (hvalue' : value'.WellNamed) :
    let first := (store.set path value).set other value'
    let second := (store.set other value').set path value
    first.version = second.version ∧ first.toJson.same second.toJson = true := by
  intro first second
  have halike : first.Alike second :=
    set_comm hap hstore.distinct hvalue.distinct hvalue'.distinct
  have hnamed : first.toJson.WellNamed :=
    wellNamed_set (wellNamed_set hstore hvalue path) hvalue' other
  exact ⟨halike.version, halike.contents.same hnamed⟩

/-- A list gives way to an object for one of the writes; the other removes an item of it, or of what
has taken its place. -/
theorem writes_commute_list :
    let store := Store.empty.set "list" (.array [.text "one"])
    ¬ Comparable "list.name" "list.0" ∧ store.toJson.WellNamed ∧
      (((store.set "list.name" (.text "Ann")).set "list.0" .null).toJson.same
        ((store.set "list.0" .null).set "list.name" (.text "Ann")).toJson) = true := by
  intro store
  have hap : ¬ Comparable "list.name" "list.0" := by decide +kernel
  have hempty : Store.empty.toJson.WellNamed := wellNamed_object_nil
  have hstore : store.toJson.WellNamed :=
    wellNamed_set hempty (wellNamed_array.mpr (by simp)) "list"
  have hname : (Json.text "Ann").WellNamed := trivial
  have hnull : Json.null.WellNamed := trivial
  have hcommute := writes_commute hap hstore hname hnull
  exact ⟨hap, hstore, hcommute.2⟩

end Store

end ViewTree
