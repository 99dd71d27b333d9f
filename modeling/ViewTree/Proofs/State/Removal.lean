import ViewTree.Proofs.Json.Reading
import ViewTree.Proofs.State.Store

/-!
# Removing an entry

Looking a path up goes through objects and, by index, through arrays; removing goes through objects
only.  So an entry is removed exactly when it is there and objects lead to it
(`Fields.removable_iff`), and what a lookup finds that a removal does not lies inside an array
(`Json.container_of_walk?`).

`Store.remove_takes_entry` puts this together for a dotted path.  When no array is on the way to it,
the entry is gone afterwards and the removal says whether there was one; otherwise the removal
refuses and changes nothing.  `Store.item_stays` is a removal of an item of an array.
-/

namespace ViewTree

open ViewTree.Path Json

/-! ### What leads to a value -/

namespace Json

variable {value found : Json} {lead rest : List String} {segment : String}

theorem walk?_append (lead rest : List String) (value : Json) :
    walk? (lead ++ rest) value = (walk? lead value).bind (walk? rest) := by
  induction lead generalizing value with
  | nil => rfl
  | cons segment lead ih =>
    rw [List.cons_append, walk?, walk?, Option.bind_assoc]
    exact congrArg _ (funext ih)

/-- Only objects and arrays have anything inside them. -/
theorem container_of_step? (h : step? segment value = some found) :
    (∃ inner, value = .object inner) ∨ ∃ items, value = .array items := by
  cases value with
  | object inner => exact .inl ⟨inner, rfl⟩
  | array items => exact .inr ⟨items, rfl⟩
  | null | bool _ | number _ | text _ => exact absurd h (by simp [step?])

/-- Where a path finds something, each path that leads to it finds an object or an array. -/
theorem container_of_walk? {path : List String} (h : (walk? path value).isSome = true)
    (hlead : lead <+: path) (hne : lead ≠ path) :
    (∃ inner, walk? lead value = some (.object inner)) ∨
      ∃ items, walk? lead value = some (.array items) := by
  obtain ⟨rest, rfl⟩ := hlead
  obtain ⟨found, hfound⟩ := Option.isSome_iff_exists.mp h
  rw [walk?_append] at hfound
  obtain ⟨middle, hmiddle, hrest⟩ := Option.bind_eq_some_iff.mp hfound
  cases rest with
  | nil => exact absurd (List.append_nil lead).symm hne
  | cons segment rest =>
    obtain ⟨inner, hstep, -⟩ := Option.bind_eq_some_iff.mp hrest
    rw [hmiddle]
    rcases container_of_step? hstep with ⟨fields, rfl⟩ | ⟨items, rfl⟩
    · exact .inl ⟨fields, rfl⟩
    · exact .inr ⟨items, rfl⟩

end Json

/-! ### What can be removed -/

namespace Fields

variable {name : String} {rest path : List String} {fields : Fields}

/-- Objects lead all the way to a path when each path that leads to it is one of an object. -/
theorem objectsAlong_iff : ObjectsAlong path fields ↔
    ∀ lead, lead <+: path → lead ≠ path →
      ∃ inner, walk? lead (.object fields) = some (.object inner) := by
  induction path generalizing fields with
  | nil => exact iff_of_true trivial fun lead hlead hne => absurd (List.prefix_nil.mp hlead) hne
  | cons name rest ih =>
    cases rest with
    | nil =>
      refine iff_of_true trivial fun lead hlead hne => ?_
      rcases List.prefix_cons_iff.mp hlead with rfl | ⟨tail, rfl, htail⟩
      · exact ⟨fields, rfl⟩
      · exact absurd (by rw [List.prefix_nil.mp htail]) hne
    | cons next rest =>
      constructor
      · rintro ⟨inner, hin, hobjects⟩ lead hlead hne
        rcases List.prefix_cons_iff.mp hlead with rfl | ⟨tail, rfl, htail⟩
        · exact ⟨fields, rfl⟩
        · rw [walk?_object_cons, hin, Option.bind_some]
          exact ih.mp hobjects tail htail fun he => hne (by rw [he])
      · intro h
        have hcons : ∀ {tail}, tail <+: next :: rest → tail ≠ next :: rest →
            ∃ inner, (get? name fields).bind (walk? tail) = some (.object inner) := by
          intro tail htail hne
          exact h (name :: tail) (List.cons_prefix_cons.mpr ⟨rfl, htail⟩)
            fun he => hne (List.cons.inj he).2
        -- The first segment leads to an object, in which the longer leads go on.
        obtain ⟨inner, hin⟩ := hcons List.nil_prefix (List.cons_ne_nil _ _).symm
        obtain ⟨found, hfound, hobject⟩ := Option.bind_eq_some_iff.mp hin
        obtain rfl := Option.some.inj hobject
        refine ⟨inner, hfound, ih.mpr fun tail htail hne => ?_⟩
        have htail := hcons htail hne
        rwa [hfound, Option.bind_some] at htail

/-- **An entry can be removed when it is there and objects lead to it.** -/
theorem removable_iff : removable name rest fields = true ↔
    ObjectsAlong (name :: rest) fields ∧
      (walk? (name :: rest) (.object fields)).isSome = true := by
  induction rest generalizing name fields with
  | nil =>
    rw [removable, has, walk?_object_cons]
    cases get? name fields with
    | none => exact ⟨fun h => absurd h Bool.false_ne_true, fun h => h.2⟩
    | some found => exact iff_of_true rfl ⟨trivial, rfl⟩
  | cons next rest ih =>
    rcases inside_cases name fields with hin | ⟨hnone, -⟩
    · rw [removable, hin, walk?_object_cons, hin, Option.bind_some]
      refine ih.trans (and_congr_left fun _ => ⟨fun h => ⟨_, hin, h⟩, ?_⟩)
      rintro ⟨inner, hinner, h⟩
      obtain rfl := Json.object.inj (Option.some.inj (hin.symm.trans hinner))
      exact h
    · refine iff_of_false (Bool.eq_false_iff.mp ?_) ?_
      · rw [removable]
        split
        · exact absurd ‹_› (hnone _)
        · rfl
      · rintro ⟨⟨inner, hinner, -⟩, -⟩
        exact hnone inner hinner

end Fields

/-! ### The state -/

namespace Store

variable {store : Store} {path other : String}

/-- The state holds an array at a path that leads to this one. -/
def Indexed (store : Store) (path : String) : Prop :=
  ∃ lead items, lead <+: split path ∧ lead ≠ split path ∧
    walk? lead store.toJson = some (.array items)

/-- What a removal says. -/
theorem fst_remove_iff : (store.remove path).1 = true ↔
    store.ObjectsAlong path ∧ store.has path = true :=
  Fields.removable_iff

/-- No entry inside an array is removed. -/
theorem not_objectsAlong_of_indexed (h : store.Indexed path) : ¬ store.ObjectsAlong path := by
  obtain ⟨lead, items, hlead, hne, harray⟩ := h
  intro hobjects
  obtain ⟨inner, hinner⟩ := Fields.objectsAlong_iff.mp hobjects lead hlead hne
  exact absurd (hinner.symm.trans harray) (by simp)

/-- Objects lead to an entry that is not inside an array. -/
theorem objectsAlong_of_has (h : ¬ store.Indexed path) (hhas : store.has path = true) :
    store.ObjectsAlong path := by
  refine Fields.objectsAlong_iff.mpr ?_
  intro lead hlead hne
  have hfound : (walk? (split path) store.toJson).isSome = true := hhas
  rcases container_of_walk? hfound hlead hne with hobject | ⟨items, harray⟩
  · exact hobject
  · exact absurd ⟨lead, items, hlead, hne, harray⟩ h

/-- A removal that refuses changes nothing but the count of writes. -/
theorem fields_remove_of_refused (h : (store.remove path).1 = false) :
    (store.remove path).2.fields = store.fields := by
  rw [fields_remove]
  exact Fields.remove_of_not_removable h

/-- **Writing `null` takes the entry away.**  It is the removal of the path.  When no array is on
the way to the path, nothing is found there afterwards, and the removal says whether something was
found before.  When there is an array, the removal refuses and leaves the state as it was.  No path
apart from this one reads differently. -/
theorem remove_takes_entry (hd : store.Distinct) (path : String) :
    let after := (store.remove path).2
    store.set path .null = after ∧
      (¬ store.Indexed path →
        after.has path = false ∧ (store.remove path).1 = store.has path) ∧
      (store.Indexed path → (store.remove path).1 = false ∧ after.fields = store.fields) ∧
      ∀ other, ¬ Comparable path other → after.get? other = store.get? other := by
  intro after
  refine ⟨rfl, ?_, ?_, fun other hap => get?_remove_of_apart hap (hd.along other)⟩
  · intro hfree
    have hanswer : (store.remove path).1 = store.has path := by
      rw [Bool.eq_iff_iff, fst_remove_iff]
      exact ⟨fun h => h.2, fun hhas => ⟨objectsAlong_of_has hfree hhas, hhas⟩⟩
    refine ⟨?_, hanswer⟩
    cases hhas : store.has path with
    | true =>
      have hopen := (objectsAlong_of_has hfree hhas).openAlong
      exact congrArg Option.isSome (get?_remove_self hopen (hd.along path))
    | false =>
      -- Nothing was there, and nothing has been put there.
      have hsame := fields_remove_of_refused (hanswer.trans hhas)
      rw [has, get?_eq_walk?] at hhas ⊢
      rwa [hsame]
  · intro hindexed
    have hrefused : (store.remove path).1 = false :=
      Bool.eq_false_iff.mpr fun h => not_objectsAlong_of_indexed hindexed (fst_remove_iff.mp h).1
    exact ⟨hrefused, fields_remove_of_refused hrefused⟩

/-- Of a name and an address the name is removed; an item of a list is not. -/
theorem remove_takes_entry_name :
    let store := ((Store.empty.set "user.name" (.text "Ann")).set "user.email" (.text "ann@b")).set
      "list" (.array [.text "one"])
    store.Distinct ∧ store.has "user.name" = true ∧
      (store.remove "user.name").1 = true ∧ (store.set "user.name" .null).has "user.name" = false ∧
      (store.set "user.name" .null).get? "user.email" = some (.text "ann@b") ∧
      (store.remove "list.0").1 = false := by
  intro store
  have hstate : store.toJson = .object
      [("user", .object [("name", .text "Ann"), ("email", .text "ann@b")]),
        ("list", .array [.text "one"])] := rfl
  have hd : store.Distinct := by
    refine Json.WellNamed.distinct ?_
    rw [hstate]
    simp [Json.WellNamed, Json.WellNamedFields, Json.WellNamedItems, Fields.Distinct, Fields.names]
  have hfree : ¬ store.Indexed "user.name" :=
    fun h => not_objectsAlong_of_indexed h ⟨_, rfl, trivial⟩
  have hindexed : store.Indexed "list.0" :=
    ⟨["list"], [.text "one"], by decide +kernel, by decide +kernel, rfl⟩
  obtain ⟨hset, hgone, -, hothers⟩ := remove_takes_entry hd "user.name"
  obtain ⟨hafter, hanswer⟩ := hgone hfree
  rw [hset]
  refine ⟨hd, rfl, hanswer, hafter, ?_, ((remove_takes_entry hd "list.0").2.2.1 hindexed).1⟩
  exact hothers "user.email" (by decide +kernel)

/-- An item of an array stays where it is when it is removed, and when `null` is written to it. -/
theorem item_stays :
    let store := Store.empty.set "list" (.array [.text "one"])
    store.has "list.0" = true ∧ (store.remove "list.0").1 = false ∧
      (store.remove "list.0").2.has "list.0" = true ∧
      (store.set "list.0" .null).has "list.0" = true :=
  ⟨rfl, rfl, rfl, rfl⟩

end Store

end ViewTree
