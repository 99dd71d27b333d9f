import ViewTree.Proofs.State.Store

/-!
# Reading any path after a write

What a path reads after a write is settled by how it lies to the path that was written.  From the
written path on, the value is read; on the way to it there are objects.  Any other path reads as
before when objects led as far as the two go together; where they did not, the write has put a fresh
object in place of what stood there, an array included, and the path is absent (`read_after_write`).

So reading and writing differ about arrays: a read goes into them by index, a write replaces them.
-/

namespace ViewTree

open ViewTree.Path Json

namespace Store

variable {store : Store} {path other : String} {value : Json}

/-- From the path that was written on, the value is read. -/
theorem get?_set_beyond (hv : value ≠ .null) {beyond : List String}
    (h : split other = split path ++ beyond) :
    (store.set path value).get? other = walk? beyond value := by
  rw [get?_eq_walk?, fields_set hv, h]
  exact Fields.walk?_write_append beyond

/-- On the way to the path that was written there are objects. -/
theorem get?_set_lead (hv : value ≠ .null) (hlead : split other <+: split path)
    (hne : split other ≠ split path) :
    ∃ inner, (store.set path value).get? other = some (.object inner) := by
  rw [get?_eq_walk?, fields_set hv]
  exact Fields.walk?_write_lead hlead hne

/-- **Reading after writing.**  A value is found at the path that was written, and what is inside it
beyond; what leads there are objects.  A path apart from it reads as before when each path that
leads to both was one of an object, and is absent when one of these was not. -/
theorem read_after_write (store : Store) (path other : String) {value : Json}
    (hv : value ≠ .null) :
    let after := store.set path value
    (∀ beyond, split other = split path ++ beyond → after.get? other = walk? beyond value) ∧
    (split other <+: split path → split other ≠ split path →
      ∃ inner, after.get? other = some (.object inner)) ∧
    (¬ Comparable path other →
      ((∀ lead, lead ≠ [] → lead <+: split path → lead <+: split other →
          ∃ inner, walk? lead store.toJson = some (.object inner)) →
        after.get? other = store.get? other) ∧
      ((∃ lead, lead ≠ [] ∧ lead <+: split path ∧ lead <+: split other ∧
          ∀ inner, walk? lead store.toJson ≠ some (.object inner)) →
        after.get? other = none)) := by
  refine ⟨fun beyond => get?_set_beyond hv, get?_set_lead hv, ?_⟩
  intro hap
  have hap := apart_of_not_comparable hap
  rw [get?_eq_walk?, get?_eq_walk?, fields_set hv]
  constructor
  · intro hobjects
    exact Fields.walk?_write_of_shared hap (Fields.sharedAlong_iff.mpr hobjects)
  · rintro ⟨lead, hne, hpath, hother, hnot⟩
    refine Fields.walk?_write_of_not_shared hap ?_
    intro hshared
    obtain ⟨inner, hinner⟩ := Fields.sharedAlong_iff.mp hshared lead hne hpath hother
    exact hnot inner hinner

/-- A write into an item of an array: the array gives way to an object, and what the item held
before is gone. -/
theorem read_after_write_item :
    let store := Store.empty.set "list" (.array [.object [("x", .bool true)]])
    let after := store.set "list.0.y" (.text "new")
    Json.text "new" ≠ .null ∧ ¬ Comparable "list.0.y" "list.0.x" ∧
      store.get? "list.0.x" = some (.bool true) ∧ after.get? "list.0.x" = none ∧
      after.get? "list.0.y" = some (.text "new") ∧
      ∃ inner, after.get? "list" = some (.object inner) := by
  intro store after
  have hv : Json.text "new" ≠ .null := nofun
  have hap : ¬ Comparable "list.0.y" "list.0.x" := by decide +kernel
  have harray : walk? ["list"] store.toJson = some (.array [.object [("x", .bool true)]]) := rfl
  have hnot : ∀ inner, walk? ["list"] store.toJson ≠ some (.object inner) := by
    intro inner
    rw [harray]
    simp
  refine ⟨hv, hap, rfl, ?_, ?_, ?_⟩
  · refine ((read_after_write store "list.0.y" "list.0.x" hv).2.2 hap).2 ?_
    exact ⟨["list"], by simp, by decide +kernel, by decide +kernel, hnot⟩
  · exact (read_after_write store "list.0.y" "list.0.y" hv).1 [] (List.append_nil _).symm
  · exact (read_after_write store "list.0.y" "list" hv).2.1 (by decide +kernel) (by decide +kernel)

end Store

end ViewTree
