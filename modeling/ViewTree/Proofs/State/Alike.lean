import ViewTree.Proofs.State.Store

/-!
# The order of writes

An object lists its entries in the order in which they were written, and a removal moves the last
one.  So writes that have nothing to do with one another leave the same state in either order, but
for the order in which its objects list their entries.  `Json.Alike` is that sameness.

* `Store.Alike.set`: states that are alike stay so under the same write.
* `Store.set_comm`: two writes of paths apart may trade places, whatever stands on the way to them:
  the object that one of them has to make for itself is the one the other finds.
* `Store.setAll_perm`: blocks of writes whose paths are apart may come in any order.

Writing and removing follow one scheme, `Fields.put`, as they do in the store.
-/

namespace ViewTree

open ViewTree.Path

/-! ### Values -/

/-- Two values that are the same but for the order in which their objects list their entries; arrays
have to be equal. -/
inductive Json.Alike : Json → Json → Prop
  | refl (value : Json) : Json.Alike value value
  | object {fields others : Fields} :
    (Fields.names fields).Perm (Fields.names others) →
    (∀ name value other, Fields.get? name fields = some value →
      Fields.get? name others = some other → Json.Alike value other) →
    Json.Alike (.object fields) (.object others)

namespace Fields

variable {fields others : Fields} {name : String}

theorem get?_isSome_iff : (get? name fields).isSome ↔ name ∈ names fields := by
  rw [Option.isSome_iff_ne_none, ne_eq, get?_eq_none_iff, not_not]

/-- Objects with the same names have the same entries missing. -/
theorem isSome_get?_of_perm (h : (names fields).Perm (names others)) (name : String) :
    (get? name fields).isSome = (get? name others).isSome := by
  rw [Bool.eq_iff_iff, get?_isSome_iff, get?_isSome_iff, h.mem_iff]

end Fields

namespace Json

variable {value other third : Json} {fields others : Fields} {name : String}

/-- Two entries that are both missing or alike. -/
abbrev AlikeOption : Option Json → Option Json → Prop := Option.Rel Alike

theorem AlikeOption.refl : ∀ found : Option Json, AlikeOption found found
  | none => .none
  | some value => .some (.refl value)

section

variable {found found' : Option Json}

theorem AlikeOption.isSome_eq (h : AlikeOption found found') : found.isSome = found'.isSome := by
  cases h <;> rfl

/-- Entries that are alike are the same, or objects that are alike. -/
theorem AlikeOption.eq_or_objects (h : AlikeOption found found') :
    found = found' ∨ ∃ fields others, found = some (.object fields) ∧
      found' = some (.object others) ∧ Alike (.object fields) (.object others) := by
  cases h with
  | none => exact .inl rfl
  | some h =>
    cases h with
    | refl => exact .inl rfl
    | object hnames hvalues => exact .inr ⟨_, _, rfl, rfl, .object hnames hvalues⟩

end

namespace Alike

theorem symm (h : Alike value other) : Alike other value := by
  induction h with
  | refl value => exact .refl value
  | object hnames _ ih =>
    exact .object hnames.symm fun name value other hv ho => ih name other value ho hv

/-- Objects that are alike have entries that are. -/
theorem get? (h : Alike (.object fields) (.object others)) (name : String) :
    AlikeOption (Fields.get? name fields) (Fields.get? name others) := by
  cases h with
  | refl => exact .refl _
  | object hnames hvalues =>
    have hsome := Fields.isSome_get?_of_perm hnames name
    cases hv : Fields.get? name fields with
    | none =>
      rw [hv, eq_comm] at hsome
      rw [Option.isSome_eq_false_iff.mp hsome |> Option.isNone_iff_eq_none.mp]
      exact .none
    | some value =>
      rw [hv, eq_comm] at hsome
      obtain ⟨other, ho⟩ := Option.isSome_iff_exists.mp hsome
      rw [ho]
      exact .some (hvalues name value other hv ho)

theorem trans (h : Alike value other) (h' : Alike other third) : Alike value third := by
  induction h generalizing third with
  | refl => exact h'
  | @object fields others hnames hvalues ih =>
    cases h' with
    | refl => exact .object hnames hvalues
    | @object _ thirds hnames' hvalues' =>
      refine .object (hnames.trans hnames') ?_
      intro name value third hv ht
      -- The object in between has an entry of that name too.
      have hsome := Fields.isSome_get?_of_perm hnames name
      rw [hv, eq_comm] at hsome
      obtain ⟨other, ho⟩ := Option.isSome_iff_exists.mp hsome
      exact ih name value other hv ho (hvalues' name other third ho ht)

/-- Objects of distinct names are alike when their entries are. -/
theorem of_get? (hd : Fields.Distinct fields) (hd' : Fields.Distinct others)
    (h : ∀ name, AlikeOption (Fields.get? name fields) (Fields.get? name others)) :
    Alike (.object fields) (.object others) := by
  refine .object ((List.perm_ext_iff_of_nodup hd hd').mpr fun name => ?_) ?_
  · rw [← Fields.get?_isSome_iff, ← Fields.get?_isSome_iff, (h name).isSome_eq]
  · intro name value other hv ho
    have hboth := h name
    rw [hv, ho] at hboth
    cases hboth with
    | some halike => exact halike

end Alike

end Json

namespace Json

variable {name : String} {value : Json} {fields : Fields}

theorem Distinct.names (h : (Json.object fields).Distinct) : Fields.Distinct fields :=
  (distinct_object_iff.mp h).1

theorem Distinct.of_get? (h : (Json.object fields).Distinct)
    (hv : Fields.get? name fields = some value) : value.Distinct :=
  (distinct_object_iff.mp h).2 name value hv

end Json

open Json

/-! ### A write along a path -/

namespace Fields

variable {name next : String} {rest : List String} {value : Json} {fields others inner : Fields}
  {found : Option Json}

/-- Writes a value at the end of the segments; writing `null` removes what is there. -/
def put (value : Json) (name : String) (rest : List String) (fields : Fields) : Fields :=
  if value.isNull then remove name rest fields else write value name rest fields

/-- What a write makes of the entry under the first segment, the rest of the segments given. -/
def putIn (value : Json) : List String → Option Json → Option Json
  | [], _ => if value.isNull then none else some value
  | next :: rest, found =>
    match found.bind Json.fields? with
    | some inner => some (.object (put value next rest inner))
    | none => if value.isNull then found else some (.object (put value next rest []))

theorem putIn_object : putIn value (next :: rest) (some (.object inner))
    = some (.object (put value next rest inner)) := rfl

/-- Where no object goes on, a removal leaves what there is and a write starts afresh. -/
theorem putIn_of_not_object (h : ∀ inner, found ≠ some (.object inner)) :
    putIn value (next :: rest) found
      = if value.isNull then found else some (.object (put value next rest [])) := by
  have hnone : found.bind Json.fields? = none := by
    match found with
    | some (.object inner) => exact absurd rfl (h inner)
    | none | some .null | some (.bool _) | some (.number _) | some (.text _)
    | some (.array _) => rfl
  rw [putIn, hnone]

theorem get?_put (hd : Distinct fields) (other : String) : get? other (put value name rest fields)
    = if other = name then putIn value rest (get? name fields) else get? other fields := by
  unfold put
  by_cases hnull : value.isNull = true
  · rw [if_pos hnull]
    cases rest with
    | nil => rw [remove_nil, get?_erase hd, putIn, if_pos hnull]
    | cons next rest =>
      rcases inside_cases name fields with hin | ⟨hnone, -⟩
      · rw [remove_cons_of_object hin, get?_insert, hin, putIn_object, put, if_pos hnull]
      · rw [remove_cons_of_not_object hnone, putIn_of_not_object hnone, if_pos hnull]
        by_cases hname : other = name
        · rw [if_pos hname, hname]
        · rw [if_neg hname]
  · rw [if_neg hnull]
    cases rest with
    | nil => rw [write_nil, get?_insert, putIn, if_neg hnull]
    | cons next rest =>
      rw [write_cons, get?_insert]
      rcases inside_cases name fields with hin | ⟨hnone, hin⟩
      · rw [hin, putIn_object, put, if_neg hnull]
      · rw [hin, putIn_of_not_object hnone, if_neg hnull, put, if_neg hnull]

/-- Nothing can be removed from an object without entries. -/
theorem put_null_nil (h : value.isNull = true) : put value name rest [] = [] := by
  rw [put, if_pos h]
  cases rest <;> rfl

theorem distinct_put (name : String) (rest : List String) (h : (Json.object fields).Distinct)
    (hv : value.Distinct) :
    (Json.object (put value name rest fields)).Distinct := by
  unfold put
  split
  · exact h.remove
  · exact h.write hv

/-- Two objects are alike after writes when they agree at every name. -/
theorem alike_of_get?_put {value value' : Json} {name' : String} {rest' : List String}
    (hd : (Json.object fields).Distinct) (hd' : (Json.object others).Distinct)
    (hv : value.Distinct) (hv' : value'.Distinct)
    (h : ∀ other, AlikeOption (get? other (put value name rest fields))
      (get? other (put value' name' rest' others))) :
    Alike (.object (put value name rest fields)) (.object (put value' name' rest' others)) :=
  .of_get? (distinct_put _ _ hd hv).names (distinct_put _ _ hd' hv').names h

/-- Objects that are alike stay so under a write, when the entry it goes into does. -/
theorem alike_put_of_putIn (h : Alike (.object fields) (.object others))
    (hd : (Json.object fields).Distinct) (hd' : (Json.object others).Distinct)
    (hv : value.Distinct)
    (hin : AlikeOption (putIn value rest (get? name fields))
      (putIn value rest (get? name others))) :
    Alike (.object (put value name rest fields)) (.object (put value name rest others)) := by
  refine alike_of_get?_put hd hd' hv hv fun other => ?_
  rw [get?_put hd.names, get?_put hd'.names]
  by_cases hname : other = name
  · rw [if_pos hname, if_pos hname]
    exact hin
  · rw [if_neg hname, if_neg hname]
    exact h.get? other

/-- Objects that are alike stay so under the same write. -/
theorem alike_put (h : Alike (.object fields) (.object others))
    (hd : (Json.object fields).Distinct) (hd' : (Json.object others).Distinct)
    (hv : value.Distinct) :
    Alike (.object (put value name rest fields)) (.object (put value name rest others)) := by
  induction rest generalizing name fields others with
  | nil => exact alike_put_of_putIn h hd hd' hv (.refl _)
  | cons next rest ih =>
    refine alike_put_of_putIn h hd hd' hv ?_
    -- What the write goes on in is the same in both, or objects that are alike.
    rcases (h.get? name).eq_or_objects with heq | ⟨inner, inner', hf, hg, halike⟩
    · rw [heq]
      exact .refl _
    · rw [hf, hg, putIn_object, putIn_object]
      exact .some (ih halike (hd.of_get? hf) (hd'.of_get? hg))

/-- Two writes into one entry that go apart from there may trade places, when they may inside every
object. -/
theorem putIn_comm {value' : Json} {next' : String} {rest' : List String}
    (hfound : ∀ inner, found = some (.object inner) → (Json.object inner).Distinct)
    (h : ∀ inner, (Json.object inner).Distinct →
      Alike (.object (put value next rest (put value' next' rest' inner)))
        (.object (put value' next' rest' (put value next rest inner)))) :
    AlikeOption (putIn value (next :: rest) (putIn value' (next' :: rest') found))
      (putIn value' (next' :: rest') (putIn value (next :: rest) found)) := by
  by_cases hobject : ∃ inner, found = some (.object inner)
  · obtain ⟨inner, rfl⟩ := hobject
    exact .some (h inner (hfound inner rfl))
  · -- The first write to make an object makes it for both; a removal makes none.
    have hnone : ∀ inner, found ≠ some (.object inner) := not_exists.mp hobject
    have hempty := h [] (distinct_object_iff.mpr ⟨distinct_nil, fun _ _ hv => nomatch hv⟩)
    by_cases hnull : value.isNull = true <;> by_cases hnull' : value'.isNull = true
    · rw [putIn_of_not_object hnone, if_pos hnull', putIn_of_not_object hnone, if_pos hnull,
        putIn_of_not_object hnone, if_pos hnull']
      exact .refl _
    · rw [putIn_of_not_object hnone, if_neg hnull', putIn_of_not_object hnone, if_pos hnull,
        putIn_of_not_object hnone, if_neg hnull', putIn_object]
      rw [put_null_nil hnull] at hempty
      exact .some hempty
    · rw [putIn_of_not_object hnone, if_pos hnull', putIn_of_not_object hnone, if_neg hnull,
        putIn_object]
      rw [put_null_nil hnull'] at hempty
      exact .some hempty
    · rw [putIn_of_not_object hnone, if_neg hnull', putIn_of_not_object hnone, if_neg hnull,
        putIn_object, putIn_object]
      exact .some hempty

/-- Writes into different entries may trade places. -/
theorem put_comm_of_ne {value' : Json} {name' : String} {rest' : List String} (hne : name ≠ name')
    (hd : (Json.object fields).Distinct) (hv : value.Distinct) (hv' : value'.Distinct) :
    Alike (.object (put value name rest (put value' name' rest' fields)))
      (.object (put value' name' rest' (put value name rest fields))) := by
  have hput := distinct_put name rest hd hv
  have hput' := distinct_put name' rest' hd hv'
  refine alike_of_get?_put hput' hput hv hv' fun other => ?_
  rw [get?_put hput'.names, get?_put hput.names]
  simp only [get?_put hd.names, if_neg hne, if_neg hne.symm]
  by_cases hother : other = name
  · subst hother
    simp only [if_true, if_neg hne]
    exact .refl _
  · simp only [if_neg hother]
    exact .refl _

/-- Writes of paths apart may trade places. -/
theorem put_comm {value' : Json} {name' : String} {rest' : List String}
    (hap : Apart (name :: rest) (name' :: rest')) (hd : (Json.object fields).Distinct)
    (hv : value.Distinct) (hv' : value'.Distinct) :
    Alike (.object (put value name rest (put value' name' rest' fields)))
      (.object (put value' name' rest' (put value name rest fields))) := by
  -- Two writes can only meet in one entry, where what is left of their paths is apart.
  induction rest generalizing name name' rest' fields with
  | nil =>
    have hne : name ≠ name' := fun he => not_apart_nil_left _ (apart_cons_iff.mp hap he)
    exact put_comm_of_ne hne hd hv hv'
  | cons next rest ih =>
    by_cases hname : name = name'
    · subst hname
      have hap' := apart_cons_iff.mp hap rfl
      cases rest' with
      | nil => exact absurd hap' (not_apart_nil_right _)
      | cons next' rest' =>
        have hput := distinct_put name (next :: rest) hd hv
        have hput' := distinct_put name (next' :: rest') hd hv'
        refine alike_of_get?_put hput' hput hv hv' fun other => ?_
        rw [get?_put hput'.names, get?_put hput.names]
        by_cases hother : other = name
        · rw [if_pos hother, if_pos hother, get?_put hd.names, if_pos rfl, get?_put hd.names,
            if_pos rfl]
          exact putIn_comm (fun _ hinner => hd.of_get? hinner) fun _ hinner => ih hap' hinner
        · rw [if_neg hother, if_neg hother, get?_put hd.names, if_neg hother, get?_put hd.names,
            if_neg hother]
          exact .refl _
    · exact put_comm_of_ne hname hd hv hv'

end Fields

/-! ### The state -/

/-- Writes to the state, in order. -/
abbrev Writes := List (String × Json)

/-- No path of the one is a path of the other or leads to one. -/
def Writes.Apart (writes others : Writes) : Prop :=
  ∀ write ∈ writes, ∀ other ∈ others, ¬ Comparable write.1 other.1

/-- The values that are written have distinct names. -/
def Writes.Distinct (writes : Writes) : Prop := ∀ write ∈ writes, write.2.Distinct

namespace Writes

variable {write : String × Json} {writes others : Writes}

theorem Apart.symm (h : Apart writes others) : Apart others writes := by
  intro other ho write hw hcomparable
  exact h write hw other ho hcomparable.symm

theorem distinct_nil : Distinct [] := fun _ h => absurd h List.not_mem_nil

theorem distinct_cons : Distinct (write :: writes) ↔ write.2.Distinct ∧ Distinct writes :=
  List.forall_mem_cons

theorem distinct_append : Distinct (writes ++ others) ↔ Distinct writes ∧ Distinct others :=
  List.forall_mem_append

theorem distinct_flatten {blocks : List Writes} (h : ∀ block ∈ blocks, block.Distinct) :
    Distinct blocks.flatten := by
  intro write hwrite
  obtain ⟨block, hblock, hmem⟩ := List.mem_flatten.mp hwrite
  exact h block hblock write hmem

end Writes

namespace Store

/-- Two states after equally many writes, the same but for the order of entries. -/
structure Alike (store other : Store) : Prop where
  version : store.version = other.version
  contents : Json.Alike store.toJson other.toJson

variable {store other third : Store} {path path' : String} {value value' : Json}
  {write : String × Json} {writes others : Writes}

namespace Alike

theorem refl (store : Store) : store.Alike store := ⟨rfl, .refl _⟩

theorem symm (h : store.Alike other) : other.Alike store := ⟨h.version.symm, h.contents.symm⟩

theorem trans (h : store.Alike other) (h' : other.Alike third) : store.Alike third :=
  ⟨h.version.trans h'.version, h.contents.trans h'.contents⟩

end Alike

theorem version_set (store : Store) (path : String) (value : Json) :
    (store.set path value).version = store.version + 1 := by
  cases value <;> rfl

theorem toJson_set (store : Store) (path : String) (value : Json) : (store.set path value).toJson
    = .object (Fields.put value (ofString path).head (ofString path).rest store.fields) := by
  unfold toJson Fields.put
  cases value with
  | null => exact congrArg Json.object (fields_remove store path)
  | _ => rfl

/-- States that are alike stay so under the same write. -/
theorem Alike.set (h : store.Alike other) (hd : store.Distinct) (hd' : other.Distinct)
    (hv : value.Distinct) (path : String) :
    (store.set path value).Alike (other.set path value) := by
  refine ⟨?_, ?_⟩
  · rw [version_set, version_set, h.version]
  · rw [toJson_set, toJson_set]
    exact Fields.alike_put h.contents hd hd' hv

/-- Two writes of paths apart may trade places. -/
theorem set_comm (hap : ¬ Comparable path path') (hd : store.Distinct) (hv : value.Distinct)
    (hv' : value'.Distinct) :
    ((store.set path value).set path' value').Alike ((store.set path' value').set path value) := by
  have hfields : ∀ path value, (store.set path value).fields
      = Fields.put value (ofString path).head (ofString path).rest store.fields :=
    fun path value => Json.object.inj (toJson_set store path value)
  refine ⟨?_, ?_⟩
  · rw [version_set, version_set, version_set, version_set]
  · rw [toJson_set, toJson_set, hfields, hfields]
    exact (Fields.put_comm (apart_of_not_comparable hap) hd hv hv').symm

theorem Distinct.setAll (h : store.Distinct) (hw : writes.Distinct) :
    (store.setAll writes).Distinct := by
  induction writes generalizing store with
  | nil => exact h
  | cons write writes ih =>
    obtain ⟨hv, hw⟩ := Writes.distinct_cons.mp hw
    exact ih (h.set hv write.1) hw

/-- States that are alike stay so under the same writes. -/
theorem Alike.setAll (h : store.Alike other) (hd : store.Distinct) (hd' : other.Distinct)
    (hw : writes.Distinct) : (store.setAll writes).Alike (other.setAll writes) := by
  induction writes generalizing store other with
  | nil => exact h
  | cons write writes ih =>
    obtain ⟨hv, hw⟩ := Writes.distinct_cons.mp hw
    exact ih (h.set hd hd' hv write.1) (hd.set hv write.1) (hd'.set hv write.1) hw

/-- A write may come after others whose paths are apart. -/
theorem setAll_cons_comm (hd : store.Distinct) (hv : write.2.Distinct) (hw : writes.Distinct)
    (hap : Writes.Apart [write] writes) :
    (store.setAll (write :: writes)).Alike (store.setAll (writes ++ [write])) := by
  induction writes generalizing store with
  | nil => exact .refl _
  | cons next writes ih =>
    obtain ⟨hnext, hw⟩ := Writes.distinct_cons.mp hw
    have hapart : ¬ Comparable write.1 next.1 := hap write (by simp) next (by simp)
    have hrest : Writes.Apart [write] writes :=
      fun w hwrite o ho => hap w hwrite o (List.mem_cons_of_mem next ho)
    have hswap : ((store.set write.1 write.2).set next.1 next.2).Alike
        ((store.set next.1 next.2).set write.1 write.2) := set_comm hapart hd hv hnext
    have hone := (hd.set hv write.1).set hnext next.1
    have htwo := (hd.set hnext next.1).set hv write.1
    exact (hswap.setAll hone htwo hw).trans (ih (hd.set hnext next.1) hw hrest)

/-- Writes may come after others whose paths are apart. -/
theorem setAll_append_comm (hd : store.Distinct) (hw : writes.Distinct) (ho : others.Distinct)
    (hap : Writes.Apart writes others) :
    (store.setAll (writes ++ others)).Alike (store.setAll (others ++ writes)) := by
  induction writes generalizing store with
  | nil =>
    rw [List.append_nil]
    exact .refl _
  | cons write writes ih =>
    obtain ⟨hv, hw⟩ := Writes.distinct_cons.mp hw
    have hfirst : Writes.Apart [write] others := by
      intro first hmem other hother
      rw [List.mem_singleton.mp hmem]
      exact hap write List.mem_cons_self other hother
    have hrest : Writes.Apart writes others :=
      fun w hwrite => hap w (List.mem_cons_of_mem write hwrite)
    have hlater : ((store.set write.1 write.2).setAll (writes ++ others)).Alike
        ((store.set write.1 write.2).setAll (others ++ writes)) := ih (hd.set hv write.1) hw hrest
    -- The first write goes past the others, and then the rest follows as before.
    have hone : Writes.Distinct [write] := Writes.distinct_cons.mpr ⟨hv, Writes.distinct_nil⟩
    have hpast := (setAll_cons_comm hd hv ho hfirst).setAll
      (hd.setAll (Writes.distinct_cons.mpr ⟨hv, ho⟩))
      (hd.setAll (Writes.distinct_append.mpr ⟨ho, hone⟩)) hw
    rw [← setAll_append, ← setAll_append, List.append_assoc, List.singleton_append] at hpast
    exact hlater.trans hpast

/-- Writes may be done before others that they were to follow, when their paths are apart. -/
theorem setAll_before {first now last : Writes} (hd : store.Distinct) (hfirst : first.Distinct)
    (hnow : now.Distinct) (hlast : last.Distinct) (hap : Writes.Apart now first) :
    ((store.setAll now).setAll (first ++ last)).Alike
      (store.setAll (first ++ (now ++ last))) := by
  have hswap := (setAll_append_comm hd hnow hfirst hap).setAll
    (hd.setAll (Writes.distinct_append.mpr ⟨hnow, hfirst⟩))
    (hd.setAll (Writes.distinct_append.mpr ⟨hfirst, hnow⟩)) hlast
  simpa only [setAll_append] using hswap

/-- **Blocks of writes whose paths are apart may come in any order.** -/
theorem setAll_perm {blocks blocks' : List Writes} (hperm : blocks.Perm blocks')
    (hd : store.Distinct) (hw : ∀ writes ∈ blocks, writes.Distinct)
    (hap : blocks.Pairwise Writes.Apart) :
    (store.setAll blocks.flatten).Alike (store.setAll blocks'.flatten) := by
  induction hperm generalizing store with
  | nil => exact .refl _
  | @cons block blocks blocks' _ ih =>
    rw [List.flatten_cons, List.flatten_cons, setAll_append, setAll_append]
    obtain ⟨hblock, hblocks⟩ := List.forall_mem_cons.mp hw
    exact ih (hd.setAll hblock) hblocks (List.pairwise_cons.mp hap).2
  | swap one two blocks =>
    obtain ⟨htwo, hrest⟩ := List.forall_mem_cons.mp hw
    obtain ⟨hone, hblocks⟩ := List.forall_mem_cons.mp hrest
    have hapart : Writes.Apart two one := (List.pairwise_cons.mp hap).1 one List.mem_cons_self
    have hbefore := setAll_before hd hone htwo (Writes.distinct_flatten hblocks) hapart
    rwa [← setAll_append] at hbefore
  | trans hperm _ ih ih' =>
    have hw' := fun writes hmem => hw writes (hperm.mem_iff.mpr hmem)
    exact (ih hd hw hap).trans
      (ih' hd hw' (hap.perm hperm fun h => h.symm))

end Store

end ViewTree
