import Mathlib.Data.List.Nodup
import ViewTree.State.Path

/-!
# Entries of an object

What `get?` finds after `insert` and `erase`.  Erasing moves the last entry into the place that
becomes free, so it is read through the entries that are left (`erase_perm`); that it removes a
name takes the names to be distinct, which `insert` and `erase` keep (`distinct_insert`,
`distinct_erase`).

Of many entries written one after another, those hide what was there before under their names and
leave the rest (`get?_insertAll_of_mem`, `get?_insertAll_of_not_mem`); changing every value goes
through all of this (`mapValues_insertAll`).
-/

namespace ViewTree.Fields

/-- The names of the entries, in order. -/
def names (fields : Fields) : List String := fields.map Prod.fst

/-- No two entries have one name. -/
def Distinct (fields : Fields) : Prop := fields.names.Nodup

variable {name other : String} {value : Json} {fields : Fields}

theorem distinct_nil : Distinct [] := List.nodup_nil

theorem distinct_cons {entry : String × Json} :
    Distinct (entry :: fields) ↔ entry.1 ∉ names fields ∧ Distinct fields := by
  rw [Distinct, names, List.map_cons, List.nodup_cons]
  rfl

/-! ### Reading -/

theorem get?_cons (key : String) (old : Json) :
    get? name ((key, old) :: fields) = if key = name then some old else get? name fields := rfl

theorem get?_eq_none_iff : get? name fields = none ↔ name ∉ names fields := by
  induction fields with
  | nil => simp [get?, names]
  | cons entry fields ih =>
    obtain ⟨key, old⟩ := entry
    rw [get?_cons, names, List.map_cons, List.mem_cons, not_or]
    by_cases h : key = name
    · simp [h]
    · rw [if_neg h, ih]
      exact ⟨fun hn => ⟨fun he => h he.symm, hn⟩, fun hn => hn.2⟩

/-- With distinct names, reading is membership. -/
theorem get?_eq_some_iff (hd : Distinct fields) :
    get? name fields = some value ↔ (name, value) ∈ fields := by
  induction fields with
  | nil => simp [get?]
  | cons entry fields ih =>
    obtain ⟨key, old⟩ := entry
    obtain ⟨hkey, hd⟩ := distinct_cons.mp hd
    rw [get?_cons, List.mem_cons]
    by_cases h : key = name
    · subst h
      rw [if_pos rfl]
      constructor
      · intro hv
        exact Or.inl (by rw [Option.some.inj hv])
      · rintro (hv | hv)
        · rw [(Prod.mk.inj hv).2]
        · exact absurd (List.mem_map_of_mem hv) hkey
    · rw [if_neg h, ih hd]
      exact ⟨Or.inr, fun hv => hv.resolve_left fun he => h (Prod.mk.inj he).1.symm⟩

/-! ### Writing -/

theorem get?_insert : get? other (insert name value fields)
    = if other = name then some value else get? other fields := by
  induction fields with
  | nil => simp [insert, get?, eq_comm]
  | cons entry fields ih =>
    obtain ⟨key, old⟩ := entry
    rw [insert]
    by_cases h : key = name
    · subst h
      rw [if_pos rfl, get?_cons, get?_cons]
      by_cases ho : other = key
      · rw [if_pos ho.symm, if_pos ho]
      · rw [if_neg (Ne.symm ho), if_neg ho, if_neg (Ne.symm ho)]
    · rw [if_neg h, get?_cons, get?_cons, ih]
      by_cases hk : key = other
      · subst hk
        rw [if_pos rfl, if_neg h, if_pos rfl]
      · rw [if_neg hk, if_neg hk]

@[simp] theorem get?_insert_self : get? name (insert name value fields) = some value := by
  rw [get?_insert, if_pos rfl]

theorem get?_insert_of_ne (h : other ≠ name) :
    get? other (insert name value fields) = get? other fields := by
  rw [get?_insert, if_neg h]

theorem mem_names_insert : other ∈ names (insert name value fields)
    ↔ other = name ∨ other ∈ names fields := by
  have h : get? other (insert name value fields)
      = if other = name then some value else get? other fields := get?_insert
  by_cases ho : other = name
  · rw [if_pos ho] at h
    refine ⟨fun _ => Or.inl ho, ?_⟩
    intro _
    by_contra hn
    rw [← get?_eq_none_iff, h] at hn
    cases hn
  · rw [if_neg ho] at h
    rw [← not_iff_not, ← get?_eq_none_iff, h, get?_eq_none_iff, not_or]
    exact ⟨fun hn => ⟨ho, hn⟩, fun hn => hn.2⟩

theorem distinct_insert (hd : Distinct fields) : Distinct (insert name value fields) := by
  induction fields with
  | nil => simp [insert, Distinct, names]
  | cons entry fields ih =>
    obtain ⟨key, old⟩ := entry
    obtain ⟨hkey, hd⟩ := distinct_cons.mp hd
    rw [insert]
    by_cases h : key = name
    · rw [if_pos h]
      exact distinct_cons.mpr ⟨hkey, hd⟩
    · rw [if_neg h]
      refine distinct_cons.mpr ⟨?_, ih hd⟩
      intro hm
      exact (mem_names_insert.mp hm).elim h hkey

/-! ### Removing -/

/-- With distinct names, erasing leaves the entries of the other names, in some order. -/
theorem erase_perm (hd : Distinct fields) :
    (erase name fields).Perm (fields.filter fun entry => entry.1 ≠ name) := by
  induction fields with
  | nil => simp [erase]
  | cons entry fields ih =>
    obtain ⟨key, old⟩ := entry
    obtain ⟨hkey, hd⟩ := distinct_cons.mp hd
    rw [erase]
    by_cases h : key = name
    · subst h
      rw [if_pos rfl, List.filter_cons_of_neg (by simp)]
      have hall : (fields.filter fun entry => entry.1 ≠ key) = fields := by
        refine List.filter_eq_self.mpr ?_
        intro entry he
        have hmem : entry.1 ∈ names fields := List.mem_map_of_mem he
        have hne : entry.1 ≠ key := fun hk => hkey (hk ▸ hmem)
        simpa using hne
      rw [hall]
      -- The last entry goes to the front.
      cases hl : fields.getLast? with
      | none => rw [List.getLast?_eq_none_iff.mp hl]
      | some last =>
        have hsplit := List.dropLast_append_getLast? last (by rw [hl]; exact Option.mem_some_self _)
        calc last :: fields.dropLast
            = [last] ++ fields.dropLast := rfl
          _ |>.Perm (fields.dropLast ++ [last]) := List.perm_append_comm
          _ = fields := hsplit
    · rw [if_neg h, List.filter_cons_of_pos (by simpa using h)]
      exact (ih hd).cons _

theorem distinct_erase (hd : Distinct fields) : Distinct (erase name fields) := by
  have hp : (names (erase name fields)).Perm
      (names (fields.filter fun entry => entry.1 ≠ name)) := (erase_perm hd).map Prod.fst
  rw [Distinct, hp.nodup_iff]
  exact hd.sublist (List.filter_sublist.map Prod.fst)

theorem get?_erase (hd : Distinct fields) : get? other (erase name fields)
    = if other = name then none else get? other fields := by
  ext found
  rw [get?_eq_some_iff (distinct_erase hd), (erase_perm hd).mem_iff, List.mem_filter]
  by_cases h : other = name
  · simp [h]
  · rw [if_neg h, get?_eq_some_iff hd]
    simp [h]

/-! ### Writing many entries -/

variable {others entries : Fields}

theorem insertAll_cons (entry : String × Json) : insertAll fields (entry :: entries)
    = insertAll (insert entry.1 entry.2 fields) entries := rfl

theorem get?_insertAll_of_not_mem (h : name ∉ names entries) :
    get? name (insertAll fields entries) = get? name fields := by
  induction entries generalizing fields with
  | nil => rfl
  | cons entry entries ih =>
    have hne : name ≠ entry.1 := fun heq => h (heq ▸ List.mem_cons_self)
    have hrest : name ∉ names entries := fun hmem => h (List.mem_cons_of_mem _ hmem)
    rw [insertAll_cons, ih hrest, get?_insert_of_ne hne]

/-- Under a name that is written, what was there before does not show. -/
theorem get?_insertAll_of_mem (h : name ∈ names entries) :
    get? name (insertAll fields entries) = get? name (insertAll others entries) := by
  induction entries generalizing fields others with
  | nil => exact absurd h List.not_mem_nil
  | cons entry entries ih =>
    rw [insertAll_cons, insertAll_cons]
    by_cases hrest : name ∈ names entries
    · exact ih hrest
    · obtain rfl : name = entry.1 := (List.mem_cons.mp h).resolve_right hrest
      rw [get?_insertAll_of_not_mem hrest, get?_insertAll_of_not_mem hrest, get?_insert_self,
        get?_insert_self]

theorem ext_of_get? (hd : Distinct fields) (hnames : names fields = names others)
    (h : ∀ name, get? name fields = get? name others) : fields = others := by
  induction fields generalizing others with
  | nil => exact (List.map_eq_nil_iff.mp hnames.symm).symm
  | cons entry fields ih =>
    cases others with
    | nil => nomatch hnames
    | cons other others =>
      obtain ⟨key, value⟩ := entry
      obtain ⟨key', value'⟩ := other
      obtain rfl : key = key' := (List.cons.inj hnames).1
      have hrest : names fields = names others := (List.cons.inj hnames).2
      obtain ⟨hnew, hd⟩ := distinct_cons.mp hd
      have hvalue : value = value' := by
        have hget := h key
        rw [get?_cons, get?_cons, if_pos rfl, if_pos rfl] at hget
        exact Option.some.inj hget
      have hfields : fields = others := by
        refine ih hd hrest fun name => ?_
        by_cases hname : key = name
        · subst hname
          rw [get?_eq_none_iff.mpr hnew, get?_eq_none_iff.mpr (hrest ▸ hnew)]
        · have hget := h name
          rwa [get?_cons, get?_cons, if_neg hname, if_neg hname] at hget
      rw [hvalue, hfields]

theorem names_insert_congr (value : Json) (hnames : names fields = names others) :
    names (insert name value fields) = names (insert name value others) := by
  induction fields generalizing others with
  | nil => rw [List.map_eq_nil_iff.mp hnames.symm]
  | cons entry fields ih =>
    cases others with
    | nil => nomatch hnames
    | cons other others =>
      obtain ⟨key, old⟩ := entry
      obtain ⟨key', old'⟩ := other
      obtain rfl : key = key' := (List.cons.inj hnames).1
      have hrest : names fields = names others := (List.cons.inj hnames).2
      rw [insert, insert]
      split
      · exact hnames
      · exact congrArg (key :: ·) (ih hrest)

/-- Writing leaves the same where what was there before differs only under the names written. -/
theorem insertAll_congr (hd : Distinct fields) (hnames : names fields = names others)
    (h : ∀ name, name ∉ names entries → get? name fields = get? name others) :
    insertAll fields entries = insertAll others entries := by
  induction entries generalizing fields others with
  | nil => exact ext_of_get? hd hnames fun name => h name List.not_mem_nil
  | cons entry entries ih =>
    rw [insertAll_cons, insertAll_cons]
    refine ih (distinct_insert hd) (names_insert_congr _ hnames) fun name hname => ?_
    rw [get?_insert, get?_insert]
    split
    · rfl
    · next hne => exact h name fun hmem => (List.mem_cons.mp hmem).elim hne hname

/-! ### Changing every value -/

/-- The entries with every value changed. -/
def mapValues (f : Json → Json) (fields : Fields) : Fields :=
  fields.map fun (name, value) => (name, f value)

@[simp] theorem names_mapValues (f : Json → Json) : names (fields.mapValues f) = names fields := by
  simp [names, mapValues, Function.comp_def]

theorem get?_mapValues (f : Json → Json) :
    get? name (fields.mapValues f) = (get? name fields).map f := by
  induction fields with
  | nil => rfl
  | cons entry fields ih =>
    rw [mapValues, List.map_cons, get?, get?]
    split
    · rfl
    · exact ih

theorem mapValues_insert (f : Json → Json) (value : Json) :
    (insert name value fields).mapValues f = insert name (f value) (fields.mapValues f) := by
  induction fields with
  | nil => rfl
  | cons entry fields ih =>
    obtain ⟨key, old⟩ := entry
    rw [mapValues, mapValues, List.map_cons, insert, insert]
    split
    · rfl
    · exact congrArg _ ih

theorem mapValues_insertAll (f : Json → Json) : (insertAll fields entries).mapValues f
    = insertAll (fields.mapValues f) (entries.mapValues f) := by
  induction entries generalizing fields with
  | nil => rfl
  | cons entry entries ih =>
    rw [insertAll_cons, ih, mapValues_insert]
    rfl

end ViewTree.Fields
