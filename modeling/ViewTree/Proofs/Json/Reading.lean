import ViewTree.Json.Draft
import ViewTree.Proofs.State.Path

/-!
# Reading values

`Json.WellNamed` says that no object in a value has two entries of one name, at any depth.  It is
what reading makes of a text (`Draft.wellNamed_read`), and such a value reads back as itself
(`Draft.read_ofJson`).

Unlike `Json.Distinct`, which follows the paths of the state, it goes through every item of an
array.
-/

namespace ViewTree

/-! ### Steps that may fail -/

section

variable {ε α β : Type}

@[simp] theorem ok_bind (a : α) (f : α → Except ε β) : (Except.ok a >>= f) = f a := rfl

@[simp] theorem error_bind (e : ε) (f : α → Except ε β) : (Except.error e >>= f) = .error e := rfl

@[simp] theorem pure_eq_ok (a : α) : (pure a : Except ε α) = .ok a := rfl

@[simp] theorem map_ok (f : α → β) (a : α) : (f <$> Except.ok a : Except ε β) = .ok (f a) := rfl

/-- What follows a step succeeds when the step does. -/
theorem bind_eq_ok {x : Except ε α} {f : α → Except ε β} {b : β} :
    (x >>= f) = .ok b ↔ ∃ a, x = .ok a ∧ f a = .ok b := by
  cases x with
  | error e => simp
  | ok a => simp

theorem map_eq_ok {x : Except ε α} {f : α → β} {b : β} :
    f <$> x = .ok b ↔ ∃ a, x = .ok a ∧ f a = b := by
  cases x with
  | error e => exact ⟨fun h => (nomatch h), fun ⟨_, h, _⟩ => (nomatch h)⟩
  | ok a => simp

end

namespace Json

mutual

/-- No object in a value has two entries of one name, at any depth. -/
def WellNamed : Json → Prop
  | .array items => WellNamedItems items
  | .object fields => Fields.Distinct fields ∧ WellNamedFields fields
  | .null | .bool _ | .number _ | .text _ => True

/-- Every value of a list is well named. -/
def WellNamedItems : List Json → Prop
  | [] => True
  | item :: items => WellNamed item ∧ WellNamedItems items

/-- The value of every entry is well named. -/
def WellNamedFields : List (String × Json) → Prop
  | [] => True
  | (_, value) :: fields => WellNamed value ∧ WellNamedFields fields

end

variable {items : List Json} {fields : Fields} {name : String} {value : Json}

theorem wellNamedItems_iff : WellNamedItems items ↔ ∀ item ∈ items, item.WellNamed := by
  induction items with
  | nil => simp [WellNamedItems]
  | cons item items ih => rw [WellNamedItems, ih, List.forall_mem_cons]

theorem wellNamedFields_iff : WellNamedFields fields ↔ ∀ entry ∈ fields, entry.2.WellNamed := by
  induction fields with
  | nil => simp [WellNamedFields]
  | cons entry fields ih => rw [WellNamedFields, ih, List.forall_mem_cons]

theorem wellNamed_array : (Json.array items).WellNamed ↔ ∀ item ∈ items, item.WellNamed := by
  rw [WellNamed, wellNamedItems_iff]

theorem wellNamed_object : (Json.object fields).WellNamed ↔
    Fields.Distinct fields ∧ ∀ entry ∈ fields, entry.2.WellNamed := by
  rw [WellNamed, wellNamedFields_iff]

@[simp] theorem wellNamed_bool (b : Bool) : (Json.bool b).WellNamed := trivial

@[simp] theorem wellNamed_text (s : String) : (Json.text s).WellNamed := trivial

@[simp] theorem wellNamed_object_nil : (Json.object []).WellNamed :=
  wellNamed_object.mpr ⟨Fields.distinct_nil, fun _ h => absurd h List.not_mem_nil⟩

namespace WellNamed

variable {segment : String} {found : Json}

theorem get? (h : (Json.object fields).WellNamed) (hv : Fields.get? name fields = some value) :
    value.WellNamed := by
  obtain ⟨hd, hall⟩ := wellNamed_object.mp h
  exact hall (name, value) ((Fields.get?_eq_some_iff hd).mp hv)

theorem step? (h : value.WellNamed) (hstep : step? segment value = some found) :
    found.WellNamed := by
  cases value with
  | object fields => exact h.get? hstep
  | array items =>
    obtain ⟨i, -, hitem⟩ := Option.bind_eq_some_iff.mp hstep
    exact wellNamed_array.mp h found (List.mem_of_getElem? hitem)
  | null | bool _ | number _ | text _ => exact absurd hstep (by simp [Json.step?])

/-- What has distinct names everywhere has them wherever paths lead. -/
theorem distinct (h : value.WellNamed) : value.Distinct := by
  intro segments inner hw
  induction segments generalizing value with
  | nil =>
    obtain rfl := Option.some.inj hw
    exact (wellNamed_object.mp h).1
  | cons segment segments ih =>
    obtain ⟨found, hstep, hw⟩ := Option.bind_eq_some_iff.mp hw
    exact ih (h.step? hstep) hw

end WellNamed

end Json

namespace Fields

variable {fields more : Fields} {name : String} {value : Json}

theorem names_append : names (fields ++ more) = names fields ++ names more := List.map_append

theorem get?_append (name : String) (fields more : Fields) :
    get? name (fields ++ more) = (get? name fields).or (get? name more) := by
  induction fields with
  | nil => rfl
  | cons entry fields ih =>
    rw [List.cons_append, get?, get?]
    split
    · rfl
    · exact ih

/-- A new name goes to the end. -/
theorem insert_of_not_mem (h : name ∉ names fields) :
    insert name value fields = fields ++ [(name, value)] := by
  induction fields with
  | nil => rfl
  | cons entry fields ih =>
    obtain ⟨hne, hrest⟩ := not_or.mp (List.mem_cons.not.mp h)
    rw [insert, if_neg (Ne.symm hne), ih hrest, List.cons_append]

theorem mem_insert {entry : String × Json} (h : entry ∈ insert name value fields) :
    entry = (name, value) ∨ entry ∈ fields := by
  induction fields with
  | nil => exact .inl (List.mem_singleton.mp h)
  | cons other fields ih =>
    obtain ⟨key, old⟩ := other
    rw [insert] at h
    by_cases hkey : key = name
    · rw [if_pos hkey] at h
      rcases List.mem_cons.mp h with rfl | hrest
      · exact .inl (by rw [hkey])
      · exact .inr (List.mem_cons_of_mem _ hrest)
    · rw [if_neg hkey] at h
      rcases List.mem_cons.mp h with rfl | hrest
      · exact .inr List.mem_cons_self
      · exact (ih hrest).imp_right (List.mem_cons_of_mem _)

theorem wellNamed_insert (h : (Json.object fields).WellNamed) (hv : value.WellNamed) :
    (Json.object (insert name value fields)).WellNamed := by
  obtain ⟨hd, hall⟩ := Json.wellNamed_object.mp h
  refine Json.wellNamed_object.mpr ⟨distinct_insert hd, ?_⟩
  intro entry hentry
  rcases mem_insert hentry with rfl | hold
  · exact hv
  · exact hall entry hold

/-- Distinct names in a list that goes on with an entry: the name is new to what stands before. -/
theorem not_mem_of_distinct_append_cons {entry : String × Json}
    (h : Distinct (fields ++ entry :: more)) : entry.1 ∉ names fields := by
  rw [Distinct, names_append] at h
  intro hmem
  exact (List.nodup_append.mp h).2.2 _ hmem _ List.mem_cons_self rfl

end Fields

namespace Draft

/-! ### Reading a value back -/

theorem enter_none : enter none = .ok none := rfl

theorem ofFields_eq_map (fields : Fields) :
    ofFields fields = fields.map fun entry => (some entry.1, ofJson entry.2) := by
  induction fields with
  | nil => rfl
  | cons entry fields ih => rw [ofFields, ih, List.map_cons]

theorem ofItems_eq_map (items : List Json) : ofItems items = items.map ofJson := by
  induction items with
  | nil => rfl
  | cons item items ih => rw [ofItems, ih, List.map_cons]

mutual

/-- A value with distinct names reads back as itself. -/
theorem read_ofJson : ∀ value : Json, value.WellNamed → read none (ofJson value) = .ok value
  | .null, _ => rfl
  | .bool _, _ => rfl
  | .number _, _ => rfl
  | .text _, _ => rfl
  | .array items, h => by
    have hitems := readItems_ofItems items (Json.wellNamed_array.mp h)
    simp [ofJson, read, enter_none, hitems, Ending.check]
  | .object fields, h => by
    obtain ⟨hd, hvalues⟩ := Json.wellNamed_object.mp h
    have hfields := readEntries_ofFields fields [] hd hvalues
    simp [ofJson, read, enter_none, hfields, Ending.check]

theorem readItems_ofItems : ∀ items : List Json, (∀ item ∈ items, item.WellNamed) →
    readItems none (ofItems items) = .ok items
  | [], _ => rfl
  | item :: items, h => by
    obtain ⟨hitem, hitems⟩ := List.forall_mem_cons.mp h
    simp [ofItems, readItems, read_ofJson item hitem, readItems_ofItems items hitems]

theorem readEntries_ofFields : ∀ (fields before : Fields), Fields.Distinct (before ++ fields) →
    (∀ entry ∈ fields, entry.2.WellNamed) →
    readEntries none (ofFields fields) before = .ok (before ++ fields)
  | [], before, _, _ => by
    rw [List.append_nil]
    rfl
  | (name, value) :: fields, before, hd, h => by
    obtain ⟨hvalue, hfields⟩ := List.forall_mem_cons.mp h
    have hinsert : Fields.insert name value before = before ++ [(name, value)] :=
      Fields.insert_of_not_mem (Fields.not_mem_of_distinct_append_cons hd)
    have happend : before ++ (name, value) :: fields = before ++ [(name, value)] ++ fields :=
      List.append_cons _ _ _
    rw [happend] at hd ⊢
    simp only [ofFields, readEntries, read_ofJson value hvalue, ok_bind, hinsert]
    exact readEntries_ofFields fields _ hd hfields

end

mutual

/-- Reading a value never fails. -/
theorem exists_read_ofJson : ∀ value : Json, ∃ result, read none (ofJson value) = .ok result
  | .null => ⟨_, rfl⟩
  | .bool _ => ⟨_, rfl⟩
  | .number _ => ⟨_, rfl⟩
  | .text _ => ⟨_, rfl⟩
  | .array items => by
    obtain ⟨values, hvalues⟩ := exists_readItems_ofItems items
    exact ⟨.array values, by simp [ofJson, read, enter_none, hvalues, Ending.check]⟩
  | .object fields => by
    obtain ⟨result, hresult⟩ := exists_readEntries_ofFields fields []
    exact ⟨.object result, by simp [ofJson, read, enter_none, hresult, Ending.check]⟩

theorem exists_readItems_ofItems : ∀ items : List Json,
    ∃ values, readItems none (ofItems items) = .ok values
  | [] => ⟨_, rfl⟩
  | item :: items => by
    obtain ⟨value, hvalue⟩ := exists_read_ofJson item
    obtain ⟨values, hvalues⟩ := exists_readItems_ofItems items
    exact ⟨value :: values, by simp [ofItems, readItems, hvalue, hvalues]⟩

theorem exists_readEntries_ofFields : ∀ fields before : Fields,
    ∃ result, readEntries none (ofFields fields) before = .ok result
  | [], _ => ⟨_, rfl⟩
  | (name, value) :: fields, before => by
    obtain ⟨found, hfound⟩ := exists_read_ofJson value
    obtain ⟨result, hresult⟩ := exists_readEntries_ofFields fields (Fields.insert name found before)
    refine ⟨result, ?_⟩
    simp only [ofFields, readEntries, hfound, ok_bind]
    exact hresult

end

/-! ### What reading gives -/

mutual

/-- What is read has distinct names. -/
theorem wellNamed_read : ∀ (draft : Draft) {room : Option Nat} {value : Json},
    read room draft = .ok value → value.WellNamed
  | .null, _, _, h | .bool _, _, _, h | .number _, _, _, h | .text _, _, _, h => by
    cases h
    trivial
  | .unreadable, _, _, h | .broken _ _ _, _, _, h => by cases h
  | .array items ending, room, value, h => by
    obtain ⟨inner, -, h⟩ := bind_eq_ok.mp h
    obtain ⟨values, hvalues, h⟩ := bind_eq_ok.mp h
    obtain ⟨-, -, h⟩ := bind_eq_ok.mp h
    cases h
    exact Json.wellNamed_array.mpr (wellNamed_readItems items hvalues)
  | .object entries ending, room, value, h => by
    obtain ⟨inner, -, h⟩ := bind_eq_ok.mp h
    obtain ⟨fields, hfields, h⟩ := bind_eq_ok.mp h
    obtain ⟨-, -, h⟩ := bind_eq_ok.mp h
    cases h
    exact wellNamed_readEntries entries Json.wellNamed_object_nil hfields

theorem wellNamed_readItems : ∀ (items : List Draft) {room : Option Nat} {values : List Json},
    readItems room items = .ok values → ∀ value ∈ values, value.WellNamed
  | [], _, _, h => by
    cases h
    exact fun _ hmem => absurd hmem List.not_mem_nil
  | item :: items, room, values, h => by
    obtain ⟨value, hvalue, h⟩ := bind_eq_ok.mp h
    obtain ⟨rest, hrest, h⟩ := bind_eq_ok.mp h
    cases h
    exact List.forall_mem_cons.mpr ⟨wellNamed_read item hvalue, wellNamed_readItems items hrest⟩

theorem wellNamed_readEntries : ∀ (entries : List (Option String × Draft)) {room : Option Nat}
    {before fields : Fields}, (Json.object before).WellNamed →
    readEntries room entries before = .ok fields → (Json.object fields).WellNamed
  | [], _, _, _, hbefore, h => by
    cases h
    exact hbefore
  | (none, _) :: _, _, _, _, _, h => by cases h
  | (some name, draft) :: entries, room, before, fields, hbefore, h => by
    obtain ⟨value, hvalue, h⟩ := bind_eq_ok.mp h
    exact wellNamed_readEntries entries
      (Fields.wellNamed_insert hbefore (wellNamed_read draft hvalue)) h

end

/-- Only `null` reads as `null`. -/
theorem eq_null_of_read {room : Option Nat} {draft : Draft} (h : read room draft = .ok .null) :
    draft = .null := by
  cases draft with
  | null => rfl
  | bool b => cases h
  | number n => cases h
  | text s => cases h
  | unreadable => cases h
  | broken fault skipped named => cases h
  | array items ending =>
    obtain ⟨inner, -, h⟩ := bind_eq_ok.mp h
    obtain ⟨values, -, h⟩ := bind_eq_ok.mp h
    obtain ⟨-, -, h⟩ := bind_eq_ok.mp h
    cases h
  | object entries ending =>
    obtain ⟨inner, -, h⟩ := bind_eq_ok.mp h
    obtain ⟨fields, -, h⟩ := bind_eq_ok.mp h
    obtain ⟨-, -, h⟩ := bind_eq_ok.mp h
    cases h

end Draft

end ViewTree
