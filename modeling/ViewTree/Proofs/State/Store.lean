import ViewTree.Proofs.State.Path
import ViewTree.State.Store

/-!
# Reading the state after a write

The laws of `Proofs/State/Path` for dotted paths and the store.  A write of `null` is a removal, so
each law about `set` covers both.

The keys that accompany a key (`loadingKey`, `errorKey`) stand beside it: their paths have its
segments but for the last one (`exists_split_append`), so the three are apart.
-/

namespace ViewTree

namespace Path

/-- The segments of a dotted path. -/
def split (path : String) : List String := (ofString path).segments

/-- One of two dotted paths is the other one or leads to it. -/
def Comparable (p q : String) : Prop := split p <+: split q ∨ split q <+: split p

instance (p q : String) : Decidable (Comparable p q) := inferInstanceAs (Decidable (_ ∨ _))

theorem apart_of_not_comparable {p q : String} (h : ¬ Comparable p q) :
    Apart (split p) (split q) :=
  not_or.mp h

theorem Comparable.symm {p q : String} (h : Comparable p q) : Comparable q p := Or.symm h

theorem pieces_ne_nil (sep : Char) (cs : List Char) : Text.pieces sep cs ≠ [] := by
  cases cs with
  | nil => simp [Text.pieces]
  | cons c cs =>
    rw [Text.pieces]
    split
    · simp
    · split <;> simp

theorem split_eq_map (path : String) :
    split path = (Text.pieces '.' path.toList).map String.ofList := by
  unfold split ofString
  split
  · rename_i h
    exact absurd (List.map_eq_nil_iff.mp h) (pieces_ne_nil _ _)
  · rename_i h
    exact h.symm

theorem pieces_cons_self (sep : Char) (cs : List Char) :
    Text.pieces sep (sep :: cs) = [] :: Text.pieces sep cs := by
  rw [Text.pieces, if_pos rfl]

theorem pieces_cons_of_ne {sep c : Char} {cs piece : List Char} {rest : List (List Char)}
    (h : c ≠ sep) (hcs : Text.pieces sep cs = piece :: rest) :
    Text.pieces sep (c :: cs) = (c :: piece) :: rest := by
  rw [Text.pieces, if_neg h, hcs]

/-- What follows a text without a separator in it goes to the last piece. -/
theorem exists_pieces_append (sep : Char) (cs : List Char) :
    ∃ init last, Text.pieces sep cs = init ++ [last] ∧
      ∀ ds, sep ∉ ds → Text.pieces sep (cs ++ ds) = init ++ [last ++ ds] := by
  induction cs with
  | nil =>
    refine ⟨[], [], rfl, ?_⟩
    intro ds hds
    induction ds with
    | nil => rfl
    | cons d ds ih =>
      obtain ⟨hd, hds⟩ := not_or.mp (List.mem_cons.not.mp hds)
      exact pieces_cons_of_ne (Ne.symm hd) (ih hds)
  | cons c cs ih =>
    obtain ⟨init, last, hcs, happ⟩ := ih
    by_cases hc : c = sep
    · subst hc
      refine ⟨[] :: init, last, ?_, ?_⟩
      · rw [pieces_cons_self, hcs, List.cons_append]
      · intro ds hds
        rw [List.cons_append, pieces_cons_self, happ ds hds, List.cons_append]
    · -- The character goes to the first piece, which may be the last one.
      cases init with
      | nil =>
        refine ⟨[], c :: last, pieces_cons_of_ne hc hcs, ?_⟩
        intro ds hds
        exact pieces_cons_of_ne hc (happ ds hds)
      | cons piece init =>
        refine ⟨(c :: piece) :: init, last, pieces_cons_of_ne hc hcs, ?_⟩
        intro ds hds
        exact pieces_cons_of_ne hc (happ ds hds)

/-- The paths of a key and of the keys beside it differ in their last segments only. -/
theorem exists_split_append (key : String) :
    ∃ init last, split key = init ++ [last] ∧
      ∀ suffix : String, '.' ∉ suffix.toList →
        split (key ++ suffix) = init ++ [last ++ suffix] := by
  obtain ⟨init, last, hkey, happ⟩ := exists_pieces_append '.' key.toList
  refine ⟨init.map String.ofList, String.ofList last, ?_, ?_⟩
  · rw [split_eq_map, hkey, List.map_append]
    rfl
  · intro suffix hs
    have hlast : String.ofList (last ++ suffix.toList) = String.ofList last ++ suffix := by
      rw [String.ofList_append, String.ofList_toList]
    rw [split_eq_map, String.toList_append, happ _ hs, List.map_append, List.map_cons, hlast]
    rfl

theorem append_ne_self {s suffix : String} (h : suffix ≠ "") : s ++ suffix ≠ s := by
  intro he
  have hl := congrArg String.length he
  rw [String.length_append] at hl
  exact h (String.length_eq_zero_iff.mp (by omega))

end Path

open ViewTree.Path Json

namespace Store

variable {store : Store} {path other : String} {value : Json}

/-! ### What leads to a dotted path -/

/-- Every object in the state has distinct names. -/
def Distinct (store : Store) : Prop := store.toJson.Distinct

/-- Whatever the state holds at a path that leads to this one is an object. -/
def Open (store : Store) (path : String) : Prop :=
  ∀ lead, lead <+: split path → lead ≠ split path →
    ∀ value, walk? lead store.toJson = some value → ∃ inner, value = .object inner

/-- The objects on the way to a path have distinct names. -/
def DistinctAlong (store : Store) (path : String) : Prop :=
  Fields.DistinctAlong (split path) store.fields

/-- Whatever there is on the way to a path is an object. -/
def OpenAlong (store : Store) (path : String) : Prop :=
  Fields.OpenAlong (split path) store.fields

/-- Objects lead all the way to a path. -/
def ObjectsAlong (store : Store) (path : String) : Prop :=
  Fields.ObjectsAlong (split path) store.fields

theorem distinctAlong_of_distinct : ∀ {p : List String} {fields : Fields},
    (Json.object fields).Distinct → Fields.DistinctAlong p fields
  | [], _, _ => trivial
  | name :: _, _, h =>
    have ⟨hd, hin⟩ := distinct_object_iff.mp h
    ⟨hd, fun _ hobj => distinctAlong_of_distinct (hin name _ hobj)⟩

theorem Distinct.along (h : store.Distinct) (path : String) : store.DistinctAlong path :=
  distinctAlong_of_distinct h

theorem openAlong_of_walk? : ∀ {p : List String} {fields : Fields},
    (∀ lead, lead <+: p → lead ≠ p → ∀ value, walk? lead (.object fields) = some value →
      ∃ inner, value = .object inner) → Fields.OpenAlong p fields
  | [], _, _ => trivial
  | [_], _, _ => trivial
  | name :: next :: rest, fields, h => fun value hv => by
    -- The first segment leads to the path by itself.
    obtain ⟨inner, rfl⟩ := h [name] (List.cons_prefix_cons.mpr ⟨rfl, List.nil_prefix⟩) (by simp)
      value (by rw [Fields.walk?_object_cons, hv]; rfl)
    refine ⟨inner, rfl, openAlong_of_walk? ?_⟩
    intro lead hl hne value hw
    exact h (name :: lead) (List.cons_prefix_cons.mpr ⟨rfl, hl⟩)
      (fun he => hne (List.cons.inj he).2) value
      (by rw [Fields.walk?_object_cons, hv, Option.bind_some, hw])

theorem walk?_of_openAlong : ∀ {lead p : List String} {fields : Fields},
    Fields.OpenAlong p fields → lead <+: p → lead ≠ p →
      ∀ value, walk? lead (.object fields) = some value → ∃ inner, value = .object inner
  | [], _, fields, _, _, _ => fun _ hv => ⟨fields, (Option.some.inj hv).symm⟩
  | _ :: _, [], _, _, hl, _ => absurd (List.prefix_nil.mp hl) (by simp)
  | a :: lead, [b], _, _, hl, hne => by
    obtain ⟨hab, htail⟩ := List.cons_prefix_cons.mp hl
    exact absurd (by rw [hab, List.prefix_nil.mp htail]) hne
  | a :: lead, b :: c :: p, _, h, hl, hne => fun value hv => by
    obtain ⟨hab, htail⟩ := List.cons_prefix_cons.mp hl
    rw [Fields.walk?_object_cons, hab] at hv
    obtain ⟨found, hf, hv⟩ := Option.bind_eq_some_iff.mp hv
    obtain ⟨inner, rfl, hin⟩ := h found hf
    exact walk?_of_openAlong hin htail (fun he => hne (by rw [hab, he])) value hv

theorem open_iff_openAlong : store.Open path ↔ store.OpenAlong path :=
  ⟨openAlong_of_walk?, fun h _ hl hne => walk?_of_openAlong h hl hne⟩

theorem distinctAlong_empty (path : String) : Store.empty.DistinctAlong path :=
  Fields.distinctAlong_nil _

theorem ObjectsAlong.openAlong (h : store.ObjectsAlong path) : store.OpenAlong path :=
  Fields.ObjectsAlong.openAlong h

/-! ### What a write does to the entries -/

theorem get?_eq_walk? (store : Store) (path : String) :
    store.get? path = walk? (split path) (.object store.fields) := rfl

theorem fields_set (hv : value ≠ .null) : (store.set path value).fields
    = Fields.write value (ofString path).head (ofString path).rest store.fields := by
  cases value with
  | null => exact absurd rfl hv
  | _ => rfl

theorem fields_remove (store : Store) (path : String) : (store.remove path).2.fields
    = Fields.remove (ofString path).head (ofString path).rest store.fields := by
  have h : (store.remove path).2.fields =
      if Fields.removable (ofString path).head (ofString path).rest store.fields then
        Fields.remove (ofString path).head (ofString path).rest store.fields
      else store.fields := rfl
  rw [h]
  cases hr : Fields.removable (ofString path).head (ofString path).rest store.fields with
  | true => rfl
  | false => exact (Fields.remove_of_not_removable hr).symm

theorem setAll_append (store : Store) (first second : List (String × Json)) :
    store.setAll (first ++ second) = (store.setAll first).setAll second :=
  List.foldl_append

theorem distinct_empty : Store.empty.Distinct :=
  distinct_object_iff.mpr ⟨Fields.distinct_nil, fun _ _ hv => nomatch hv⟩

/-- Removals and writes of values with distinct names keep the names in the state distinct. -/
theorem Distinct.remove (h : store.Distinct) (path : String) : (store.remove path).2.Distinct := by
  rw [Distinct, toJson, fields_remove]
  exact Json.Distinct.remove h

theorem Distinct.set (h : store.Distinct) (hv : value.Distinct) (path : String) :
    (store.set path value).Distinct := by
  by_cases hn : value = .null
  · subst hn
    exact h.remove path
  · rw [Distinct, toJson, fields_set hn]
    exact Json.Distinct.write h hv

/-! ### Reading the path that was written -/

theorem get?_set_self (hv : value ≠ .null) : (store.set path value).get? path = some value := by
  rw [get?_eq_walk?, fields_set hv]
  exact Fields.walk?_write_self

theorem get?_remove_self (hopen : store.OpenAlong path) (hd : store.DistinctAlong path) :
    (store.remove path).2.get? path = none := by
  rw [get?_eq_walk?, fields_remove]
  exact Fields.walk?_remove_self hopen hd

/-! ### Reading another path -/

theorem get?_remove_of_apart (hap : ¬ Comparable path other) (hd : store.DistinctAlong other) :
    (store.remove path).2.get? other = store.get? other := by
  rw [get?_eq_walk?, get?_eq_walk?, fields_remove]
  exact Fields.walk?_remove_of_apart (apart_of_not_comparable hap) hd

/-- A write changes no path apart from its own, when only objects are in the way of its own. -/
theorem get?_set_of_open (hap : ¬ Comparable path other) (hopen : store.OpenAlong path)
    (hd : store.DistinctAlong other) :
    (store.set path value).get? other = store.get? other := by
  by_cases hv : value = .null
  · subst hv
    exact get?_remove_of_apart hap hd
  · rw [get?_eq_walk?, get?_eq_walk?, fields_set hv]
    exact Fields.walk?_write_of_open (apart_of_not_comparable hap) hopen

/-- A write changes no path apart from its own that objects lead to. -/
theorem get?_set_of_objects (hap : ¬ Comparable path other) (hobj : store.ObjectsAlong other)
    (hd : store.DistinctAlong other) :
    (store.set path value).get? other = store.get? other := by
  by_cases hv : value = .null
  · subst hv
    exact get?_remove_of_apart hap hd
  · rw [get?_eq_walk?, get?_eq_walk?, fields_set hv]
    have hap := apart_of_not_comparable hap
    exact Fields.walk?_write_of_shared hap (Fields.ObjectsAlong.sharedAlong hobj hap)

/-! ### What leads to a path after a write -/

theorem distinctAlong_remove (h : store.DistinctAlong other) :
    (store.remove path).2.DistinctAlong other := by
  rw [DistinctAlong, fields_remove]
  exact Fields.distinctAlong_remove h

theorem distinctAlong_set (hend : split path <+: split other → split path = split other)
    (h : store.DistinctAlong other) : (store.set path value).DistinctAlong other := by
  by_cases hv : value = .null
  · subst hv
    exact distinctAlong_remove h
  · rw [DistinctAlong, fields_set hv]
    exact Fields.distinctAlong_write hend h

/-- A write beside a path keeps the names there distinct, whatever value it brings. -/
theorem distinctAlong_set_of_apart (hap : ¬ Comparable path other)
    (h : store.DistinctAlong other) : (store.set path value).DistinctAlong other := by
  refine distinctAlong_set ?_ h
  intro hprefix
  exact absurd (Or.inl hprefix) hap

theorem openAlong_remove (hd : store.DistinctAlong other) (h : store.OpenAlong other) :
    (store.remove path).2.OpenAlong other := by
  rw [OpenAlong, fields_remove]
  exact Fields.openAlong_remove hd h

theorem openAlong_set (hend : split path <+: split other → split path = split other)
    (hd : store.DistinctAlong other) (h : store.OpenAlong other) :
    (store.set path value).OpenAlong other := by
  by_cases hv : value = .null
  · subst hv
    exact openAlong_remove hd h
  · rw [OpenAlong, fields_set hv]
    exact Fields.openAlong_write hend h

theorem objectsAlong_set_self (hv : value ≠ .null) : (store.set path value).ObjectsAlong path := by
  rw [ObjectsAlong, fields_set hv]
  exact Fields.objectsAlong_write

theorem objectsAlong_remove_of_apart (hap : ¬ Comparable path other)
    (hd : store.DistinctAlong other) (h : store.ObjectsAlong other) :
    (store.remove path).2.ObjectsAlong other := by
  rw [ObjectsAlong, fields_remove]
  exact Fields.objectsAlong_remove_of_apart (apart_of_not_comparable hap) hd h

theorem objectsAlong_set_of_apart (hap : ¬ Comparable path other)
    (hd : store.DistinctAlong other) (h : store.ObjectsAlong other) :
    (store.set path value).ObjectsAlong other := by
  by_cases hv : value = .null
  · subst hv
    exact objectsAlong_remove_of_apart hap hd h
  · rw [ObjectsAlong, fields_set hv]
    exact Fields.objectsAlong_write_of_objects
      (fun hp => absurd hp (apart_of_not_comparable hap).1) h

end Store

/-! ### A key and the keys beside it -/

/-- Some paths that stand beside one another: their segments agree but for the last ones, which
differ. -/
def Path.Beside (p q : String) : Prop :=
  ∃ init x y, split p = init ++ [x] ∧ split q = init ++ [y] ∧ x ≠ y

namespace Path.Beside

variable {p q : String} {store : Store}

theorem symm (h : Beside p q) : Beside q p := by
  obtain ⟨init, x, y, hp, hq, hne⟩ := h
  exact ⟨init, y, x, hq, hp, hne.symm⟩

theorem not_comparable (h : Beside p q) : ¬ Comparable p q := by
  obtain ⟨init, x, y, hp, hq, hne⟩ := h
  rw [Comparable, hp, hq, not_or]
  exact apart_concat hne

theorem openAlong (h : Beside p q) (hopen : store.OpenAlong p) : store.OpenAlong q := by
  obtain ⟨init, x, y, hp, hq, -⟩ := h
  rw [Store.OpenAlong, hp] at hopen
  rw [Store.OpenAlong, hq]
  exact Fields.openAlong_concat hopen

theorem distinctAlong (h : Beside p q) (hd : store.DistinctAlong p) : store.DistinctAlong q := by
  obtain ⟨init, x, y, hp, hq, -⟩ := h
  rw [Store.DistinctAlong, hp] at hd
  rw [Store.DistinctAlong, hq]
  exact Fields.distinctAlong_concat hd

end Path.Beside

theorem beside_loadingKey (key : String) : Path.Beside key (loadingKey key) := by
  obtain ⟨init, last, hkey, happ⟩ := Path.exists_split_append key
  exact ⟨init, last, _, hkey, happ _ (by decide), (Path.append_ne_self (by decide)).symm⟩

theorem beside_errorKey (key : String) : Path.Beside key (errorKey key) := by
  obtain ⟨init, last, hkey, happ⟩ := Path.exists_split_append key
  exact ⟨init, last, _, hkey, happ _ (by decide), (Path.append_ne_self (by decide)).symm⟩

theorem beside_loadingKey_errorKey (key : String) :
    Path.Beside (loadingKey key) (errorKey key) := by
  obtain ⟨init, last, -, happ⟩ := Path.exists_split_append key
  -- Their last segments end with suffixes of different lengths.
  refine ⟨init, _, _, happ _ (by decide), happ _ (by decide), ?_⟩
  intro he
  have hl := congrArg String.length he
  simp only [String.length_append, Nat.add_left_cancel_iff] at hl
  exact absurd hl (by decide)

end ViewTree
