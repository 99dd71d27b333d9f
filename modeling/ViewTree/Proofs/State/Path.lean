import ViewTree.Proofs.State.Fields

/-!
# Reading after writing along paths

What `Json.walk?` finds in an object after `Fields.write` and `Fields.remove`, for paths given by
their segments.

* At the path that was written the value is found, whatever stood in the way
  (`walk?_write_append`); a removed path is absent, when only objects stood in its way
  (`walk?_remove_self`).
* A path apart from the one that was written reads as before, when objects lead as far as the two
  go together (`walk?_write_of_shared`); in particular when nothing but objects is in the way of
  either path.  Otherwise the write goes on in a fresh object, and the path finds nothing
  (`walk?_write_of_not_shared`).

Removing needs the objects along a path to have distinct names (`DistinctAlong`).  Nothing but the
way to a path is ever asked about, so that nothing need be known of the values that were written.
-/

namespace ViewTree

namespace Path

/-- Neither of two lists of segments begins with the other. -/
def Apart (p q : List String) : Prop := ¬ p <+: q ∧ ¬ q <+: p

theorem Apart.symm {p q : List String} (h : Apart p q) : Apart q p := ⟨h.2, h.1⟩

theorem not_apart_nil_left (q : List String) : ¬ Apart [] q := fun h => h.1 List.nil_prefix

theorem not_apart_nil_right (p : List String) : ¬ Apart p [] := fun h => h.2 List.nil_prefix

theorem apart_cons_iff {a b : String} {p q : List String} :
    Apart (a :: p) (b :: q) ↔ (a = b → Apart p q) := by
  by_cases h : a = b
  · subst h
    simp [Apart, List.cons_prefix_cons]
  · simp [Apart, List.cons_prefix_cons, h, Ne.symm h]

/-- Two paths that differ in nothing but their last segments are apart. -/
theorem apart_concat {init : List String} {x y : String} (h : x ≠ y) :
    Apart (init ++ [x]) (init ++ [y]) := by
  induction init with
  | nil => exact apart_cons_iff.mpr fun he => absurd he h
  | cons a init ih => exact apart_cons_iff.mpr fun _ => ih

end Path

open ViewTree.Path Json

namespace Fields

/-! ### What leads to a path -/

/-- The objects on the way to a path have distinct names. -/
def DistinctAlong : List String → Fields → Prop
  | [], _ => True
  | name :: rest, fields =>
    Distinct fields ∧ ∀ inner, get? name fields = some (.object inner) → DistinctAlong rest inner

/-- Whatever there is on the way to a path is an object. -/
def OpenAlong : List String → Fields → Prop
  | name :: next :: rest, fields =>
    ∀ value, get? name fields = some value → ∃ inner, value = .object inner ∧
      OpenAlong (next :: rest) inner
  | _, _ => True

/-- Objects lead all the way to a path. -/
def ObjectsAlong : List String → Fields → Prop
  | name :: next :: rest, fields =>
    ∃ inner, get? name fields = some (.object inner) ∧ ObjectsAlong (next :: rest) inner
  | _, _ => True

/-- Objects lead as far as two paths go together. -/
def SharedAlong : List String → List String → Fields → Prop
  | a :: p, b :: q, fields =>
    a = b → ∃ inner, get? a fields = some (.object inner) ∧ SharedAlong p q inner
  | _, _, _ => True

/-- The object a write goes on in: the one under a name, or a fresh one. -/
def inside (name : String) (fields : Fields) : Fields :=
  ((get? name fields).map fieldsOrNone).getD []

variable {name next : String} {rest p q : List String} {value : Json} {fields inner : Fields}

theorem walk?_object_cons : walk? (name :: rest) (.object fields)
    = (get? name fields).bind (walk? rest) := rfl

theorem walk?_object_nil : walk? (name :: rest) (.object []) = none := rfl

theorem write_nil : write value name [] fields = insert name value fields := rfl

theorem write_cons : write value name (next :: rest) fields
    = insert name (.object (write value next rest (inside name fields))) fields := rfl

theorem inside_of_object (h : get? name fields = some (.object inner)) :
    inside name fields = inner := by
  simp [inside, h, fieldsOrNone, Json.fields?]

/-- The inside of a name is the object there is, or it is empty. -/
theorem inside_cases (name : String) (fields : Fields) :
    get? name fields = some (.object (inside name fields)) ∨
      ((∀ inner, get? name fields ≠ some (.object inner)) ∧ inside name fields = []) := by
  cases h : get? name fields with
  | none => exact Or.inr ⟨by simp, by simp [inside, h]⟩
  | some found =>
    cases found with
    | object inner => exact Or.inl (by rw [inside_of_object h])
    | _ => exact Or.inr ⟨by simp, by simp [inside, h, fieldsOrNone, Json.fields?]⟩

theorem distinctAlong_nil : ∀ p, DistinctAlong p []
  | [] => trivial
  | _ :: _ => ⟨distinct_nil, fun _ h => nomatch h⟩

theorem openAlong_nil : ∀ p, OpenAlong p []
  | [] => trivial
  | [_] => trivial
  | _ :: _ :: _ => fun _ h => nomatch h

theorem DistinctAlong.inside (h : DistinctAlong (name :: rest) fields) :
    DistinctAlong rest (inside name fields) := by
  rcases inside_cases name fields with hin | ⟨-, hin⟩
  · exact h.2 _ hin
  · rw [hin]
    exact distinctAlong_nil rest

theorem OpenAlong.inside (h : OpenAlong (name :: next :: rest) fields) :
    OpenAlong (next :: rest) (inside name fields) := by
  rcases inside_cases name fields with hin | ⟨-, hin⟩
  · obtain ⟨_, he, hopen⟩ := h _ hin
    rwa [Json.object.inj he]
  · rw [hin]
    exact openAlong_nil _

/-- Where no object goes on, a path that only objects are in the way of finds nothing. -/
theorem OpenAlong.get?_eq_none (h : OpenAlong (name :: next :: rest) fields)
    (hnone : ∀ inner, get? name fields ≠ some (.object inner)) : get? name fields = none := by
  cases hfound : get? name fields with
  | none => rfl
  | some found =>
    obtain ⟨inner, hobj, -⟩ := h found hfound
    exact absurd (hobj ▸ hfound) (hnone inner)

theorem ObjectsAlong.openAlong : ∀ {p : List String} {fields : Fields},
    ObjectsAlong p fields → OpenAlong p fields
  | [], _, _ => trivial
  | [_], _, _ => trivial
  | _ :: _ :: _, _, ⟨inner, hin, h⟩ => fun _ hv => by
    rw [hin] at hv
    exact ⟨inner, (Option.some.inj hv).symm, h.openAlong⟩

/-- Along a path that objects lead to, objects lead as far as it goes with any path apart. -/
theorem ObjectsAlong.sharedAlong : ∀ {p q : List String} {fields : Fields},
    ObjectsAlong q fields → Apart p q → SharedAlong p q fields
  | [], _, _, _, _ => trivial
  | _ :: _, [], _, _, _ => trivial
  | _ :: p, [_], _, _, hap => fun he => absurd (apart_cons_iff.mp hap he) (not_apart_nil_right p)
  | _ :: _, _ :: _ :: _, _, ⟨inner, hin, h⟩, hap => fun he =>
    ⟨inner, by rw [he, hin], h.sharedAlong (apart_cons_iff.mp hap he)⟩

/-- Objects lead as far as two paths go together when each path that leads to both is one of an
object. -/
theorem sharedAlong_iff : SharedAlong p q fields ↔
    ∀ lead, lead ≠ [] → lead <+: p → lead <+: q →
      ∃ inner, walk? lead (.object fields) = some (.object inner) := by
  induction p generalizing q fields with
  | nil => exact iff_of_true trivial fun lead hne hp _ => absurd (List.prefix_nil.mp hp) hne
  | cons a p ih =>
    cases q with
    | nil => exact iff_of_true trivial fun lead hne _ hq => absurd (List.prefix_nil.mp hq) hne
    | cons b q =>
      constructor
      · intro h lead hne hp hq
        obtain ⟨c, lead, rfl⟩ := List.exists_cons_of_ne_nil hne
        obtain ⟨rfl, hp'⟩ := List.cons_prefix_cons.mp hp
        obtain ⟨rfl, hq'⟩ := List.cons_prefix_cons.mp hq
        obtain ⟨inner, hin, hrest⟩ := h rfl
        rw [walk?_object_cons, hin, Option.bind_some]
        by_cases hlead : lead = []
        · exact ⟨inner, by rw [hlead]; rfl⟩
        · exact ih.mp hrest lead hlead hp' hq'
      · rintro h rfl
        have hname : ∀ {lead}, lead <+: p → lead <+: q →
            ∃ inner, walk? (a :: lead) (.object fields) = some (.object inner) := by
          intro lead hp hq
          exact h (a :: lead) (by simp) (List.cons_prefix_cons.mpr ⟨rfl, hp⟩)
            (List.cons_prefix_cons.mpr ⟨rfl, hq⟩)
        -- The first segment leads to an object, in which the longer leads go on.
        obtain ⟨inner, hin⟩ := hname List.nil_prefix List.nil_prefix
        obtain ⟨value, hvalue, hobj⟩ := Option.bind_eq_some_iff.mp hin
        obtain rfl := Option.some.inj hobj
        refine ⟨inner, hvalue, ih.mpr ?_⟩
        intro lead _ hp hq
        obtain ⟨found, hfound⟩ := hname hp hq
        rw [walk?, hvalue, Option.bind_some] at hfound
        exact ⟨found, hfound⟩

/-- What is in the way of a path does not depend on its last segment. -/
theorem openAlong_concat : ∀ {init : List String} {x y : String} {fields : Fields},
    OpenAlong (init ++ [x]) fields → OpenAlong (init ++ [y]) fields
  | [], _, _, _, _ => trivial
  | [_], _, _, _, h => fun v hv => by
    obtain ⟨inner, he, -⟩ := h v hv
    exact ⟨inner, he, trivial⟩
  | _ :: b :: init, _, _, _, h => fun v hv => by
    obtain ⟨inner, he, hin⟩ := h v hv
    have htail : OpenAlong ((b :: init) ++ [_]) inner := hin
    exact ⟨inner, he, openAlong_concat htail⟩

theorem distinctAlong_concat : ∀ {init : List String} {x y : String} {fields : Fields},
    DistinctAlong (init ++ [x]) fields → DistinctAlong (init ++ [y]) fields
  | [], _, _, _, h => ⟨h.1, fun _ _ => trivial⟩
  | _ :: _, _, _, _, h => ⟨h.1, fun inner hin => distinctAlong_concat (h.2 inner hin)⟩

/-! ### After a write -/

/-- At the path that was written, and beyond, the value is found. -/
theorem walk?_write_append (beyond : List String) :
    walk? (name :: rest ++ beyond) (.object (write value name rest fields))
      = walk? beyond value := by
  induction rest generalizing name fields with
  | nil => rw [List.cons_append, walk?_object_cons, write_nil, get?_insert_self]; rfl
  | cons next rest ih =>
    rw [List.cons_append, walk?_object_cons, write_cons, get?_insert_self, Option.bind_some,
      ih]

theorem walk?_write_self :
    walk? (name :: rest) (.object (write value name rest fields)) = some value := by
  have h : walk? (name :: rest ++ []) (.object (write value name rest fields)) = some value :=
    walk?_write_append []
  rwa [List.append_nil] at h

/-- A path apart from the one that was written reads as before, when objects lead as far as the two
go together. -/
theorem walk?_write_of_shared (hap : Apart (name :: rest) q)
    (hsh : SharedAlong (name :: rest) q fields) :
    walk? q (.object (write value name rest fields)) = walk? q (.object fields) := by
  induction rest generalizing name fields q with
  | nil =>
    cases q with
    | nil => exact absurd hap (not_apart_nil_right _)
    | cons b q =>
      have hne : b ≠ name := fun he =>
        not_apart_nil_left q (apart_cons_iff.mp hap he.symm)
      rw [walk?_object_cons, walk?_object_cons, write_nil, get?_insert_of_ne hne]
  | cons next rest ih =>
    cases q with
    | nil => exact absurd hap (not_apart_nil_right _)
    | cons b q =>
      rw [walk?_object_cons, walk?_object_cons, write_cons]
      by_cases he : b = name
      · -- Both paths go on in the object that the write goes on in.
        subst he
        obtain ⟨inner, hin, hsh⟩ := hsh rfl
        rw [get?_insert_self, inside_of_object hin, hin, Option.bind_some, Option.bind_some]
        exact ih (apart_cons_iff.mp hap rfl) hsh
      · rw [get?_insert_of_ne he]

/-- A path apart from the one that was written reads as before, when only objects stand in the way
of the latter: where objects end, neither the old nor the new state has anything. -/
theorem walk?_write_of_open (hap : Apart (name :: rest) q)
    (hopen : OpenAlong (name :: rest) fields) :
    walk? q (.object (write value name rest fields)) = walk? q (.object fields) := by
  induction rest generalizing name fields q with
  | nil =>
    refine walk?_write_of_shared hap ?_
    cases q with
    | nil => trivial
    | cons b q => exact fun he => absurd (apart_cons_iff.mp hap he) (not_apart_nil_left q)
  | cons next rest ih =>
    cases q with
    | nil => exact absurd hap (not_apart_nil_right _)
    | cons b q =>
      rw [walk?_object_cons, walk?_object_cons, write_cons]
      by_cases he : b = name
      · subst he
        have hap' := apart_cons_iff.mp hap rfl
        rw [get?_insert_self, Option.bind_some, ih hap' hopen.inside]
        rcases inside_cases b fields with hin | ⟨hnone, hin⟩
        · rw [hin, Option.bind_some]
        · -- The write goes on in a fresh object, where there was nothing to find before.
          cases q with
          | nil => exact absurd hap' (not_apart_nil_right _)
          | cons c q =>
            rw [hin, walk?_object_nil, hopen.get?_eq_none hnone]
            rfl
      · rw [get?_insert_of_ne he]

/-- A path apart from the one that was written is absent, when objects do not lead as far as the two
go together: from there on the write goes on in a fresh object. -/
theorem walk?_write_of_not_shared (hap : Apart (name :: rest) q)
    (hsh : ¬ SharedAlong (name :: rest) q fields) :
    walk? q (.object (write value name rest fields)) = none := by
  induction rest generalizing name fields q with
  | nil =>
    cases q with
    | nil => exact absurd trivial hsh
    | cons b q =>
      refine absurd (fun he => ?_) hsh
      exact absurd (apart_cons_iff.mp hap he) (not_apart_nil_left q)
  | cons next rest ih =>
    cases q with
    | nil => exact absurd trivial hsh
    | cons b q =>
      by_cases he : name = b
      · subst he
        have hap' := apart_cons_iff.mp hap rfl
        rw [walk?_object_cons, write_cons, get?_insert_self, Option.bind_some]
        rcases inside_cases name fields with hin | ⟨-, hin⟩
        · exact ih hap' fun h => hsh fun _ => ⟨_, hin, h⟩
        · cases q with
          | nil => exact absurd hap' (not_apart_nil_right _)
          | cons c q => rw [hin, walk?_write_of_open hap' (openAlong_nil _), walk?_object_nil]
      · exact absurd (fun h => absurd h he) hsh

/-- A path that does not end on the way to another one does not do so after a common segment. -/
theorem endsClear_tail (h : name :: rest <+: name :: q → name :: rest = name :: q) :
    rest <+: q → rest = q := by
  intro hprefix
  have heq := h (List.cons_prefix_cons.mpr ⟨rfl, hprefix⟩)
  exact (List.cons.inj heq).2

/-- A single segment that a path does not begin with, when it does not end on the way to it. -/
theorem ne_of_endsClear (h : [name] <+: next :: p → [name] = next :: p) (hp : p ≠ []) :
    next ≠ name := by
  rintro rfl
  have heq := h (List.cons_prefix_cons.mpr ⟨rfl, List.nil_prefix⟩)
  exact hp (List.cons.inj heq).2.symm

/-- Objects lead to a path that was written. -/
theorem objectsAlong_write : ObjectsAlong (name :: rest) (write value name rest fields) := by
  induction rest generalizing name fields with
  | nil => trivial
  | cons next rest ih =>
    exact ⟨_, by rw [write_cons, get?_insert_self], ih⟩

/-- What leads to a path that was written is an object. -/
theorem walk?_write_lead {lead : List String} (hlead : lead <+: name :: rest)
    (hne : lead ≠ name :: rest) :
    ∃ inner, walk? lead (.object (write value name rest fields)) = some (.object inner) := by
  induction rest generalizing name fields lead with
  | nil =>
    rcases List.prefix_cons_iff.mp hlead with rfl | ⟨lead, rfl, hnil⟩
    · exact ⟨_, rfl⟩
    · exact absurd (congrArg _ (List.prefix_nil.mp hnil)) hne
  | cons next rest ih =>
    rcases List.prefix_cons_iff.mp hlead with rfl | ⟨lead, rfl, hrest⟩
    · exact ⟨_, rfl⟩
    · rw [walk?_object_cons, write_cons, get?_insert_self, Option.bind_some]
      exact ih hrest fun h => hne (congrArg _ h)

/-- A write that does not end on the way to a path leaves the objects that lead there. -/
theorem objectsAlong_write_of_objects (hend : name :: rest <+: q → name :: rest = q)
    (h : ObjectsAlong q fields) : ObjectsAlong q (write value name rest fields) := by
  induction rest generalizing name fields q with
  | nil =>
    match q, h with
    | [], _ => trivial
    | [_], _ => trivial
    | a :: b :: q, ⟨inner, hin, h⟩ =>
      have hne : a ≠ name := ne_of_endsClear hend (by simp)
      exact ⟨inner, by rw [write_nil, get?_insert_of_ne hne, hin], h⟩
  | cons next rest ih =>
    match q, h with
    | [], _ => trivial
    | [_], _ => trivial
    | a :: b :: q, ⟨inner, hin, h⟩ =>
      by_cases he : a = name
      · -- The write keeps to the object there is, instead of a fresh one.
        subst he
        refine ⟨_, by rw [write_cons, get?_insert_self], ?_⟩
        rw [inside_of_object hin]
        exact ih (endsClear_tail hend) h
      · exact ⟨inner, by rw [write_cons, get?_insert_of_ne he, hin], h⟩

/-- A write that does not end on the way to a path puts nothing but objects there. -/
theorem openAlong_write (hend : name :: rest <+: q → name :: rest = q)
    (h : OpenAlong q fields) : OpenAlong q (write value name rest fields) := by
  induction rest generalizing name fields q with
  | nil =>
    match q, h with
    | [], _ => trivial
    | [_], _ => trivial
    | a :: b :: q, h =>
      have hne : a ≠ name := ne_of_endsClear hend (by simp)
      intro v hv
      rw [write_nil, get?_insert_of_ne hne] at hv
      exact h v hv
  | cons next rest ih =>
    match q, h with
    | [], _ => trivial
    | [_], _ => trivial
    | a :: b :: q, h =>
      intro v hv
      by_cases he : a = name
      · subst he
        rw [write_cons, get?_insert_self] at hv
        exact ⟨_, (Option.some.inj hv).symm, ih (endsClear_tail hend) h.inside⟩
      · rw [write_cons, get?_insert_of_ne he] at hv
        exact h v hv

/-- A write that does not end on the way to a path keeps the names there distinct. -/
theorem distinctAlong_write (hend : name :: rest <+: q → name :: rest = q)
    (h : DistinctAlong q fields) : DistinctAlong q (write value name rest fields) := by
  induction rest generalizing name fields q with
  | nil =>
    cases q with
    | nil => trivial
    | cons a q =>
      refine ⟨distinct_insert h.1, ?_⟩
      intro inner hin
      by_cases he : a = name
      · -- The two paths are one, and nothing is asked about what it leads to.
        have hpre := hend (he ▸ List.cons_prefix_cons.mpr ⟨rfl, List.nil_prefix⟩)
        rw [← (List.cons.inj hpre).2]
        trivial
      · rw [write_nil, get?_insert_of_ne he] at hin
        exact h.2 inner hin
  | cons next rest ih =>
    cases q with
    | nil => trivial
    | cons a q =>
      refine ⟨distinct_insert h.1, ?_⟩
      intro inner hin
      by_cases he : a = name
      · subst he
        rw [write_cons, get?_insert_self] at hin
        rw [← Json.object.inj (Option.some.inj hin)]
        exact ih (endsClear_tail hend) h.inside
      · rw [write_cons, get?_insert_of_ne he] at hin
        exact h.2 inner hin

/-! ### After a removal -/

theorem remove_nil : remove name [] fields = erase name fields := rfl

theorem remove_cons_of_object (hin : get? name fields = some (.object inner)) :
    remove name (next :: rest) fields
      = insert name (.object (remove next rest inner)) fields := by
  simp only [remove, hin]

theorem remove_cons_of_not_object (hin : ∀ inner, get? name fields ≠ some (.object inner)) :
    remove name (next :: rest) fields = fields := by
  rw [remove]
  split
  · exact absurd ‹_› (hin _)
  · rfl

/-- Writing what is there already changes nothing. -/
theorem insert_of_get? (h : get? name fields = some value) : insert name value fields = fields := by
  induction fields with
  | nil => cases h
  | cons entry fields ih =>
    obtain ⟨key, old⟩ := entry
    rw [get?_cons] at h
    rw [insert]
    by_cases he : key = name
    · rw [if_pos he] at h ⊢
      rw [Option.some.inj h]
    · rw [if_neg he] at h ⊢
      rw [ih h]

/-- Erasing what is not there changes nothing. -/
theorem erase_of_get? (h : get? name fields = none) : erase name fields = fields := by
  induction fields with
  | nil => rfl
  | cons entry fields ih =>
    obtain ⟨key, old⟩ := entry
    rw [get?_cons] at h
    rw [erase]
    by_cases he : key = name
    · rw [if_pos he] at h
      cases h
    · rw [if_neg he] at h ⊢
      rw [ih h]

/-- A removal that finds nothing changes nothing. -/
theorem remove_of_not_removable (h : removable name rest fields = false) :
    remove name rest fields = fields := by
  -- A removal puts back what it has left of each object on its way.
  induction rest generalizing name fields with
  | nil =>
    refine erase_of_get? ?_
    rwa [removable, has, Option.isSome_eq_false_iff, Option.isNone_iff_eq_none] at h
  | cons next rest ih =>
    rcases inside_cases name fields with hin | ⟨hnone, -⟩
    · rw [remove_cons_of_object hin]
      simp only [removable, hin] at h
      rw [ih h, insert_of_get? hin]
    · exact remove_cons_of_not_object hnone

/-- A path apart from the one that was removed reads as before. -/
theorem walk?_remove_of_apart (hap : Apart (name :: rest) q) (hd : DistinctAlong q fields) :
    walk? q (.object (remove name rest fields)) = walk? q (.object fields) := by
  induction rest generalizing name fields q with
  | nil =>
    cases q with
    | nil => exact absurd hap (not_apart_nil_right _)
    | cons b q =>
      have hne : b ≠ name := fun he =>
        not_apart_nil_left q (apart_cons_iff.mp hap he.symm)
      rw [walk?_object_cons, walk?_object_cons, remove_nil, get?_erase hd.1, if_neg hne]
  | cons next rest ih =>
    cases q with
    | nil => exact absurd hap (not_apart_nil_right _)
    | cons b q =>
      rcases inside_cases name fields with hin | ⟨hnone, -⟩
      · rw [remove_cons_of_object hin, walk?_object_cons, walk?_object_cons]
        by_cases he : b = name
        · subst he
          rw [get?_insert_self, hin, Option.bind_some, Option.bind_some]
          exact ih (apart_cons_iff.mp hap rfl) (hd.2 _ hin)
        · rw [get?_insert_of_ne he]
      · rw [remove_cons_of_not_object hnone]

/-- A removed path is absent, when only objects stood in its way. -/
theorem walk?_remove_self (hopen : OpenAlong (name :: rest) fields)
    (hd : DistinctAlong (name :: rest) fields) :
    walk? (name :: rest) (.object (remove name rest fields)) = none := by
  induction rest generalizing name fields with
  | nil => rw [walk?_object_cons, remove_nil, get?_erase hd.1, if_pos rfl]; rfl
  | cons next rest ih =>
    rcases inside_cases name fields with hin | ⟨hnone, -⟩
    · rw [remove_cons_of_object hin, walk?_object_cons, get?_insert_self, Option.bind_some]
      exact ih hopen.inside (hd.2 _ hin)
    · rw [remove_cons_of_not_object hnone, walk?_object_cons, hopen.get?_eq_none hnone]
      rfl

/-- A removal keeps the names along every path distinct. -/
theorem distinctAlong_remove (h : DistinctAlong q fields) :
    DistinctAlong q (remove name rest fields) := by
  induction rest generalizing name fields q with
  | nil =>
    cases q with
    | nil => trivial
    | cons a q =>
      refine ⟨distinct_erase h.1, ?_⟩
      intro inner hin
      rw [remove_nil, get?_erase h.1] at hin
      by_cases he : a = name
      · rw [if_pos he] at hin
        cases hin
      · rw [if_neg he] at hin
        exact h.2 inner hin
  | cons next rest ih =>
    rcases inside_cases name fields with hobj | ⟨hnone, -⟩
    · rw [remove_cons_of_object hobj]
      cases q with
      | nil => trivial
      | cons a q =>
        refine ⟨distinct_insert h.1, ?_⟩
        intro inner hin
        by_cases he : a = name
        · subst he
          rw [get?_insert_self] at hin
          rw [← Json.object.inj (Option.some.inj hin)]
          exact ih (h.2 _ hobj)
        · rw [get?_insert_of_ne he] at hin
          exact h.2 inner hin
    · rwa [remove_cons_of_not_object hnone]

/-- A removal puts nothing in the way of a path. -/
theorem openAlong_remove (hd : DistinctAlong q fields) (h : OpenAlong q fields) :
    OpenAlong q (remove name rest fields) := by
  induction rest generalizing name fields q with
  | nil =>
    match q, h with
    | [], _ => trivial
    | [_], _ => trivial
    | a :: b :: q, h =>
      intro v hv
      rw [remove_nil, get?_erase hd.1] at hv
      by_cases he : a = name
      · rw [if_pos he] at hv
        cases hv
      · rw [if_neg he] at hv
        exact h v hv
  | cons next rest ih =>
    rcases inside_cases name fields with hobj | ⟨hnone, -⟩
    · rw [remove_cons_of_object hobj]
      match q, h with
      | [], _ => trivial
      | [_], _ => trivial
      | a :: b :: q, h =>
        intro v hv
        by_cases he : a = name
        · subst he
          rw [get?_insert_self] at hv
          obtain ⟨inner, hi, hin⟩ := h _ hobj
          rw [Json.object.inj hi] at hv hobj
          exact ⟨_, (Option.some.inj hv).symm, ih (hd.2 _ hobj) hin⟩
        · rw [get?_insert_of_ne he] at hv
          exact h v hv
    · rwa [remove_cons_of_not_object hnone]

/-- A removal of a path apart leaves the objects that lead to a path. -/
theorem objectsAlong_remove_of_apart (hap : Apart (name :: rest) q) (hd : DistinctAlong q fields)
    (h : ObjectsAlong q fields) : ObjectsAlong q (remove name rest fields) := by
  induction rest generalizing name fields q with
  | nil =>
    match q, h with
    | [], _ => trivial
    | [_], _ => trivial
    | a :: b :: q, ⟨inner, hin, h⟩ =>
      have hne : a ≠ name := fun he =>
        not_apart_nil_left _ (apart_cons_iff.mp hap he.symm)
      exact ⟨inner, by rw [remove_nil, get?_erase hd.1, if_neg hne, hin], h⟩
  | cons next rest ih =>
    rcases inside_cases name fields with hobj | ⟨hnone, -⟩
    · rw [remove_cons_of_object hobj]
      match q, h with
      | [], _ => trivial
      | [_], _ => trivial
      | a :: b :: q, ⟨inner, hin, h⟩ =>
        by_cases he : a = name
        · subst he
          rw [hin] at hobj
          refine ⟨_, get?_insert_self, ?_⟩
          rw [← Json.object.inj (Option.some.inj hobj)]
          exact ih (apart_cons_iff.mp hap rfl) (hd.2 _ hin) h
        · exact ⟨inner, by rw [get?_insert_of_ne he, hin], h⟩
    · rwa [remove_cons_of_not_object hnone]

end Fields

/-! ### Distinct names everywhere -/

namespace Json

/-- Every object inside a value has distinct names, as far as paths lead. -/
def Distinct (value : Json) : Prop :=
  ∀ segments inner, walk? segments value = some (.object inner) → Fields.Distinct inner

variable {name : String} {rest : List String} {value : Json} {fields : Fields}

theorem distinct_object_iff : (Json.object fields).Distinct
    ↔ Fields.Distinct fields ∧ ∀ name value, Fields.get? name fields = some value →
      value.Distinct := by
  constructor
  · intro h
    refine ⟨h [] fields rfl, ?_⟩
    intro name value hv segments inner hw
    exact h (name :: segments) inner (by rw [Fields.walk?_object_cons, hv, Option.bind_some, hw])
  · rintro ⟨hd, hin⟩ segments inner hw
    cases segments with
    | nil =>
      rw [← Json.object.inj (Option.some.inj hw)]
      exact hd
    | cons name segments =>
      rw [Fields.walk?_object_cons] at hw
      obtain ⟨value, hv, hw⟩ := Option.bind_eq_some_iff.mp hw
      exact hin name value hv segments inner hw

/-- A value without parts holds no object. -/
theorem distinct_of_leaf (h : ∀ segment, step? segment value = none)
    (hobj : ∀ fields, value ≠ .object fields) : value.Distinct := by
  intro segments inner hw
  cases segments with
  | nil => exact absurd (Option.some.inj hw) (hobj inner)
  | cons segment segments =>
    rw [walk?, h segment] at hw
    cases hw

theorem distinct_null : Json.null.Distinct :=
  distinct_of_leaf (fun _ => rfl) (fun _ h => nomatch h)

theorem distinct_bool (b : Bool) : (Json.bool b).Distinct :=
  distinct_of_leaf (fun _ => rfl) (fun _ h => nomatch h)

theorem distinct_text (s : String) : (Json.text s).Distinct :=
  distinct_of_leaf (fun _ => rfl) (fun _ h => nomatch h)

theorem Distinct.inside (h : (Json.object fields).Distinct) (name : String) :
    (Json.object (Fields.inside name fields)).Distinct := by
  rcases Fields.inside_cases name fields with hin | ⟨-, hin⟩
  · exact (distinct_object_iff.mp h).2 name _ hin
  · rw [hin]
    exact distinct_object_iff.mpr ⟨Fields.distinct_nil, fun _ _ hv => nomatch hv⟩

theorem Distinct.insert (h : (Json.object fields).Distinct) (hv : value.Distinct)
    (name : String) : (Json.object (Fields.insert name value fields)).Distinct := by
  obtain ⟨hd, hin⟩ := distinct_object_iff.mp h
  refine distinct_object_iff.mpr ⟨Fields.distinct_insert hd, ?_⟩
  intro other found hf
  rw [Fields.get?_insert] at hf
  split at hf
  · rwa [← Option.some.inj hf]
  · exact hin other found hf

theorem Distinct.write (h : (Json.object fields).Distinct) (hv : value.Distinct) :
    (Json.object (Fields.write value name rest fields)).Distinct := by
  induction rest generalizing name fields with
  | nil => exact h.insert hv name
  | cons next rest ih => exact h.insert (ih (h.inside name)) name

theorem Distinct.remove (h : (Json.object fields).Distinct) :
    (Json.object (Fields.remove name rest fields)).Distinct := by
  induction rest generalizing name fields with
  | nil =>
    obtain ⟨hd, hin⟩ := distinct_object_iff.mp h
    refine distinct_object_iff.mpr ⟨Fields.distinct_erase hd, ?_⟩
    intro other found hf
    rw [Fields.remove_nil, Fields.get?_erase hd] at hf
    split at hf
    · cases hf
    · exact hin other found hf
  | cons next rest ih =>
    rcases Fields.inside_cases name fields with hobj | ⟨hnone, -⟩
    · rw [Fields.remove_cons_of_object hobj]
      exact h.insert (ih (h.inside name)) name
    · rwa [Fields.remove_cons_of_not_object hnone]

end Json

end ViewTree
