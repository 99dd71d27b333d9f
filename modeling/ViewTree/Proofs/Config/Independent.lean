import Mathlib.Data.List.Pairwise
import ViewTree.Proofs.Config.Record

/-!
# Independent fields

An object is read field by field, in whatever order its entries stand
(`RecordRule.readObject_eq_ok`).  This takes the fields to be independent of each other
(`RecordRule.Lawful`), and the source to be a value, which has no faults and no limit on its
nesting.
-/

namespace ViewTree

variable {α β : Type}

namespace FieldRule

/-- What a field can do to a record. -/
def Puts (field : FieldRule α β) (put : α → α) : Prop :=
  ∃ source given, ∀ record, field.fill source given record = .ok (put record)

/-- What a field does, or that it fails, does not depend on the record. -/
structure Steady (field : FieldRule α β) : Prop where
  fills : ∀ source given,
    (∃ put : α → α, ∀ record, field.fill source given record = .ok (put record)) ∨
      ∃ error, ∀ record, field.fill source given record = .error error
  filled : ∀ {put : α → α}, field.Puts put → ∀ record, field.filled (put record) = true

/-- Two fields that do not touch one another. -/
structure Apart (one other : FieldRule α β) : Prop where
  name : one.name ≠ other.name
  commute : ∀ {p q : α → α}, one.Puts p → other.Puts q → ∀ record, p (q record) = q (p record)
  keeps : ∀ {p : α → α}, one.Puts p → ∀ record, other.filled (p record) = other.filled record
  kept : ∀ {q : α → α}, other.Puts q → ∀ record, one.filled (q record) = one.filled record

instance : Std.Symm (@Apart α β) where
  symm _ _ h :=
    { name := h.name.symm
      commute := fun hp hq record => (h.commute hq hp record).symm
      keeps := h.kept
      kept := h.keeps }

section

variable {γ δ : Type} {name : String} {required : Bool} {slot : α → Option γ} {put : γ → α → α}
  {f : Source → β → Decode γ} {other : String} {needed : Bool} {place : α → Option δ}
  {lay : δ → α → α} {g : Source → β → Decode δ}

theorem puts_ofSlot {p : α → α} (h : (ofSlot name required slot put f).Puts p) (record : α) :
    ∃ value, p = put value := by
  obtain ⟨source, given, hfill⟩ := h
  obtain ⟨value, hvalue, -⟩ := fill_ofSlot.mp (hfill record)
  refine ⟨value, funext fun record => ?_⟩
  obtain ⟨same, hsame, hput⟩ := fill_ofSlot.mp (hfill record)
  rw [← hput, Except.ok.inj (hsame.symm.trans hvalue)]

theorem steady_ofSlot (h : ∀ value record, slot (put value record) = some value) :
    (ofSlot name required slot put f).Steady := by
  refine ⟨?_, ?_⟩
  · intro source given
    cases hread : f source given with
    | error error =>
      refine .inr ⟨error, fun record => ?_⟩
      simp [ofSlot, hread]
    | ok value => exact .inl ⟨put value, fun record => fill_ofSlot.mpr ⟨value, hread, rfl⟩⟩
  · intro p hp record
    obtain ⟨value, rfl⟩ := puts_ofSlot hp record
    show (slot (put value record)).isSome = true
    rw [h]
    rfl

theorem apart_ofSlot (hname : name ≠ other)
    (hcommute : ∀ x y record, put x (lay y record) = lay y (put x record))
    (hkeeps : ∀ x record, place (put x record) = place record)
    (hkept : ∀ y record, slot (lay y record) = slot record) :
    Apart (ofSlot name required slot put f) (ofSlot other needed place lay g) := by
  refine ⟨hname, ?_, ?_, ?_⟩
  · intro p q hp hq record
    obtain ⟨x, rfl⟩ := puts_ofSlot hp record
    obtain ⟨y, rfl⟩ := puts_ofSlot hq record
    exact hcommute x y record
  · intro p hp record
    obtain ⟨x, rfl⟩ := puts_ofSlot hp record
    exact congrArg Option.isSome (hkeeps x record)
  · intro q hq record
    obtain ⟨y, rfl⟩ := puts_ofSlot hq record
    exact congrArg Option.isSome (hkept y record)

end

/-- What a field makes of a record when it is given, or is not. -/
def take (field : FieldRule α β) (source : Source) (given : Option β) (record : α) : Decode α :=
  match given with
  | some given => field.fill source given record
  | none =>
    if field.required && !field.filled record then .fail (.missingField field.name)
    else return record

end FieldRule

namespace RecordRule

/-- The fields of a record one after another, each given by its name. -/
def gather (source : Source) (given : String → Option β) :
    List (FieldRule α β) → α → Decode α
  | [], record => return record
  | field :: fields, record => do
    let record ← field.take source (given field.name) record
    gather source given fields record

/-- Fields that are independent of each other. -/
structure Lawful (rule : RecordRule α β) : Prop where
  steady : ∀ field ∈ rule.fields, field.Steady
  apart : rule.fields.Pairwise FieldRule.Apart

variable {source : Source} {given other : String → Option β} {record result : α}
  {field : FieldRule α β} {fields : List (FieldRule α β)} {put : α → α}

theorem gather_congr (h : ∀ field ∈ fields, given field.name = other field.name) :
    gather source given fields record = gather source other fields record := by
  induction fields generalizing record with
  | nil => rfl
  | cons field fields ih =>
    obtain ⟨hfield, hfields⟩ := List.forall_mem_cons.mp h
    simp only [gather, hfield, ih hfields]

/-- With nothing given, what is required must be there already. -/
theorem gather_none (fields : List (FieldRule α β)) :
    gather source (fun _ => none) fields record = .ok result ↔
      requireFilled record fields = .ok () ∧ record = result := by
  induction fields with
  | nil => simp [gather, requireFilled]
  | cons field fields ih =>
    rw [gather, FieldRule.take, requireFilled]
    split
    · exact ⟨fun h => (nomatch h), fun h => (nomatch h.1)⟩
    · exact ih

/-- A field that cannot be read makes the record fail. -/
theorem gather_ne_ok {b : β} {error : DecodeError} (hmem : field ∈ fields)
    (hgiven : given field.name = some b)
    (hfill : ∀ record, field.fill source b record = .error error) :
    gather source given fields record ≠ .ok result := by
  induction fields generalizing record with
  | nil => exact absurd hmem List.not_mem_nil
  | cons first fields ih =>
    intro h
    obtain ⟨next, htake, h⟩ := bind_eq_ok.mp h
    rcases List.mem_cons.mp hmem with rfl | hmem
    · rw [hgiven] at htake
      exact absurd ((hfill record).symm.trans htake) nofun
    · exact ih hmem h

/-- What a field puts does not matter to the fields apart from it. -/
theorem take_put {first : FieldRule α β} (source : Source) (b : Option β) (record : α)
    (hput : field.Puts put) (hsteady : first.Steady) (hapart : first.Apart field) :
    (∃ error, first.take source b record = .error error ∧
        first.take source b (put record) = .error error) ∨
      ∃ next, first.take source b record = .ok next ∧
        first.take source b (put record) = .ok (put next) := by
  cases b with
  | none =>
    have hfilled : first.filled (put record) = first.filled record :=
      hapart.kept hput record
    rw [FieldRule.take, FieldRule.take, hfilled]
    split
    · exact .inl ⟨_, rfl, rfl⟩
    · exact .inr ⟨record, rfl, rfl⟩
  | some b =>
    rcases hsteady.fills source b with ⟨p, hp⟩ | ⟨error, herror⟩
    · have hcommute : p (put record) = put (p record) :=
        hapart.commute ⟨source, b, hp⟩ hput record
      exact .inr ⟨p record, hp record, hcommute ▸ hp (put record)⟩
    · exact .inl ⟨error, herror record, herror (put record)⟩

theorem take_none (hrequired : field.required = false) :
    field.take source none record = .ok record := by
  rw [FieldRule.take, hrequired, Bool.false_and, if_neg Bool.false_ne_true]
  rfl

/-- What a field puts may as well be put after the other fields have been read. -/
theorem gather_put (hput : field.Puts put) (hsteady : ∀ first ∈ fields, first.Steady)
    (hapart : ∀ first ∈ fields,
      first.Apart field ∨ first.required = false ∧ given first.name = none) :
    gather source given fields (put record) = .ok result ↔
      ∃ last, gather source given fields record = .ok last ∧ put last = result := by
  induction fields generalizing record with
  | nil => simp [gather]
  | cons first fields ih =>
    obtain ⟨hfirst, hrest⟩ := List.forall_mem_cons.mp hsteady
    obtain ⟨hfirstApart, hrestApart⟩ := List.forall_mem_cons.mp hapart
    simp only [gather]
    rcases hfirstApart with hfirstApart | ⟨hrequired, hnone⟩
    · rcases take_put source (given first.name) record hput hfirst hfirstApart with
        ⟨error, htake, hafter⟩ | ⟨next, htake, hafter⟩
      · rw [htake, hafter]
        exact ⟨fun h => (nomatch h), fun ⟨_, h, _⟩ => (nomatch h)⟩
      · rw [htake, hafter]
        exact ih hrest hrestApart
    · rw [hnone, take_none hrequired, take_none hrequired]
      exact ih hrest hrestApart

/-- A field that is given may as well be put first. -/
theorem gather_given {b : β} (hsteady : ∀ first ∈ fields, first.Steady)
    (hapart : fields.Pairwise FieldRule.Apart) (hmem : field ∈ fields)
    (hgiven : given field.name = some b) (hother : other field.name = none)
    (hagree : ∀ name, name ≠ field.name → given name = other name)
    (hfill : ∀ record, field.fill source b record = .ok (put record)) :
    gather source given fields record = gather source other fields (put record) := by
  have hput : field.Puts put := ⟨source, b, hfill⟩
  induction fields generalizing record with
  | nil => exact absurd hmem List.not_mem_nil
  | cons first fields ih =>
    obtain ⟨hfirst, hrest⟩ := List.forall_mem_cons.mp hsteady
    obtain ⟨hfirstApart, hrestApart⟩ := List.pairwise_cons.mp hapart
    rcases List.mem_cons.mp hmem with rfl | hmem
    · -- The field itself: it is read now, and found to be filled later.
      have htake : field.take source (other field.name) (put record) = .ok (put record) := by
        rw [hother, FieldRule.take, hfirst.filled hput, Bool.not_true, Bool.and_false,
          if_neg Bool.false_ne_true]
        rfl
      have hrestNames : ∀ next ∈ fields, given next.name = other next.name := fun next hnext =>
        hagree _ (Ne.symm (hfirstApart next hnext).name)
      rw [gather, gather, htake, hgiven, FieldRule.take, hfill, ok_bind, ok_bind]
      exact gather_congr hrestNames
    · have hne : first.name ≠ field.name := (hfirstApart field hmem).name
      rw [gather, gather, hagree _ hne]
      rcases take_put source (other first.name) record hput hfirst (hfirstApart field hmem) with
        ⟨error, htake, hafter⟩ | ⟨next, htake, hafter⟩
      · rw [htake, hafter]
        rfl
      · rw [htake, hafter]
        exact ih hrest hrestApart hmem

section Entries

variable {rule : RecordRule α β} {give : Draft → β} {entries : Fields}

theorem field?_eq_some {name : String} (h : rule.field? name = some field) :
    field ∈ rule.fields ∧ field.name = name :=
  ⟨List.mem_of_find?_eq_some h, by simpa using List.find?_some h⟩

theorem ne_of_field?_eq_none {name : String} (h : rule.field? name = none) :
    ∀ field ∈ rule.fields, field.name ≠ name := by
  intro field hmem
  simpa using List.find?_eq_none.mp h field hmem

/-- What the entries of an object give for a name. -/
def givenIn (give : Draft → β) (entries : Fields) (name : String) : Option β :=
  (Fields.get? name entries).map fun value => give (.ofJson value)

/-- Entries of distinct names are read field by field. -/
theorem readEntries_eq_ok (hrule : rule.Lawful) (hsource : source.Settled)
    (hd : Fields.Distinct entries)
    (hopen : ∀ field ∈ rule.fields, field.name ∈ Fields.names entries →
      field.filled record = false) :
    (rule.readEntries source (entriesOf give entries) record = .ok result ∧
        requireFilled result rule.fields = .ok ()) ↔
      gather source (givenIn give entries) rule.fields record = .ok result := by
  induction entries generalizing record with
  | nil =>
    have hgiven : givenIn give [] = fun _ => none := rfl
    have hread : rule.readEntries source (entriesOf give []) record = .ok result ↔
        record = result := ⟨Except.ok.inj, congrArg Except.ok⟩
    rw [hgiven, gather_none, hread, and_comm]
    exact and_congr_left fun heq => by rw [heq]
  | cons entry entries ih =>
    obtain ⟨name, value⟩ := entry
    obtain ⟨hnew, hrest⟩ := Fields.distinct_cons.mp hd
    have hagree : ∀ other, other ≠ name →
        givenIn give ((name, value) :: entries) other = givenIn give entries other := by
      intro other hne
      simp only [givenIn, Fields.get?_cons, if_neg hne.symm]
    have hself : givenIn give ((name, value) :: entries) name = some (give (.ofJson value)) := by
      simp only [givenIn, Fields.get?_cons, if_pos, Option.map_some]
    have hnone : givenIn give entries name = none := by
      rw [givenIn, Fields.get?_eq_none_iff.mpr hnew, Option.map_none]
    simp only [entriesOf, List.map_cons, readEntries]
    cases hfield : rule.field? name with
    | none =>
      -- The entry belongs to no field.
      have hnames := ne_of_field?_eq_none hfield
      have hcongr : gather source (givenIn give ((name, value) :: entries)) rule.fields record
          = gather source (givenIn give entries) rule.fields record :=
        gather_congr fun field hmem => hagree _ (hnames field hmem)
      simp only [hsource.skip, ok_bind]
      rw [hcongr]
      exact ih hrest fun field hmem hname => hopen field hmem (List.mem_cons_of_mem _ hname)
    | some field =>
      obtain ⟨hmem, rfl⟩ := field?_eq_some hfield
      simp only [hopen field hmem List.mem_cons_self, Bool.false_eq_true, if_false]
      rcases (hrule.steady field hmem).fills source (give (.ofJson value)) with
        ⟨put, hput⟩ | ⟨error, herror⟩
      · have hopen' : ∀ other ∈ rule.fields, other.name ∈ Fields.names entries →
            other.filled (put record) = false := by
          intro other hother hname
          have hne : field ≠ other := fun he => hnew (he ▸ hname)
          have hputs : field.Puts put := ⟨source, give (.ofJson value), hput⟩
          have hapart : field.Apart other :=
            hrule.apart.forall hmem hother hne
          have hkeep : other.filled (put record) = other.filled record :=
            hapart.keeps hputs record
          rw [hkeep]
          exact hopen other hother (List.mem_cons_of_mem _ hname)
        rw [hput, ok_bind, gather_given hrule.steady hrule.apart hmem hself hnone hagree hput]
        exact ih hrest hopen'
      · rw [herror]
        constructor
        · rintro ⟨h, -⟩
          cases h
        · intro h
          exact absurd h (gather_ne_ok hmem hself herror)

/-- An object of distinct names is read field by field. -/
theorem readObject_eq_ok {empty : α} (hrule : rule.Lawful) (hsource : source.Settled)
    (hd : Fields.Distinct entries) (hopen : ∀ field ∈ rule.fields, field.filled empty = false) :
    rule.readObject source (entriesOf give entries) .closed empty = .ok result ↔
      gather source (givenIn give entries) rule.fields empty = .ok result := by
  rw [← readEntries_eq_ok hrule hsource hd fun field hmem _ => hopen field hmem]
  simp only [RecordRule.readObject, hsource.enter, ok_bind, Ending.check, Decode.lift_ok]
  constructor
  · intro h
    obtain ⟨record, hrecord, h⟩ := bind_eq_ok.mp h
    obtain ⟨⟨⟩, hfilled, h⟩ := bind_eq_ok.mp h
    cases h
    exact ⟨hrecord, hfilled⟩
  · rintro ⟨hrecord, hfilled⟩
    rw [hrecord, ok_bind, hfilled]
    rfl

end Entries

end RecordRule

end ViewTree
