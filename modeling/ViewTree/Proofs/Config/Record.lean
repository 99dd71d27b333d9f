import ViewTree.Config.Decode
import ViewTree.Config.Encode
import ViewTree.Proofs.Json.Reading

/-!
# Reading records

Two ways to know what reading a record gives.

* `Keeps.readObject`, `Keeps.readArray`: what holds of the empty record and is kept by every field
  holds of any record that is read.
* `Reads.readObject`: an object whose entries are given piece by piece is read piece by piece.
  This is about values, which have no faults and no limit on their nesting (`Source.Settled`).
-/

namespace ViewTree

/-! ### Sources -/

namespace Decode

variable {α : Type}

theorem lift_eq_ok {result : Except Fault α} {a : α} : lift result = .ok a ↔ result = .ok a := by
  cases result with
  | error fault => exact ⟨fun h => (nomatch h), fun h => (nomatch h)⟩
  | ok b => simp [lift, Except.mapError]

@[simp] theorem lift_ok (a : α) : lift (.ok a) = .ok a := rfl

theorem wrongType_ne_ok {draft : Draft} {wanted : String} {a : α} :
    (wrongType draft wanted : Decode α) ≠ .ok a := by
  unfold wrongType
  split
  · nofun
  · split <;> nofun

end Decode

namespace Source

variable {source : Source} {draft : Draft} {value : Json}

/-- Where a source that is no text being read has no limit on nesting. -/
structure Settled (source : Source) : Prop where
  origin : source.origin ≠ .text
  room : source.room = none

theorem settled_ofValue : ofValue.Settled := ⟨by decide, rfl⟩

theorem settled_ofCollected : ofCollected.Settled := ⟨by decide, rfl⟩

theorem Settled.enter (h : source.Settled) : source.enter = .ok source := by
  obtain ⟨origin, room⟩ := source
  obtain rfl : room = none := h.room
  rfl

theorem Settled.skip (h : source.Settled) : source.skip draft = .ok () := by
  rw [Source.skip, if_neg h.origin]
  rfl

theorem Settled.read (h : source.Settled) (hvalue : value.WellNamed) :
    source.read (.ofJson value) = .ok value := by
  rw [Source.read, h.room, Draft.read_ofJson value hvalue, Decode.lift_ok]

theorem Settled.exists_read (h : source.Settled) (value : Json) :
    ∃ result, source.read (.ofJson value) = .ok result := by
  obtain ⟨result, hresult⟩ := Draft.exists_read_ofJson value
  exact ⟨result, by rw [Source.read, h.room, hresult, Decode.lift_ok]⟩

end Source

variable {α β : Type}

theorem FieldRule.fill_ofSlot {γ : Type} {name : String} {required : Bool} {slot : α → Option γ}
    {put : γ → α → α} {f : Source → β → Decode γ} {source : Source} {given : β}
    {record result : α} :
    (ofSlot name required slot put f).fill source given record = .ok result ↔
      ∃ value, f source given = .ok value ∧ put value record = result := by
  refine bind_eq_ok.trans ?_
  simp

/-- Reading a field keeps a property of the record, when the field is given as one of some
things. -/
def FieldRule.Keeps (field : FieldRule α β) (given : β → Prop) (holds : α → Prop) : Prop :=
  ∀ (source : Source) (b : β) (record result : α), given b → holds record →
    field.fill source b record = .ok result → holds result

theorem FieldRule.keeps_ofSlot {γ : Type} {name : String} {required : Bool} {slot : α → Option γ}
    {put : γ → α → α} {f : Source → β → Decode γ} {given : β → Prop} {holds : α → Prop}
    (h : ∀ {source b record value}, given b → holds record → f source b = .ok value →
      holds (put value record)) : (ofSlot name required slot put f).Keeps given holds := by
  intro source b record result hb hrecord hfill
  obtain ⟨value, hvalue, rfl⟩ := FieldRule.fill_ofSlot.mp hfill
  exact h hb hrecord hvalue

namespace RecordRule

variable {rule : RecordRule α β} {source : Source} {ending : Ending} {record result empty : α}

/-! ### What every field keeps -/

/-- Every field keeps a property of the record. -/
def Keeps (rule : RecordRule α β) (given : β → Prop) (holds : α → Prop) : Prop :=
  ∀ field ∈ rule.fields, field.Keeps given holds

section Keeps

variable {given : β → Prop} {holds : α → Prop}

theorem Keeps.readEntries (h : rule.Keeps given holds)
    {entries : List (Option String × Draft × β)} (hgiven : ∀ entry ∈ entries, given entry.2.2)
    (hrecord : holds record) (hread : rule.readEntries source entries record = .ok result) :
    holds result := by
  induction entries generalizing record with
  | nil =>
    cases hread
    exact hrecord
  | cons entry entries ih =>
    obtain ⟨name, draft, b⟩ := entry
    obtain ⟨hb, hrest⟩ := List.forall_mem_cons.mp hgiven
    cases name with
    | none => cases hread
    | some name =>
      rw [RecordRule.readEntries] at hread
      split at hread
      · obtain ⟨-, -, hread⟩ := bind_eq_ok.mp hread
        exact ih hrest hrecord hread
      · rename_i field hfield
        split at hread
        · cases hread
        · obtain ⟨next, hfill, hread⟩ := bind_eq_ok.mp hread
          exact ih hrest (h field (List.mem_of_find?_eq_some hfield) _ _ _ _ hb hrecord hfill) hread

theorem Keeps.readItems (h : rule.Keeps given holds) {fields : List (FieldRule α β)}
    (hfields : fields ⊆ rule.fields) {items rest : List (Draft × β)}
    (hgiven : ∀ item ∈ items, given item.2) (hrecord : holds record)
    (hread : rule.readItems source ending fields items record = .ok (rest, result)) :
    holds result := by
  induction fields generalizing items record with
  | nil =>
    cases items <;>
    · cases hread
      exact hrecord
  | cons field fields ih =>
    obtain ⟨hfield, hfields⟩ := List.cons_subset.mp hfields
    cases items with
    | nil =>
      obtain ⟨-, -, hread⟩ := bind_eq_ok.mp hread
      split at hread
      · cases hread
      · exact ih hfields hgiven hrecord hread
    | cons item items =>
      obtain ⟨hitem, hitems⟩ := List.forall_mem_cons.mp hgiven
      obtain ⟨next, hfill, hread⟩ := bind_eq_ok.mp hread
      exact ih hfields hitems (h field hfield _ _ _ _ hitem hrecord hfill) hread

/-- What every field keeps holds of a record that is read from an object. -/
theorem Keeps.readObject (h : rule.Keeps given holds)
    {entries : List (Option String × Draft × β)} (hgiven : ∀ entry ∈ entries, given entry.2.2)
    (hempty : holds empty) (hread : rule.readObject source entries ending empty = .ok result) :
    holds result := by
  obtain ⟨inner, -, hread⟩ := bind_eq_ok.mp hread
  obtain ⟨record, hentries, hread⟩ := bind_eq_ok.mp hread
  obtain ⟨-, -, hread⟩ := bind_eq_ok.mp hread
  obtain ⟨-, -, hread⟩ := bind_eq_ok.mp hread
  cases hread
  exact h.readEntries hgiven hempty hentries

/-- What every field keeps holds of a record that is read from an array. -/
theorem Keeps.readArray (h : rule.Keeps given holds) {items : List (Draft × β)}
    (hgiven : ∀ item ∈ items, given item.2) (hempty : holds empty)
    (hread : rule.readArray source items ending empty = .ok result) : holds result := by
  obtain ⟨inner, -, hread⟩ := bind_eq_ok.mp hread
  obtain ⟨⟨rest, record⟩, hitems, hread⟩ := bind_eq_ok.mp hread
  obtain ⟨-, -, hread⟩ := bind_eq_ok.mp hread
  cases hread
  exact h.readItems (List.Subset.refl _) hgiven hempty hitems

theorem Keeps.read {rule : RecordRule α Draft} (h : rule.Keeps (fun _ => True) holds)
    {draft : Draft} (hempty : holds empty) (hread : rule.read source draft empty = .ok result) :
    holds result := by
  cases draft with
  | object entries ending => exact h.readObject (fun _ _ => trivial) hempty hread
  | array items ending => exact h.readArray (fun _ _ => trivial) hempty hread
  | _ =>
    unfold RecordRule.read RecordRule.refuse at hread
    exact absurd hread Decode.wrongType_ne_ok

end Keeps

/-! ### Piece by piece -/

/-- The entries of an object without faults, given as `give` says. -/
def entriesOf (give : Draft → β) (fields : Fields) : List (Option String × Draft × β) :=
  fields.map fun entry => (some entry.1, .ofJson entry.2, give (.ofJson entry.2))

theorem entriesOf_ofFields (fields : Fields) :
    ((Draft.ofFields fields).map fun entry => (entry.1, entry.2, entry.2))
      = entriesOf id fields := by
  rw [Draft.ofFields_eq_map, List.map_map]
  rfl

/-- These fields take one record to another. -/
def Reads (rule : RecordRule α β) (source : Source) (give : Draft → β) (fields : Fields)
    (record result : α) : Prop :=
  rule.readEntries source (entriesOf give fields) record = .ok result

variable {give : Draft → β} {fields more : Fields}

theorem readEntries_append (before after : List (Option String × Draft × β)) (record : α) :
    rule.readEntries source (before ++ after) record
      = rule.readEntries source before record >>= rule.readEntries source after := by
  induction before generalizing record with
  | nil => rfl
  | cons entry before ih =>
    obtain ⟨name, draft, b⟩ := entry
    cases name with
    | none => rfl
    | some name =>
      rw [List.cons_append, readEntries, readEntries]
      cases rule.field? name with
      | none =>
        dsimp only
        rw [bind_assoc]
        simp only [ih]
      | some field =>
        dsimp only
        split
        · rfl
        · rw [bind_assoc]
          simp only [ih]

theorem Reads.append {middle : α} (h : rule.Reads source give fields record middle)
    (hmore : rule.Reads source give more middle result) :
    rule.Reads source give (fields ++ more) record result := by
  unfold Reads entriesOf at *
  rw [List.map_append, readEntries_append, h]
  exact hmore

section

variable {γ : Type} {name : String} {required : Bool} {slot : α → Option γ} {put : γ → α → α}
  {f : Source → β → Decode γ} {value : Json}

/-- A field that is there fills its slot. -/
theorem reads_one {found : γ} (hfield : rule.field? name = some (.ofSlot name required slot put f))
    (hslot : slot record = none) (hread : f source (give (.ofJson value)) = .ok found)
    (hresult : put found record = result) :
    rule.Reads source give [(name, value)] record result := by
  subst hresult
  have hopen : (FieldRule.ofSlot name required slot put f).filled record = false := by
    show (slot record).isSome = false
    rw [hslot]
    rfl
  have hfill : (FieldRule.ofSlot name required slot put f).fill source (give (.ofJson value)) record
      = .ok (put found record) := FieldRule.fill_ofSlot.mpr ⟨found, hread, rfl⟩
  simp only [Reads, entriesOf, List.map_cons, List.map_nil, readEntries, hfield, hopen, hfill,
    ok_bind, Bool.false_eq_true, if_false, pure_eq_ok]

/-- A field that is left out under a condition. -/
theorem reads_unless {c : Prop} [Decidable c] {found : γ}
    (hfield : rule.field? name = some (.ofSlot name required slot put f))
    (hslot : slot record = none) (hread : ¬c → f source (give (.ofJson value)) = .ok found)
    (hresult : (if c then record else put found record) = result) :
    rule.Reads source give (if c then [] else [(name, value)]) record result := by
  by_cases hc : c
  · rw [if_pos hc] at hresult ⊢
    exact congrArg Except.ok hresult
  · rw [if_neg hc] at hresult ⊢
    exact reads_one hfield hslot (hread hc) hresult

end

/-- A field that may be left out, and holds something when it is there. -/
theorem reads_option {γ : Type} {name : String} {required : Bool} {slot : α → Option (Option γ)}
    {put : Option γ → α → α} {f : Source → β → Decode (Option γ)} {encode : γ → Json}
    {value : Option γ} (hfield : rule.field? name = some (.ofSlot name required slot put f))
    (hslot : slot record = none)
    (hread : ∀ x ∈ value, f source (give (.ofJson (encode x))) = .ok (some x))
    (hresult : value.elim record (fun x => put (some x) record) = result) :
    rule.Reads source give (optionalField name (value.map encode)) record result := by
  cases value with
  | none => exact congrArg Except.ok hresult
  | some x => exact reads_one hfield hslot (hread x rfl) hresult

theorem Reads.readObject (h : rule.Reads source give fields empty result)
    (hsource : source.Settled) (hfilled : requireFilled result rule.fields = .ok ()) :
    rule.readObject source (entriesOf give fields) .closed empty = .ok result := by
  rw [Reads] at h
  simp [RecordRule.readObject, hsource.enter, h, hfilled, Ending.check]

end RecordRule

end ViewTree
