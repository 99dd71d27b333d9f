import ViewTree.Config.Problem

/-!
# Decoding records

A record is given as an object, by the names of its fields, or as an array, by their order.  A
field may be required or have a default; names that belong to no field are passed over.

The drafts come from a text being read, from a finished value or from entries collected on the
way, and these differ in how much nesting they allow, in what they make of repeated names and in
how they refuse an array that is too long.
-/

namespace ViewTree

/-- Where a draft comes from. -/
inductive Origin where
  /-- A text as it is being read. -/
  | text
  /-- A finished value. -/
  | value
  /-- Entries collected from either before they are decoded. -/
  | collected
deriving DecidableEq, Repr

/-- How drafts are to be decoded: their origin and the room left for nesting. -/
structure Source where
  origin : Origin
  room : Option Nat

namespace Source

/-- A text from its start. -/
def ofText : Source := ⟨.text, some Draft.maxDepth⟩

/-- A finished value. -/
def ofValue : Source := ⟨.value, none⟩

/-- Collected entries. -/
def ofCollected : Source := ⟨.collected, none⟩

/-- The inside of an array or object. -/
def enter (source : Source) : Decode Source := do
  let room ← Decode.lift (Draft.enter source.room)
  return { source with room }

/-- The value of a draft. -/
def read (source : Source) (draft : Draft) : Decode Json :=
  Decode.lift (draft.read source.room)

/-- Passes over a draft nobody wants. -/
def skip (source : Source) (draft : Draft) : Decode Unit :=
  if source.origin = .text then Decode.lift draft.skip else return ()

end Source

/-- A field of a record.  `α` is the record while it is read and `β` what its fields can be given
as. -/
structure FieldRule (α β : Type) where
  name : String
  required : Bool
  /-- Whether the field has been read. -/
  filled : α → Bool
  /-- Reads the field. -/
  fill : Source → β → α → Decode α

/-- A record: its name and its fields in order. -/
structure RecordRule (α β : Type) where
  name : String
  fields : List (FieldRule α β)

namespace RecordRule

variable {α β : Type}

/-- The rule for a field name. -/
def field? (rule : RecordRule α β) (name : String) : Option (FieldRule α β) :=
  rule.fields.find? fun field => field.name == name

/-- Requires the fields that have no default. -/
def requireFilled (record : α) : List (FieldRule α β) → Decode Unit
  | [] => return ()
  | field :: fields =>
    if field.required && !field.filled record then .fail (.missingField field.name)
    else requireFilled record fields

/-- Reads the entries of an object into a record. -/
def readEntries (rule : RecordRule α β) (source : Source) :
    List (Option String × Draft × β) → α → Decode α
  | [], record => return record
  | (none, _) :: _, _ => .error (.text .malformed)
  | (some name, draft, given) :: entries, record =>
    match rule.field? name with
    | none => do
      source.skip draft
      rule.readEntries source entries record
    | some field =>
      if field.filled record then .fail (.duplicateField name)
      else do
        let record ← field.fill source given record
        rule.readEntries source entries record

/-- How many elements a record takes. -/
def elements (rule : RecordRule α β) : String :=
  "struct " ++ rule.name ++ " with " ++ toString rule.fields.length ++ " elements"

/-- Refuses what is left of an array when all fields are read. -/
def requireEnd (rule : RecordRule α β) (source : Source) (length : Nat) (rest : List (Draft × β))
    (ending : Ending) : Decode Unit :=
  match rest with
  | [] => .lift ending.checkLast
  | _ :: _ =>
    match source.origin with
    | .text => .error (.text .malformed)
    | .value => .fail (.wrongLength length "fewer elements in array")
    | .collected =>
      .fail (.wrongLength length (toString rule.fields.length ++ " elements in sequence"))

/-- Reads the items of an array into a record, field by field.  A missing item leaves a field at
its default. -/
def readItems (rule : RecordRule α β) (source : Source) (ending : Ending) :
    List (FieldRule α β) → List (Draft × β) → α → Decode (List (Draft × β) × α)
  | [], items, record => return (items, record)
  | field :: fields, (_, given) :: items, record => do
    let record ← field.fill source given record
    rule.readItems source ending fields items record
  | field :: fields, [], record => do
    Decode.lift ending.check
    if field.required then
      .fail (.wrongLength (rule.fields.length - fields.length - 1) rule.elements)
    else rule.readItems source ending fields [] record

/-- Reads a record given as an object. -/
def readObject (rule : RecordRule α β) (source : Source)
    (entries : List (Option String × Draft × β)) (ending : Ending) (empty : α) : Decode α := do
  let source ← source.enter
  let record ← rule.readEntries source entries empty
  Decode.lift ending.check
  requireFilled record rule.fields
  return record

/-- Reads a record given as an array. -/
def readArray (rule : RecordRule α β) (source : Source) (items : List (Draft × β))
    (ending : Ending) (empty : α) : Decode α := do
  let source ← source.enter
  let (rest, record) ← rule.readItems source ending rule.fields items empty
  rule.requireEnd source items.length rest ending
  return record

/-- What a draft is refused with that is no record. -/
def refuse {γ : Type} (rule : RecordRule α β) (draft : Draft) : Decode γ :=
  .wrongType draft ("struct " ++ rule.name)

end RecordRule

/-- Reads a record whose fields are given by their drafts alone. -/
def RecordRule.read {α : Type} (rule : RecordRule α Draft) (source : Source) (draft : Draft)
    (empty : α) : Decode α :=
  match draft with
  | .object entries ending =>
    rule.readObject source (entries.map fun (name, draft) => (name, draft, draft)) ending empty
  | .array items ending =>
    rule.readArray source (items.map fun draft => (draft, draft)) ending empty
  | draft => rule.refuse draft

end ViewTree
