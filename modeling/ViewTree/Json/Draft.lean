import ViewTree.Json.Basic

/-!
# Partly read JSON

A draft is what a JSON text turns into before anyone decides what it should mean.  Where the text
goes wrong the draft stops and records how, so that a decoder which walks the draft in the order of
the text meets the first problem first, be it one of the text or one of meaning.  Repeated names
are kept for the same reason.
-/

namespace ViewTree

/-- What is wrong with a JSON text. -/
inductive Fault where
  /-- It has something where nothing of the kind may stand. -/
  | malformed
  /-- It ends too early. -/
  | truncated
deriving DecidableEq, Repr

/-- How the entries of an array or object end. -/
inductive Ending where
  /-- With the closing bracket. -/
  | closed
  /-- Without a comma or closing bracket where one is due. -/
  | cut (fault : Fault)
  /-- Without a name where the first one is due.  To one who takes what stands there for a value,
  `found` describes it, or `fault` is its fault. -/
  | unnamed (fault : Fault) (found : Option String)
  /-- With a comma that no entry follows. -/
  | dangling (fault : Fault)
deriving DecidableEq, Repr

/-- A JSON text as far as it can be read. -/
inductive Draft where
  | null
  | bool (value : Bool)
  | number (value : Number)
  | text (value : String)
  /-- The items read and how they end. -/
  | array (items : List Draft) (ending : Ending)
  /-- The entries read, a name missing when it cannot be read, and how they end. -/
  | object (entries : List (Option String × Draft)) (ending : Ending)
  /-- A number too large for a double or a text with half a surrogate pair: good only to be passed
  over. -/
  | unreadable
  /-- Where reading stops: the fault for one who reads a value here, for one who passes over it,
  and for one who looks for a name only. -/
  | broken (read skipped named : Fault)
deriving Repr, Inhabited

namespace Ending

/-- The fault of one who expects a further entry or the end. -/
def check : Ending → Except Fault Unit
  | .closed => .ok ()
  | .cut fault => .error fault
  | .unnamed _ _ => .error .malformed
  | .dangling fault => .error fault

/-- The fault of one who expects the end. -/
def checkLast : Ending → Except Fault Unit
  | .closed => .ok ()
  | .cut fault => .error fault
  | .unnamed _ _ | .dangling _ => .error .malformed

end Ending

namespace Draft

/-- The levels of nesting a JSON text may have, and one more. -/
def maxDepth : Nat := 128

/-- The room left inside an array or object, when there is room for it.  Without a limit there
always is. -/
def enter : Option Nat → Except Fault (Option Nat)
  | none => .ok none
  | some (n + 2) => .ok (some (n + 1))
  | some _ => .error .malformed

mutual

/-- The value of a draft, or its first fault.  Of a repeated name the last value counts, in the
place of the first. -/
def read (room : Option Nat) : Draft → Except Fault Json
  | .null => .ok .null
  | .bool b => .ok (.bool b)
  | .number n => .ok (.number n)
  | .text s => .ok (.text s)
  | .array items ending => do
    let room ← enter room
    let values ← readItems room items
    ending.check
    return .array values
  | .object entries ending => do
    let room ← enter room
    let fields ← readEntries room entries []
    ending.check
    return .object fields
  | .unreadable => .error .malformed
  | .broken fault _ _ => .error fault

/-- The values of a list of drafts. -/
def readItems (room : Option Nat) : List Draft → Except Fault (List Json)
  | [] => .ok []
  | item :: items => do
    let value ← read room item
    let values ← readItems room items
    return value :: values

/-- Adds the values of entries to the fields read before them. -/
def readEntries (room : Option Nat) : List (Option String × Draft) → Fields → Except Fault Fields
  | [], fields => .ok fields
  | (none, _) :: _, _ => .error .malformed
  | (some name, draft) :: entries, fields => do
    let value ← read room draft
    readEntries room entries (Fields.insert name value fields)

end

mutual

/-- The first fault of one who passes over a draft, at any depth. -/
def skip : Draft → Except Fault Unit
  | .array items ending => do
    skipItems items
    ending.check
  | .object entries ending => do
    skipEntries entries
    ending.check
  | .broken _ fault _ => .error fault
  | .null | .bool _ | .number _ | .text _ | .unreadable => .ok ()

/-- Passes over a list of drafts. -/
def skipItems : List Draft → Except Fault Unit
  | [] => .ok ()
  | item :: items => do
    skip item
    skipItems items

/-- Passes over entries. -/
def skipEntries : List (Option String × Draft) → Except Fault Unit
  | [] => .ok ()
  | (_, draft) :: entries => do
    skip draft
    skipEntries entries

end

mutual

/-- A value as a draft without faults. -/
def ofJson : Json → Draft
  | .null => .null
  | .bool b => .bool b
  | .number n => .number n
  | .text s => .text s
  | .array items => .array (ofItems items) .closed
  | .object fields => .object (ofFields fields) .closed

/-- A list of values as drafts. -/
def ofItems : List Json → List Draft
  | [] => []
  | item :: items => ofJson item :: ofItems items

/-- The entries of an object as drafts. -/
def ofFields : List (String × Json) → List (Option String × Draft)
  | [] => []
  | (name, value) :: fields => (some name, ofJson value) :: ofFields fields

end

end Draft

end ViewTree
