import ViewTree.Decimal.Double

/-!
# JSON values

The one value type shared by configuration, state and remote payloads.  An object is the list of
its entries in order, the names distinct; `Fields` holds the operations that keep it that way.
-/

namespace ViewTree

/-- A JSON number: an integer of 64 bits, signed or unsigned, or a double. -/
inductive Number where
  | int (value : Int)
  | double (value : Double)
deriving DecidableEq, Repr, Inhabited

namespace Number

/-- The double nearest to the number. -/
def toDouble : Number → Double
  | .int n => .ofInt n
  | .double x => x

/-- Whether the number is zero. -/
def isZero : Number → Bool
  | .int n => n == 0
  | .double x => x.isZero

/-- Equality of numbers of one form: an integer never equals a double. -/
def same : Number → Number → Bool
  | .int m, .int n => m == n
  | .double x, .double y => x.same y
  | _, _ => false

end Number

/-- A JSON value. -/
inductive Json where
  | null
  | bool (value : Bool)
  | number (value : Number)
  | text (value : String)
  | array (items : List Json)
  | object (fields : List (String × Json))
deriving Repr, Inhabited

/-- The entries of an object, in order. -/
abbrev Fields := List (String × Json)

namespace Fields

/-- The value under a name. -/
def get? (name : String) : Fields → Option Json
  | [] => none
  | (key, value) :: fields => if key = name then some value else get? name fields

/-- Whether there is a value under a name. -/
def has (name : String) (fields : Fields) : Bool :=
  (get? name fields).isSome

/-- The entries with `value` under `name`.  An entry of that name keeps its place; a new one goes
to the end. -/
def insert (name : String) (value : Json) : Fields → Fields
  | [] => [(name, value)]
  | (key, old) :: fields =>
    if key = name then (key, value) :: fields else (key, old) :: insert name value fields

/-- The entries without the one under `name`.  The last entry moves into the place that becomes
free. -/
def erase (name : String) : Fields → Fields
  | [] => []
  | (key, value) :: fields =>
    if key = name then
      match fields.getLast? with
      | none => []
      | some last => last :: fields.dropLast
    else (key, value) :: erase name fields

/-- Writes entries one after another. -/
def insertAll (fields : Fields) (entries : List (String × Json)) : Fields :=
  entries.foldl (fun fields (name, value) => insert name value fields) fields

end Fields

namespace Json

/-- An integer value. -/
def int (n : Int) : Json := .number (.int n)

/-- Whether the value is `null`. -/
def isNull : Json → Bool
  | .null => true
  | _ => false

/-- The fields of an object; none for other values. -/
def fields? : Json → Option Fields
  | .object fields => some fields
  | _ => none

/-- The fields of an object; no fields for other values. -/
def fieldsOrNone (value : Json) : Fields :=
  value.fields?.getD []

/-- The value of a field of an object. -/
def get? (name : String) (value : Json) : Option Json :=
  value.fields?.bind (Fields.get? name)

/-- The text of a string value. -/
def text? : Json → Option String
  | .text s => some s
  | _ => none

mutual

/-- Equality of values: the order of an object's entries does not matter, the form of a number
does, and the two zeros are equal. -/
def same : Json → Json → Bool
  | .null, .null => true
  | .bool a, .bool b => a == b
  | .number m, .number n => m.same n
  | .text s, .text t => s == t
  | .array xs, .array ys => sameItems xs ys
  | .object fs, .object gs => fs.length == gs.length && sameFields fs gs
  | _, _ => false

/-- Equality of lists of values, item by item. -/
def sameItems : List Json → List Json → Bool
  | [], [] => true
  | x :: xs, y :: ys => same x y && sameItems xs ys
  | _, _ => false

/-- Whether every entry has an equal one of its name among `gs`. -/
def sameFields : List (String × Json) → List (String × Json) → Bool
  | [], _ => true
  | (name, value) :: fs, gs =>
    (match Fields.get? name gs with
      | some other => same value other
      | none => false) && sameFields fs gs

end

end Json

end ViewTree
