import ViewTree.Json.Describe
import ViewTree.Json.NumberText
import ViewTree.Json.StringText

/-!
# Reading JSON text

The text is read from left to right into a draft.  Reading stops at the first place where no JSON
text can go on; what that means for the decoder is left in the draft.
-/

namespace ViewTree

namespace Draft

/-- The text ends where a value should stand. -/
def missing : Draft := .broken .truncated .truncated .truncated

/-- Something stands here that starts no value. -/
def misplaced : Draft := .broken .malformed .malformed .malformed

end Draft

namespace Json

/-- The text after blanks, which JSON has four of. -/
def skipSpace : List Char → List Char
  | [] => []
  | c :: cs => if c = ' ' ∨ c = '\n' ∨ c = '\t' ∨ c = '\r' then skipSpace cs else c :: cs

/-- Takes the rest of a word off the front of a text. -/
def takeWord (draft : Draft) : List Char → List Char → Draft × Option (List Char)
  | [], cs => (draft, some cs)
  | _ :: _, [] => (.broken .truncated .truncated .malformed, none)
  | w :: word, c :: cs => if w = c then takeWord draft word cs else (.misplaced, none)

/-- Takes a value other than an array or object off the front of a text. -/
def takeScalar : List Char → Draft × Option (List Char)
  | [] => (.missing, none)
  | 'n' :: cs => takeWord .null "ull".toList cs
  | 't' :: cs => takeWord (.bool true) "rue".toList cs
  | 'f' :: cs => takeWord (.bool false) "alse".toList cs
  | '"' :: cs =>
    match takeString cs with
    | .whole s rest => (.text s, some rest)
    | .unpaired rest => (.unreadable, some rest)
    | .cut read skipped => (.broken read skipped read, none)
  | c :: cs =>
    if c = '-' ∨ (Numeral.digit? c).isSome then takeNumber (c :: cs) else (.misplaced, none)

/-- The items of an array or entries of an object, how they end, and the text after them unless
reading stops. -/
structure Series (α : Type) where
  entries : List α
  ending : Ending
  rest : Option (List Char)

namespace Series

/-- No entries, with an ending that stops the reading. -/
def stop {α : Type} (ending : Ending) : Series α := ⟨[], ending, none⟩

/-- An entry before the others. -/
def cons {α : Type} (entry : α) (series : Series α) : Series α :=
  { series with entries := entry :: series.entries }

/-- An entry that stops the reading. -/
def last {α : Type} (entry : α) : Series α := ⟨[entry], .cut .malformed, none⟩

end Series

/-- The ending where something else stands in the place of a first name. -/
def insteadOfName : List Char → Ending
  | '[' :: _ => .unnamed .malformed (some "sequence")
  | '\x7b' :: _ => .unnamed .malformed (some "map")
  | cs =>
    match (takeScalar cs).1 with
    | .broken fault _ _ => .unnamed fault none
    | draft => .unnamed .malformed draft.describe?

mutual

/-- Takes a value off the front of a text; no text is left when reading stops.  Each call deepens
the nesting or follows a bracket, a comma or a name, so twice the length of the text is fuel
enough. -/
def takeValue : Nat → List Char → Draft × Option (List Char)
  | 0, _ => (.missing, none)
  | fuel + 1, cs =>
    match skipSpace cs with
    | '[' :: cs =>
      let series := takeItems fuel true cs
      (.array series.entries series.ending, series.rest)
    | '\x7b' :: cs =>
      let series := takeEntries fuel true cs
      (.object series.entries series.ending, series.rest)
    | cs => takeScalar cs

/-- Takes the items of an array and its closing bracket. -/
def takeItems : Nat → Bool → List Char → Series Draft
  | 0, _, _ => .stop (.cut .truncated)
  | fuel + 1, first, cs =>
    let item (cs : List Char) : Series Draft :=
      match takeValue fuel cs with
      | (draft, none) => .last draft
      | (draft, some rest) => (takeItems fuel false rest).cons draft
    match skipSpace cs with
    | [] => .stop (.cut .truncated)
    | c :: cs =>
      if c = ']' then ⟨[], .closed, some cs⟩
      else if first then item (c :: cs)
      else if c = ',' then
        match skipSpace cs with
        | [] => .stop (.dangling .truncated)
        | ']' :: _ => .stop (.dangling .malformed)
        | cs => item cs
      else .stop (.cut .malformed)

/-- Takes the entries of an object and its closing bracket. -/
def takeEntries : Nat → Bool → List Char → Series (Option String × Draft)
  | 0, _, _ => .stop (.cut .truncated)
  | fuel + 1, first, cs =>
    let value (name : Option String) (cs : List Char) : Series (Option String × Draft) :=
      match skipSpace cs with
      | [] => .last (name, .missing)
      | ':' :: cs =>
        match takeValue fuel cs with
        | (draft, none) => .last (name, draft)
        | (draft, some rest) => (takeEntries fuel false rest).cons (name, draft)
      | _ => .last (name, .misplaced)
    let entry (cs : List Char) (ending : Fault → Ending) : Series (Option String × Draft) :=
      match takeString cs with
      | .whole name rest => value (some name) rest
      | .unpaired rest => value none rest
      | .cut read skipped =>
        if read = skipped then .stop (ending read)
        else .last (none, .broken read skipped read)
    match skipSpace cs with
    | [] => .stop (.cut .truncated)
    | c :: cs =>
      if c = '\x7d' then ⟨[], .closed, some cs⟩
      else if first then
        if c = '"' then entry cs .cut
        else .stop (insteadOfName (c :: cs))
      else if c = ',' then
        match skipSpace cs with
        | [] => .stop (.dangling .truncated)
        | '"' :: cs => entry cs .dangling
        | _ => .stop (.dangling .malformed)
      else .stop (.cut .malformed)

end

/-- What a text holds: one value, and whether anything but blanks follows it. -/
structure Reading where
  root : Draft
  trailing : Bool

/-- Reads a whole text. -/
def readText (s : String) : Reading :=
  let cs := s.toList
  let (root, rest) := takeValue (2 * cs.length + 2) cs
  ⟨root, rest.any fun cs => !(skipSpace cs).isEmpty⟩

/-- The value a text holds, or its first fault. -/
def parse (s : String) : Except Fault Json := do
  let reading := readText s
  let value ← reading.root.read (some Draft.maxDepth)
  if reading.trailing then .error .malformed else return value

end Json

end ViewTree
