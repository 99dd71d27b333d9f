import ViewTree.Json.Draft

/-!
# Strings in JSON text

Escapes are resolved on the way.  Characters beyond sixteen bits are escaped as a pair of
surrogates; half a pair makes the text unreadable, but it can still be passed over.
-/

namespace ViewTree

namespace Json

/-- What follows an opening quote. -/
inductive StringScan where
  /-- A text and what follows its closing quote. -/
  | whole (text : String) (rest : List Char)
  /-- A text with half a surrogate pair and what follows its closing quote. -/
  | unpaired (rest : List Char)
  /-- No text: the fault for a reader and for one who passes over it. -/
  | cut (read skipped : Fault)

/-- What has been read of a string. -/
structure StringState where
  /-- The characters, last first. -/
  chars : List Char
  /-- The first half of a surrogate pair, when it came last. -/
  lead : Option Nat
  /-- Whether half a pair has gone by. -/
  unpaired : Bool

namespace StringState

/-- A character that is not half a pair. -/
def push (state : StringState) (c : Char) : StringState :=
  { chars := c :: state.chars, lead := none, unpaired := state.unpaired || state.lead.isSome }

/-- A sixteen-bit unit given by number. -/
def pushUnit (state : StringState) (unit : Nat) : StringState :=
  if 0xDC00 ≤ unit ∧ unit ≤ 0xDFFF then
    match state.lead with
    | some lead =>
      let code := 0x10000 + (lead - 0xD800) * 0x400 + (unit - 0xDC00)
      { state with chars := Char.ofNat code :: state.chars, lead := none }
    | none => { state with unpaired := true }
  else if 0xD800 ≤ unit ∧ unit ≤ 0xDBFF then
    { state with lead := some unit, unpaired := state.unpaired || state.lead.isSome }
  else state.push (Char.ofNat unit)

/-- The string ends here with a fault. -/
def cut (state : StringState) (fault : Fault) : StringScan :=
  .cut (if state.unpaired then .malformed else fault) fault

/-- The string ends here with its closing quote. -/
def close (state : StringState) (rest : List Char) : StringScan :=
  if state.unpaired || state.lead.isSome then .unpaired rest
  else .whole (String.ofList state.chars.reverse) rest

end StringState

/-- The value of a digit in base sixteen. -/
def hexValue? (c : Char) : Option Nat :=
  if '0' ≤ c ∧ c ≤ '9' then some (c.toNat - 48)
  else if 'a' ≤ c ∧ c ≤ 'f' then some (c.toNat - 87)
  else if 'A' ≤ c ∧ c ≤ 'F' then some (c.toNat - 55)
  else none

/-- The number four digits in base sixteen denote. -/
def hexUnit? (a b c d : Char) : Option Nat := do
  let a ← hexValue? a
  let b ← hexValue? b
  let c ← hexValue? c
  let d ← hexValue? d
  return ((a * 16 + b) * 16 + c) * 16 + d

/-- The character an escape letter stands for. -/
def escapeChar? (c : Char) : Option Char :=
  if c = '"' ∨ c = '\\' ∨ c = '/' then some c
  else if c = 'b' then some '\x08'
  else if c = 'f' then some '\x0c'
  else if c = 'n' then some '\n'
  else if c = 'r' then some '\r'
  else if c = 't' then some '\t'
  else none

/-- The number of bytes a text takes. -/
def byteCount (cs : List Char) : Nat :=
  cs.foldl (fun total c => total + c.utf8Size) 0

/-- Reads a string after its opening quote.  A numbered escape needs four bytes of text to be more
than cut short. -/
def scanString (state : StringState) : List Char → StringScan
  | [] => state.cut .truncated
  | '"' :: cs => state.close cs
  | '\\' :: 'u' :: a :: b :: c :: d :: cs =>
    match hexUnit? a b c d with
    | some unit => scanString (state.pushUnit unit) cs
    | none => state.cut .malformed
  | '\\' :: 'u' :: cs => state.cut (if byteCount cs < 4 then .truncated else .malformed)
  | '\\' :: c :: cs =>
    match escapeChar? c with
    | some escaped => scanString (state.push escaped) cs
    | none => state.cut .malformed
  | ['\\'] => state.cut .truncated
  | c :: cs => if c.toNat < 0x20 then state.cut .malformed else scanString (state.push c) cs

/-- Takes a string off the front of a text, after its opening quote. -/
def takeString (cs : List Char) : StringScan :=
  scanString ⟨[], none, false⟩ cs

end Json

end ViewTree
