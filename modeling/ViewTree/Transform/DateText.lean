import ViewTree.Decimal.Numeral
import ViewTree.Text.Blank
import ViewTree.Transform.Calendar

/-!
# Reading dates

Three written forms are understood: a time stamp with its distance from universal time, a date and
time without one, and a date alone.  The date of a time stamp is the one in universal time.
-/

namespace ViewTree

namespace DateText

/-- A reader takes its part off the front of a text. -/
abbrev Reader (α : Type) := StateT (List Char) Option α

/-- Takes a given character. -/
def exactly (c : Char) : Reader Unit := fun cs =>
  match cs with
  | d :: rest => if d = c then some ((), rest) else none
  | [] => none

/-- Takes one of several characters. -/
def oneOf (allowed : List Char) : Reader Char := fun cs =>
  match cs with
  | d :: rest => if d ∈ allowed then some (d, rest) else none
  | [] => none

/-- Takes as many digits as there are, up to `most`, and at least `least`. -/
def number (least most : Nat) : Reader Nat := fun cs =>
  let digits := (Numeral.digitRun cs).1.take most
  if digits.length < least then none
  else some (Numeral.digitsValue digits, cs.drop digits.length)

/-- Takes all the digits there are, and at least one. -/
def wholeNumber : Reader Nat := fun cs =>
  match Numeral.digitRun cs with
  | ([], _) => none
  | (digits, rest) => some (Numeral.digitsValue digits, rest)

/-- Takes blanks. -/
def blanks : Reader Unit := fun cs => some ((), cs.dropWhile Text.isBlank)

/-- Succeeds at the end of the text. -/
def finished : Reader Unit := fun cs => if cs.isEmpty then some ((), cs) else none

/-- Requires something. -/
def require (p : Prop) [Decidable p] : Reader Unit := fun cs => if p then some ((), cs) else none

/-- A date, if the parts name one. -/
def date (year : Int) (month day : Nat) : Reader Date := fun cs =>
  (Date.ofParts? year month day).map (·, cs)

/-- Requires a time of day; a sixtieth second is allowed for. -/
def timeOfDay (hour minute second : Nat) : Reader Unit :=
  require (hour ≤ 23 ∧ minute ≤ 59 ∧ second ≤ 60)

/-- Takes a point and the digits after it, if there is a point. -/
def fraction : Reader Unit := fun cs =>
  match cs with
  | '.' :: rest => (wholeNumber rest).map fun (_, rest) => ((), rest)
  | _ => some ((), cs)

/-- Takes the distance from universal time, in seconds. -/
def offset : Reader Int := do
  let lead ← oneOf ['Z', 'z', '+', '-', '−']
  if lead = 'Z' ∨ lead = 'z' then return 0
  let hours ← number 2 2
  exactly ':'
  let minutes ← number 2 2
  require (hours ≤ 23 ∧ minutes ≤ 59)
  let seconds : Int := hours * 3600 + minutes * 60
  return if lead = '+' then seconds else -seconds

/-- The date in universal time of a time stamp.  A sixtieth second belongs to the minute it ends. -/
def timeStamp : Reader Date := do
  let year ← number 4 4
  exactly '-'
  let month ← number 2 2
  exactly '-'
  let day ← number 2 2
  let _ ← oneOf ['T', 't', ' ']
  let hour ← number 2 2
  exactly ':'
  let minute ← number 2 2
  exactly ':'
  let second ← number 2 2
  fraction
  let offset ← offset
  finished
  timeOfDay hour minute second
  let date ← date year month day
  let seconds : Int := hour * 3600 + minute * 60 + min second 59
  let shifted := date.toDays + (seconds - offset) / 86400
  fun cs => (Date.ofDays? shifted).map (·, cs)

/-- Takes a part of at most two digits, blanks before it allowed. -/
def shortNumber : Reader Nat := do
  blanks
  number 1 2

/-- Takes a year: up to four digits, or any number of them after a sign. -/
def year : Reader Int := do
  blanks
  fun cs =>
    match cs with
    | '-' :: rest => (wholeNumber rest).map fun (n, rest) => (-n, rest)
    | '+' :: rest => (wholeNumber rest).map fun (n, rest) => (n, rest)
    | _ => (number 1 4 cs).map fun (n, rest) => (n, rest)

/-- Takes year, month and day with hyphens between them. -/
def dashedDate : Reader (Int × Nat × Nat) := do
  let year ← year
  exactly '-'
  let month ← shortNumber
  exactly '-'
  let day ← shortNumber
  return (year, month, day)

/-- The date of a date and time. -/
def localTime : Reader Date := do
  let (year, month, day) ← dashedDate
  exactly 'T'
  let hour ← shortNumber
  exactly ':'
  let minute ← shortNumber
  exactly ':'
  let second ← shortNumber
  finished
  timeOfDay hour minute second
  date year month day

/-- A date alone. -/
def dateAlone : Reader Date := do
  let (year, month, day) ← dashedDate
  finished
  date year month day

/-- The value a reader finds in a text. -/
def run (reader : Reader Date) (cs : List Char) : Option Date :=
  (reader cs).map Prod.fst

/-- The date a text names in one of the three forms, blanks around it aside. -/
def read? (s : String) : Option Date :=
  let cs := Text.trim s.toList
  (run timeStamp cs).orElse fun _ => (run localTime cs).orElse fun _ => run dateAlone cs

end DateText

end ViewTree
