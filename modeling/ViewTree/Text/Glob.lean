/-!
# Name patterns

A pattern is a text in which `*` stands for any run of characters, `?` for exactly one, and every
other character for itself.

A matcher walks along the pattern and the text.  Where the two do not go together it returns to the
last `*` it has passed, which then takes one character more; it never returns to an earlier one.
-/

namespace ViewTree.Text

/-- One item of a name pattern. -/
inductive GlobItem where
  /-- Any run of characters, the empty one included. -/
  | anyRun
  /-- Any single character. -/
  | anyOne
  /-- This character. -/
  | exactly (c : Char)
deriving DecidableEq, Repr

/-- The item a pattern character stands for. -/
def GlobItem.ofChar (c : Char) : GlobItem :=
  if c = '*' then .anyRun else if c = '?' then .anyOne else .exactly c

/-- A `*` of a pattern: where it stands, and up to which position of the text it takes. -/
structure Star where
  item : Nat
  upTo : Nat
deriving DecidableEq, Repr

/-- Where a matcher stands in a pattern and in a text. -/
structure Matcher where
  item : Nat := 0
  char : Nat := 0
  /-- The last `*` that was passed. -/
  star : Option Star := none
deriving DecidableEq, Repr

/-- What a matcher comes to. -/
inductive Matching where
  | goingOn (matcher : Matcher)
  | answered (answer : Bool)
  /-- It has looked past the end of the pattern or of the text. -/
  | outOfRange
deriving DecidableEq, Repr

namespace Matcher

/-- The matcher after an item that has taken the next character. -/
def advance (m : Matcher) : Matcher := { m with item := m.item + 1, char := m.char + 1 }

/-- The matcher after a `*`, which takes nothing at first. -/
def passStar (m : Matcher) : Matcher :=
  { item := m.item + 1, char := m.char, star := some ⟨m.item, m.char⟩ }

/-- Lets the last `*` take one character more, and goes on behind it. -/
def retry (m : Matcher) : Matching :=
  match m.star with
  | some star => .goingOn
      { item := star.item + 1, char := star.upTo + 1, star := some ⟨star.item, star.upTo + 1⟩ }
  | none => .answered false

/-- One step of a matcher.  Once the text is used up, only `*` may be left of the pattern. -/
def step (items : List GlobItem) (text : List Char) (m : Matcher) : Matching :=
  if m.char < text.length then
    match items[m.item]? with
    | some .anyRun => .goingOn m.passStar
    | some .anyOne => .goingOn m.advance
    | some (.exactly c) =>
      match text[m.char]? with
      | some d => if c = d then .goingOn m.advance else m.retry
      | none => .outOfRange
    | none => m.retry
  else if m.item ≤ items.length then .answered ((items.drop m.item).all (· == .anyRun))
  else .outOfRange

/-- What a matcher comes to within a number of steps. -/
def run (items : List GlobItem) (text : List Char) : Nat → Matcher → Matching
  | 0, m => .goingOn m
  | steps + 1, m =>
    match m.step items text with
    | .goingOn next => run items text steps next
    | ended => ended

end Matcher

/-- Enough steps for any matcher: between two returns to a `*` it passes each item at most once, and
the text has room for one return at each character. -/
def enoughSteps (items : List GlobItem) (text : List Char) : Nat :=
  (text.length + 1) * (items.length + 1)

/-- The items of a pattern. -/
def globItems (pattern : String) : List GlobItem := pattern.toList.map GlobItem.ofChar

/-- What matching a text against a pattern comes to. -/
def globMatching (pattern text : String) : Matching :=
  let items := globItems pattern
  Matcher.run items text.toList (enoughSteps items text.toList) {}

/-- Whether the whole text matches the pattern. -/
def globMatches (pattern text : String) : Bool :=
  globMatching pattern text == .answered true

end ViewTree.Text
