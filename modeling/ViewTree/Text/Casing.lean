import ViewTree.Text.CaseTable

/-!
# Upper and lower case

Full case mapping of a text.  A character may become several, and a capital sigma becomes the
final form of the small letter at the end of a word.
-/

namespace ViewTree.Text

/-- Whether a code point lies in one of the ranges. -/
def inRanges (ranges : List (Nat × Nat)) (code : Nat) : Bool :=
  ranges.any fun (first, last) => first ≤ code && code ≤ last

/-- The other case of a code point: its listed expansion, the character its run shifts it to, or
the code point itself. -/
def mapCase (runs : List CaseRun) (expansions : List (Nat × List Nat)) (code : Nat) : List Nat :=
  match expansions.lookup code with
  | some expansion => expansion
  | none =>
    match runs.find? (CaseRun.covers · code) with
    | some run => [(code + run.shift : Int).toNat]
    | none => [code]

/-- The upper case of a character. -/
def upperChar (c : Char) : List Char :=
  if c.toNat < 0x80 then [c.toUpper]
  else (mapCase upperRuns upperExpansions c.toNat).map Char.ofNat

/-- The lower case of a character on its own. -/
def lowerChar (c : Char) : List Char :=
  if c.toNat < 0x80 then [c.toLower]
  else (mapCase lowerRuns lowerExpansions c.toNat).map Char.ofNat

/-- Whether the first character that a search for letters does not pass over is a letter. -/
def reachesLetter (cs : List Char) : Bool :=
  match cs.find? fun c => !inRanges caseIgnorableRanges c.toNat with
  | some c => inRanges casedRanges c.toNat
  | none => false

/-- The text in upper case. -/
def upper (cs : List Char) : List Char :=
  cs.flatMap upperChar

/-- Lower case of what follows `before`, the characters already passed, last first. -/
def lowerAfter (before : List Char) : List Char → List Char
  | [] => []
  | c :: cs =>
    let mapped :=
      if c = 'Σ' then [if reachesLetter before && !reachesLetter cs then 'ς' else 'σ']
      else lowerChar c
    mapped ++ lowerAfter (c :: before) cs

/-- The text in lower case. -/
def lower (cs : List Char) : List Char :=
  lowerAfter [] cs

end ViewTree.Text
