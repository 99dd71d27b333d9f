/-!
# Splitting at a separator

`pieces` cuts a text at every occurrence of a character, `cut` at the first one.
-/

namespace ViewTree.Text

/-- The stretches of a text between the occurrences of `sep`, in order.  A text without `sep` is
its own single stretch, so the result is never empty. -/
def pieces (sep : Char) : List Char → List (List Char)
  | [] => [[]]
  | c :: cs =>
    if c = sep then [] :: pieces sep cs
    else
      match pieces sep cs with
      | [] => [[c]]
      | piece :: rest => (c :: piece) :: rest

/-- What stands before and after the first occurrence of `sep`, if there is one. -/
def cut (sep : Char) : List Char → Option (List Char × List Char)
  | [] => none
  | c :: cs =>
    if c = sep then some ([], cs)
    else (cut sep cs).map fun (before, after) => (c :: before, after)

/-- What follows `lead`, when the text starts with it. -/
def stripLead : List Char → List Char → Option (List Char)
  | [], cs => some cs
  | _ :: _, [] => none
  | l :: lead, c :: cs => if l = c then stripLead lead cs else none

/-- What precedes `tail`, when the text ends with it. -/
def stripTail (tail cs : List Char) : Option (List Char) :=
  (stripLead tail.reverse cs.reverse).map List.reverse

/-- The lines of a text: cut at each line feed, a carriage return before it dropped, and no empty
line after a final line feed. -/
def lines (cs : List Char) : List (List Char) :=
  let stretches := pieces '\n' cs
  let closed := stretches.dropLast.map fun line =>
    if line.getLast? = some '\r' then line.dropLast else line
  match stretches.getLast? with
  | none | some [] => closed
  | some last => closed ++ [last]

end ViewTree.Text
