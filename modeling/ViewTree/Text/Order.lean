/-!
# Names in order

Lists of names kept in increasing order of their characters.
-/

namespace ViewTree.Text

/-- Puts a name before the first one that is greater. -/
def insertName (name : String) : List String → List String
  | [] => [name]
  | other :: names =>
    if name < other then name :: other :: names else other :: insertName name names

/-- The names in increasing order. -/
def sortNames (names : List String) : List String :=
  names.foldr insertName []

end ViewTree.Text
