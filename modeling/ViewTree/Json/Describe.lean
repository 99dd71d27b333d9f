import ViewTree.Json.Draft
import ViewTree.Json.Printer
import ViewTree.Text.Quoted

/-!
# Describing a value in a message

What a message says was found where something else was wanted.
-/

namespace ViewTree

/-- A word between the marks that set it off in a message. -/
def marked (word : String) : String := "`" ++ word ++ "`"

/-- What a draft is to one who wanted something else; none when its text is at fault. -/
def Draft.describe? : Draft → Option String
  | .null => some "null"
  | .bool b => some ("boolean " ++ marked (if b then "true" else "false"))
  | .number (.int n) => some ("integer " ++ marked (Number.int n).text)
  | .number (.double x) => some ("floating point " ++ marked x.text)
  | .text s => some ("string " ++ Text.quoted s)
  | .array _ _ => some "sequence"
  | .object _ _ => some "map"
  | .unreadable | .broken _ _ _ => none

end ViewTree
