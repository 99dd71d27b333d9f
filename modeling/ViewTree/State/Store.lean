import ViewTree.State.Path

/-!
# The state store

The one nested object all parts of a view read and write, with a counter of the writes applied.
-/

namespace ViewTree

/-- The state: its entries and the number of writes so far. -/
structure Store where
  fields : Fields
  version : Nat
deriving Inhabited

namespace Store

/-- The store nothing has been written to. -/
def empty : Store := ⟨[], 0⟩

/-- The value at a dotted path, if there is one. -/
def get? (store : Store) (path : String) : Option Json :=
  Fields.lookup? (Path.ofString path) store.fields

/-- Whether there is a value at a dotted path. -/
def has (store : Store) (path : String) : Bool :=
  (store.get? path).isSome

/-- Removes the entry at a dotted path, and says whether there was one to remove.  It counts as a
write either way. -/
def remove (store : Store) (path : String) : Bool × Store :=
  let ⟨head, rest⟩ := Path.ofString path
  let removed := Fields.removable head rest store.fields
  let fields := if removed then Fields.remove head rest store.fields else store.fields
  (removed, ⟨fields, store.version + 1⟩)

/-- Writes a value at a dotted path; writing `null` removes the entry. -/
def set (store : Store) (path : String) (value : Json) : Store :=
  match value with
  | .null => (store.remove path).2
  | value =>
    let ⟨head, rest⟩ := Path.ofString path
    ⟨Fields.write value head rest store.fields, store.version + 1⟩

/-- The state as one value. -/
def toJson (store : Store) : Json := .object store.fields

/-- The store after writing entries one by one. -/
def setAll (store : Store) (entries : List (String × Json)) : Store :=
  entries.foldl (fun store (path, value) => store.set path value) store

end Store

/-- Suffix of the key that holds whether a load is in progress. -/
def loadingSuffix : String := "_loading"

/-- Suffix of the key that holds the error of the last load. -/
def errorSuffix : String := "_error"

/-- The key that holds whether a load of `key` is in progress. -/
def loadingKey (key : String) : String := key ++ loadingSuffix

/-- The key that holds the error of the last load of `key`. -/
def errorKey (key : String) : String := key ++ errorSuffix

end ViewTree
