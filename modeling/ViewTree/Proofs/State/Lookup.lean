import ViewTree.Proofs.State.Removal
import ViewTree.Proofs.Text.Split
import ViewTree.Render.Binding

/-!
# Looking up dotted paths

The segments of two paths joined by a dot are those of the one and those of the other
(`Path.split_append`), whatever the paths are: empty, with dots at their ends or of nothing but
dots.  So looking up the joined path is looking up the second inside what is found at the first.

An object can be entered in two ways, by walking along all segments or by cutting the path at its
first dot only and looking up the rest in what stands there (`Fields.lookupCut?`); they find the
same.  `lookup_composes` puts this together, and applies it to a binding that selects a field of
what its source holds.
-/

namespace ViewTree

open ViewTree.Path Json

namespace Path

variable {sep : Char} {cs : List Char}

theorem pieces_of_not_mem (h : sep ∉ cs) : Text.pieces sep cs = [cs] := by
  induction cs with
  | nil => rfl
  | cons c cs ih =>
    obtain ⟨hc, hcs⟩ := not_or.mp (List.mem_cons.not.mp h)
    exact pieces_cons_of_ne (Ne.symm hc) (ih hcs)

/-- A separator ends the last piece of what stands before it. -/
theorem pieces_append_cons (sep : Char) (cs ds : List Char) :
    Text.pieces sep (cs ++ sep :: ds) = Text.pieces sep cs ++ Text.pieces sep ds := by
  induction cs with
  | nil => exact pieces_cons_self sep ds
  | cons c cs ih =>
    by_cases hc : c = sep
    · subst hc
      rw [List.cons_append, pieces_cons_self, pieces_cons_self, ih, List.cons_append]
    · -- The character goes to the first piece, and there is always one.
      obtain ⟨piece, rest, hcs⟩ := List.exists_cons_of_ne_nil (pieces_ne_nil sep cs)
      rw [hcs, List.cons_append] at ih
      rw [List.cons_append, pieces_cons_of_ne hc ih, pieces_cons_of_ne hc hcs, List.cons_append]

/-- A dot between two paths joins their segments. -/
theorem split_append (path rest : String) :
    split (path ++ "." ++ rest) = split path ++ split rest := by
  have htext : (path ++ "." ++ rest).toList = path.toList ++ '.' :: rest.toList := by simp
  rw [split_eq_map, htext, pieces_append_cons, List.map_append, ← split_eq_map, ← split_eq_map]

/-- The first segment of a path ends at its first dot. -/
theorem split_of_cut {path : String} {head rest : List Char}
    (htext : path.toList = head ++ '.' :: rest) (hhead : '.' ∉ head) :
    split path = String.ofList head :: split (String.ofList rest) := by
  rw [split_eq_map, htext, pieces_append_cons, pieces_of_not_mem hhead, split_eq_map,
    String.toList_ofList]
  rfl

theorem split_of_not_mem {path : String} (h : '.' ∉ path.toList) : split path = [path] := by
  rw [split_eq_map, pieces_of_not_mem h, List.map_singleton, String.ofList_toList]

end Path

namespace Fields

variable {fields : Fields} {path : String}

/-- The value at a dotted path that is cut at its first dot only: what follows the dot is looked up
in the value that stands under what precedes it. -/
def lookupCut? (path : String) (fields : Fields) : Option Json :=
  match Text.cut '.' path.toList with
  | none => get? path fields
  | some (head, rest) =>
    (get? (String.ofList head) fields).bind (Json.lookup? (String.ofList rest))

theorem lookup?_eq_walk? : lookup? (ofString path) fields = walk? (split path) (.object fields) :=
  rfl

theorem lookup?_eq_lookupCut? : lookup? (ofString path) fields = lookupCut? path fields := by
  rw [lookup?_eq_walk?, lookupCut?]
  by_cases hdot : '.' ∈ path.toList
  · obtain ⟨head, rest, htext, hhead⟩ := List.eq_append_cons_of_mem hdot
    rw [split_of_cut htext hhead, htext, Text.cut_append_cons hhead]
    rfl
  · rw [split_of_not_mem hdot, Text.cut_eq_none hdot, walk?_object_cons]
    exact Option.bind_fun_some _

end Fields

/-- **Lookup composes.**  An object is entered along all segments of a path or by its first one and
the rest, with the same result.  A path joined to another by a dot leads to what the other leads to
from its end, and nowhere when there is nothing at its end.  So a binding with a field selects,
before its transform, what the state holds at the path of its source and field joined. -/
theorem lookup_composes :
    (∀ (fields : Fields) (path : String),
      Fields.lookup? (ofString path) fields = Json.lookup? path (.object fields) ∧
      Fields.lookup? (ofString path) fields = Fields.lookupCut? path fields) ∧
    (∀ (fields : Fields) (path rest : String),
      Fields.lookup? (ofString (path ++ "." ++ rest)) fields
        = (Fields.lookup? (ofString path) fields).bind (Json.lookup? rest)) ∧
    ∀ (store : Store) (source field : String) (transform : Option String)
      (transforms : TransformTable),
      let binding : DataBinding := { source, field := some field, transform }
      let found := store.get? (source ++ "." ++ field)
      binding.select store.fields = found ∧
        binding.resolve store.fields transforms
          = transforms.applyOption transform (found.getD .null) := by
  have hjoin : ∀ (fields : Fields) (path rest : String),
      Fields.lookup? (ofString (path ++ "." ++ rest)) fields
        = (Fields.lookup? (ofString path) fields).bind (Json.lookup? rest) := by
    intro fields path rest
    rw [Fields.lookup?_eq_walk?, split_append, walk?_append]
    rfl
  refine ⟨fun fields path => ⟨rfl, Fields.lookup?_eq_lookupCut?⟩, hjoin, ?binding⟩
  case binding =>
    intro store source field transform transforms binding found
    have hselect : binding.select store.fields = found := (hjoin store.fields source field).symm
    exact ⟨hselect, by rw [DataBinding.resolve, hselect]⟩

/-- An empty segment is a name like any other, and a number leads into an array. -/
example : Json.lookup? "a..1.b"
    (.object [("a", .object [("", .array [.null, .object [("b", .bool true)]])])])
      = some (.bool true) := rfl

end ViewTree
