import ViewTree.Proofs.Json.Reading
import ViewTree.State.Template

/-!
# Filling templates in

The pieces of a template spell it (`Template.flatMap_source_scan`), so a text without holes stays
as it is whatever the scope, and so does a value without holes in its texts
(`Scope.expandIn_of_plain`).
-/

namespace ViewTree

namespace Template

/-- A piece as it stands in the template. -/
def Piece.source : Piece → List Char
  | .literal c => [c]
  | .hole body => opening ++ body ++ ['\x7d']

theorem flatMap_source_literals (cs : List Char) :
    (cs.map Piece.literal).flatMap Piece.source = cs := by
  induction cs with
  | nil => rfl
  | cons c cs ih => exact congrArg (c :: ·) ih

/-- What is read of an open hole and what is left of the template are spelled by the pieces. -/
theorem flatMap_source_scanFrom (body : Option (List Char)) (cs : List Char) :
    (scanFrom body cs).flatMap Piece.source
      = (body.elim [] fun body => opening ++ body.reverse) ++ cs := by
  cases cs with
  | nil =>
    cases body with
    | none => rfl
    | some body => rw [scanFrom, flatMap_source_literals]; simp
  | cons c cs =>
    cases body with
    | none =>
      by_cases hopen : ∃ rest, c = '$' ∧ cs = '\x7b' :: rest
      · obtain ⟨rest, rfl, rfl⟩ := hopen
        rw [scanFrom, flatMap_source_scanFrom (some []) rest]
        rfl
      · rw [scanFrom, List.flatMap_cons, flatMap_source_scanFrom none cs]
        · rfl
        · exact fun rest hc hcs => hopen ⟨rest, hc, hcs⟩
    | some body =>
      by_cases hclose : c = '\x7d'
      · subst hclose
        by_cases hbody : body = []
        · subst hbody
          rw [scanFrom, List.flatMap_append, flatMap_source_literals,
            flatMap_source_scanFrom none cs]
          rfl
        · rw [scanFrom, List.flatMap_cons, flatMap_source_scanFrom none cs]
          · simp [Piece.source]
          · exact hbody
      · rw [scanFrom, flatMap_source_scanFrom (some (c :: body)) cs]
        · simp
        · exact hclose
termination_by cs.length

/-- The pieces of a template spell it. -/
theorem flatMap_source_scan (template : String) :
    (scan template).flatMap Piece.source = template.toList := by
  rw [scan, flatMap_source_scanFrom]
  rfl

/-- Whether a piece stands for itself. -/
def Piece.isLiteral : Piece → Bool
  | .literal _ => true
  | .hole _ => false

/-- A text has no holes. -/
def Plain (text : String) : Prop := ∀ piece ∈ scan text, piece.isLiteral = true

instance (text : String) : Decidable (Plain text) :=
  inferInstanceAs (Decidable (∀ piece ∈ scan text, piece.isLiteral = true))

end Template

namespace Json

mutual

/-- No text in a value has holes, at any depth. -/
def Plain : Json → Prop
  | .text s => Template.Plain s
  | .array items => PlainItems items
  | .object fields => PlainFields fields
  | .null | .bool _ | .number _ => True

/-- No text in a list of values has holes. -/
def PlainItems : List Json → Prop
  | [] => True
  | item :: items => Plain item ∧ PlainItems items

/-- No text in the values of entries has holes. -/
def PlainFields : List (String × Json) → Prop
  | [] => True
  | (_, value) :: fields => Plain value ∧ PlainFields fields

end

end Json

namespace Scope

variable (scope : Scope)

/-- A text without holes stays as it is. -/
theorem expand_of_plain {text : String} (h : Template.Plain text) : scope.expand text = text := by
  have hfill : (Template.scan text).flatMap scope.fill
      = (Template.scan text).flatMap Template.Piece.source := by
    refine List.flatMap_congr fun piece hpiece => ?_
    cases piece with
    | literal c => rfl
    | hole body => exact absurd (h _ hpiece) Bool.false_ne_true
  rw [expand, hfill, Template.flatMap_source_scan, String.ofList_toList]

mutual

/-- A value without holes in its texts stays as it is. -/
theorem expandIn_of_plain : ∀ value : Json, value.Plain → scope.expandIn value = value
  | .text _, h => congrArg Json.text (scope.expand_of_plain h)
  | .array items, h => congrArg Json.array (expandItems_of_plain items h)
  | .object fields, h => congrArg Json.object (expandFields_of_plain fields h)
  | .null, _ | .bool _, _ | .number _, _ => rfl

theorem expandItems_of_plain : ∀ items : List Json, Json.PlainItems items →
    scope.expandItems items = items
  | [], _ => rfl
  | item :: items, h => by
    rw [expandItems, expandIn_of_plain item h.1, expandItems_of_plain items h.2]

theorem expandFields_of_plain : ∀ fields : List (String × Json), Json.PlainFields fields →
    scope.expandFields fields = fields
  | [], _ => rfl
  | (name, value) :: fields, h => by
    rw [expandFields, expandIn_of_plain value h.1, expandFields_of_plain fields h.2]

end

theorem names_expandFields (fields : Fields) :
    Fields.names (scope.expandFields fields) = Fields.names fields := by
  induction fields with
  | nil => rfl
  | cons entry fields ih => exact congrArg (entry.1 :: ·) ih

mutual

/-- Filling templates in keeps names distinct. -/
theorem wellNamed_expandIn : ∀ value : Json, value.WellNamed → (scope.expandIn value).WellNamed
  | .array items, h => by
    rw [expandIn, Json.WellNamed]
    exact wellNamed_expandItems items h
  | .object fields, h => by
    rw [expandIn, Json.WellNamed, Fields.Distinct, names_expandFields]
    exact ⟨h.1, wellNamed_expandFields fields h.2⟩
  | .text _, _ | .null, _ | .bool _, _ | .number _, _ => trivial

theorem wellNamed_expandItems : ∀ items : List Json, Json.WellNamedItems items →
    Json.WellNamedItems (scope.expandItems items)
  | [], _ => trivial
  | item :: items, h => ⟨wellNamed_expandIn item h.1, wellNamed_expandItems items h.2⟩

theorem wellNamed_expandFields : ∀ fields : List (String × Json), Json.WellNamedFields fields →
    Json.WellNamedFields (scope.expandFields fields)
  | [], _ => trivial
  | (_, value) :: fields, h => ⟨wellNamed_expandIn value h.1, wellNamed_expandFields fields h.2⟩

end

theorem expandIn_ne_null {value : Json} (h : value ≠ .null) : scope.expandIn value ≠ .null := by
  cases value with
  | null => exact absurd rfl h
  | _ => nofun

end Scope

end ViewTree
