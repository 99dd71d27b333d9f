import ViewTree.Proofs.State.Expansion
import ViewTree.State.Condition

/-!
# Conditions and templates

A condition finds the path it depends on by cutting the ends off its text, while a template is
scanned for placeholders.  The two have the same idea of a placeholder of the state: a text gives a
path exactly when a scan reads it as that one hole (`Condition.statePath?_eq_some_iff`).

So `Condition.admits_as_template` can say which texts depend on the state and on what: the value
that the text would show as a template.
-/

namespace ViewTree

open Template

/-- The body of a placeholder of the state names the value at its path. -/
theorem Scope.resolve_state (scope : Scope) (path : String) :
    scope.resolve ("state." ++ path).toList = scope.stateValue path := by
  have hstrip : Text.stripLead "state.".toList ("state." ++ path).toList = some path.toList := by
    rw [String.toList_append, Text.stripLead_append]
  rw [resolve, hstrip]
  exact congrArg scope.stateValue String.ofList_toList

/-- A text that is a single hole shows what the hole names. -/
theorem Scope.expand_of_hole (scope : Scope) {text : String} {body : List Char}
    (h : scan text = [.hole body]) : scope.expand text = displayOption (scope.resolve body) := by
  apply String.toList_injective
  rw [scope.expand_of_leftmost (leftmost_iff.mpr h), List.flatMap_singleton, fill]

namespace Condition

variable {text path : String}

/-- Cutting the ends off a text leaves a path when the text is a placeholder of it. -/
theorem statePath?_eq_some_iff_text : statePath? text = some path ↔
    text.toList = opening ++ ("state." ++ path).toList ++ ['\x7d'] ∧
      '\x7d' ∉ ("state." ++ path).toList := by
  constructor
  · intro h
    unfold statePath? at h
    obtain ⟨inner, hopen, h⟩ := Option.bind_eq_some_iff.mp h
    obtain ⟨body, hclose, h⟩ := Option.bind_eq_some_iff.mp h
    split at h
    case isTrue => nomatch h
    case isFalse hbrace =>
      obtain ⟨rest, hlead, hrest⟩ := Option.bind_eq_some_iff.mp h
      obtain rfl : String.ofList rest = path := Option.some.inj hrest
      have hbody : body = ("state." ++ String.ofList rest).toList := by
        rw [Text.stripLead_eq_some_iff.mp hlead, String.toList_append]
        exact congrArg ("state.".toList ++ ·) String.toList_ofList.symm
      have htext : text.toList = opening ++ (body ++ ['\x7d']) := by
        rw [← Text.stripTail_eq_some_iff.mp hclose]
        exact Text.stripLead_eq_some_iff.mp hopen
      rw [← hbody]
      exact ⟨htext.trans (List.append_assoc ..).symm, by simpa using hbrace⟩
  · rintro ⟨htext, hbrace⟩
    have hopen : Text.stripLead opening text.toList
        = some (("state." ++ path).toList ++ ['\x7d']) := by
      rw [htext, List.append_assoc, Text.stripLead_append]
    have hclose : Text.stripTail ['\x7d'] (("state." ++ path).toList ++ ['\x7d'])
        = some ("state." ++ path).toList := Text.stripTail_eq_some_iff.mpr rfl
    have hlead : Text.stripLead "state.".toList ("state." ++ path).toList = some path.toList := by
      rw [String.toList_append, Text.stripLead_append]
    have hinside : ("state." ++ path).toList.contains '\x7d' = false := by simpa using hbrace
    simp only [statePath?, hopen, hclose, hinside, hlead, Option.bind_eq_bind, Option.bind_some,
      Bool.false_eq_true, if_false, String.ofList_toList]

/-- A condition depends on a path of the state when a scan reads its text as the one placeholder of
that path. -/
theorem statePath?_eq_some_iff :
    statePath? text = some path ↔ scan text = [.hole ("state." ++ path).toList] := by
  rw [statePath?_eq_some_iff_text, ← leftmost_iff, leftmost_hole_iff]
  constructor
  · rintro ⟨htext, hbrace⟩
    have hne : ("state." ++ path).toList ≠ [] := by
      rw [String.toList_append]
      exact List.cons_ne_nil _ _
    exact ⟨htext, hne, hbrace⟩
  · exact fun hleads => ⟨hleads.text, hleads.unclosed⟩

/-- **Conditions agree with templates** on what a placeholder of the state is.  A text that is
nothing but one depends on the state: it is met when the value is truthy that the text shows as a
template; an absent value shows as nothing and is not met.  Any other text is met when there is
something of it, whatever it would show. -/
theorem admits_as_template (text : String) :
    (∀ path, statePath? text = some path ↔ scan text = [.hole ("state." ++ path).toList]) ∧
    (∀ path, scan text = [.hole ("state." ++ path).toList] →
      ∀ (state : Fields) (item event : Option Json),
        let scope : Scope := { state := some state, item, event }
        let value := Fields.lookup? (Path.ofString path) state
        admits scope (some (.expression text)) = value.elim false Json.truthy ∧
          scope.expand text = value.elim "" Json.display) ∧
    ((∀ path, scan text ≠ [.hole ("state." ++ path).toList]) →
      ∀ scope : Scope, admits scope (some (.expression text)) = true ↔ text ≠ "") := by
  refine ⟨fun path => statePath?_eq_some_iff, ?placeholder, ?other⟩
  case placeholder =>
    intro path hscan state item event scope value
    have hpath : statePath? text = some path := statePath?_eq_some_iff.mpr hscan
    have hvalue : scope.resolve ("state." ++ path).toList = value := scope.resolve_state path
    have hshown : scope.expand text = displayOption value := by
      rw [scope.expand_of_hole hscan, hvalue]
    have hmet : admits scope (some (.expression text)) = truthyOption value := by
      rw [admits, Option.all_some, holds, hpath]
      rfl
    rw [hshown, hmet]
    cases value <;> exact ⟨rfl, rfl⟩
  case other =>
    intro hscan scope
    have hpath : statePath? text = none := by
      refine Option.eq_none_iff_forall_ne_some.mpr fun path hsome => ?_
      exact hscan path (statePath?_eq_some_iff.mp hsome)
    rw [admits, Option.all_some, holds, hpath]
    simp

/-- A brace that opens inside a placeholder belongs to its path, and two placeholders in a row
depend on nothing. -/
theorem admits_as_template_braces :
    let nested := "$\x7bstate.$\x7ba\x7d"
    let twice := "$\x7bstate.a\x7d$\x7bstate.a\x7d"
    let state : Fields := [("a", .bool false), ("$\x7ba", .text "shown")]
    let scope : Scope := { state := some state, item := none, event := none }
    statePath? nested = some "$\x7ba" ∧ admits scope (some (.expression nested)) = true ∧
      scope.expand nested = "shown" ∧
      (∀ path, scan twice ≠ [.hole ("state." ++ path).toList]) ∧
      admits scope (some (.expression twice)) = true := by
  intro nested twice state scope
  have hnested : scan nested = [.hole ("state." ++ "$\x7ba").toList] := by decide +kernel
  obtain ⟨hpath, hplaceholder, -⟩ := admits_as_template nested
  obtain ⟨hmet, hshown⟩ := hplaceholder "$\x7ba" hnested state none none
  have htwice : ∀ path, scan twice ≠ [.hole ("state." ++ path).toList] := by
    intro path hscan
    have hlength : (scan twice).length = 2 := by decide +kernel
    rw [hscan] at hlength
    nomatch hlength
  refine ⟨(hpath _).mpr hnested, hmet.trans ?_, hshown.trans ?_, htwice, ?_⟩
  · decide +kernel
  · decide +kernel
  · exact ((admits_as_template twice).2.2 htwice scope).mpr (by decide)

end Condition

end ViewTree
