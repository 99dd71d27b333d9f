import Mathlib.Data.List.Infix
import ViewTree.Proofs.State.Template
import ViewTree.Proofs.Text.Split

/-!
# The law of expansion

A placeholder is `$` and a pair of braces around a body that is not empty and has no closing brace.
`Template.Leftmost` says how a text is cut at its placeholders: from left to right, each found at
the first place where one starts, the next one looked for behind it.  Scanning cuts this way and no
other way is possible (`Template.leftmost_iff`).

So two texts can be expanded apart from each other where no placeholder lies across their border
(`Template.Leftmost.append`), and a text without placeholders is not cut at all
(`Template.plain_of_no_placeholder`).  With what a body names (`Scope.Names`) this gives
`Scope.expansion_law`.
-/

namespace ViewTree

namespace Template

/-- A text starts with the placeholder of a body; `rest` is what follows it. -/
structure Leads (body rest cs : List Char) : Prop where
  text : cs = opening ++ body ++ '\x7d' :: rest
  nonempty : body ≠ []
  unclosed : '\x7d' ∉ body

/-- How a text is cut at its placeholders. -/
inductive Leftmost : List Char → List Piece → Prop where
  | done : Leftmost [] []
  | literal {c : Char} {cs : List Char} {pieces : List Piece}
      (h : ∀ body rest, ¬Leads body rest (c :: cs)) (htail : Leftmost cs pieces) :
      Leftmost (c :: cs) (.literal c :: pieces)
  | hole {body rest cs : List Char} {pieces : List Piece}
      (h : Leads body rest cs) (htail : Leftmost rest pieces) :
      Leftmost cs (.hole body :: pieces)

variable {as bs cs body rest : List Char} {pieces others : List Piece} {c : Char}

/-! ### A placeholder at the start of a text -/

namespace Leads

theorem ne_nil (h : Leads body rest cs) : cs ≠ [] := by
  rw [h.text]
  exact List.cons_ne_nil _ _

theorem head_eq (h : Leads body rest (c :: cs)) : c = '$' := (List.cons.inj h.text).1

theorem not_of_unclosed (h : '\x7d' ∉ cs) : ¬Leads body rest cs := by
  intro hleads
  rw [hleads.text] at h
  exact h (by simp)

/-- A text starts with at most one placeholder: its body ends at the first closing brace. -/
theorem unique {body' rest' : List Char} (h : Leads body rest cs) (h' : Leads body' rest' cs) :
    body = body' ∧ rest = rest' := by
  have htexts : opening ++ (body ++ '\x7d' :: rest) = opening ++ (body' ++ '\x7d' :: rest') := by
    rw [← List.append_assoc, ← List.append_assoc, ← h.text, ← h'.text]
  exact Text.append_cons_inj h.unclosed h'.unclosed (List.append_cancel_left htexts)

theorem append (h : Leads body rest cs) (bs : List Char) : Leads body (rest ++ bs) (cs ++ bs) where
  text := by rw [h.text]; simp
  nonempty := h.nonempty
  unclosed := h.unclosed

end Leads

/-! ### Scanning cuts at the placeholders -/

namespace Leftmost

theorem unique (h : Leftmost cs pieces) (h' : Leftmost cs others) : pieces = others := by
  induction h generalizing others with
  | done =>
    cases h' with
    | done => rfl
    | hole hleads _ => exact absurd rfl hleads.ne_nil
  | literal hnone _ ih =>
    cases h' with
    | literal _ htail => rw [ih htail]
    | hole hleads _ => exact absurd hleads (hnone _ _)
  | hole hleads _ ih =>
    cases h' with
    | done => exact absurd rfl hleads.ne_nil
    | literal hnone _ => exact absurd hleads (hnone _ _)
    | hole hleads' htail =>
      obtain ⟨rfl, rfl⟩ := hleads.unique hleads'
      rw [ih htail]

theorem of_unclosed (h : '\x7d' ∉ cs) : Leftmost cs (cs.map .literal) := by
  induction cs with
  | nil => exact .done
  | cons c cs ih =>
    exact .literal (fun _ _ => Leads.not_of_unclosed h)
      (ih fun hmem => h (List.mem_cons_of_mem c hmem))

/-- An empty pair of braces is no placeholder. -/
theorem of_empty (h : Leftmost cs pieces) :
    Leftmost (opening ++ '\x7d' :: cs) ((opening ++ ['\x7d']).map .literal ++ pieces) := by
  have hdollar : ∀ body rest, ¬Leads body rest (opening ++ '\x7d' :: cs) := by
    intro body rest hleads
    obtain ⟨c, body, rfl⟩ := List.exists_cons_of_ne_nil hleads.nonempty
    have hbrace : '\x7d' = c := (List.cons.inj (List.append_cancel_left hleads.text)).1
    exact hleads.unclosed (hbrace ▸ List.mem_cons_self)
  refine .literal hdollar (.literal ?_ (.literal ?_ h)) <;>
  · intro body rest hleads
    exact absurd hleads.head_eq (by decide)

end Leftmost

/-- Scanning cuts a text at its placeholders.  Inside an open placeholder, what has been read of it
belongs to the text.  By induction along the scan. -/
theorem leftmost_scanFrom (held : Option (List Char)) (cs : List Char)
    (hopen : ∀ body ∈ held, '\x7d' ∉ body) :
    Leftmost ((held.elim [] fun body => opening ++ body.reverse) ++ cs) (scanFrom held cs) := by
  cases cs with
  | nil =>
    cases held with
    | none => exact .done
    | some body =>
      have hunclosed : '\x7d' ∉ opening ++ body.reverse := by
        have hbody := hopen body rfl
        simpa [opening] using hbody
      rw [scanFrom]
      simpa using Leftmost.of_unclosed hunclosed
  | cons c cs =>
    cases held with
    | none =>
      -- Two characters open a placeholder; the scan then holds an empty body.
      by_cases hstart : ∃ rest, c = '$' ∧ cs = '\x7b' :: rest
      · obtain ⟨rest, rfl, rfl⟩ := hstart
        rw [scanFrom]
        exact leftmost_scanFrom (some []) rest (by simp)
      · rw [scanFrom]
        · refine .literal ?_ (leftmost_scanFrom none cs hopen)
          intro body rest hleads
          exact hstart ⟨body ++ '\x7d' :: rest, hleads.head_eq, (List.cons.inj hleads.text).2⟩
        · exact fun rest hc hcs => hstart ⟨rest, hc, hcs⟩
    | some body =>
      have hbody := hopen body rfl
      by_cases hclose : c = '\x7d'
      · subst hclose
        have hrest := leftmost_scanFrom none cs (by simp)
        -- An empty pair of braces stands for itself.
        by_cases hnil : body = []
        · subst hnil
          rw [scanFrom]
          exact .of_empty hrest
        · rw [scanFrom]
          · refine .hole ⟨rfl, ?_, ?_⟩ hrest
            · exact fun hreverse => hnil (List.reverse_eq_nil_iff.mp hreverse)
            · exact fun hmem => hbody (List.mem_reverse.mp hmem)
          · exact hnil
      · rw [scanFrom]
        · have hmore : '\x7d' ∉ c :: body :=
            List.not_mem_cons_of_ne_of_not_mem (Ne.symm hclose) hbody
          simpa using leftmost_scanFrom (some (c :: body)) cs (by simpa using hmore)
        · exact hclose
termination_by cs.length

/-- The pieces of a text are what lies at and between its placeholders. -/
theorem leftmost_iff {text : String} : Leftmost text.toList pieces ↔ scan text = pieces := by
  have hscan : Leftmost text.toList (scan text) := leftmost_scanFrom none text.toList (by simp)
  constructor
  · exact fun h => hscan.unique h
  · rintro rfl
    exact hscan

/-! ### Cutting two texts apart -/

/-- Every placeholder that is opened in a text is closed further on in it. -/
def Closed (cs : List Char) : Prop :=
  ∀ before after, cs = before ++ opening ++ after → '\x7d' ∈ after

/-- The two characters that open a placeholder stand on either side of the border of two texts. -/
def Straddles (as bs : List Char) : Prop := as.getLast? = some '$' ∧ bs.head? = some '\x7b'

theorem closed_iff :
    Closed cs ↔ ∀ tail ∈ cs.tails, opening <+: tail → '\x7d' ∈ tail := by
  constructor
  · rintro h tail htail ⟨after, rfl⟩
    obtain ⟨before, hbefore⟩ := (List.mem_tails _ _).mp htail
    exact List.mem_append_right _ (h before after (by rw [← hbefore, List.append_assoc]))
  · rintro h before after rfl
    have htail : opening ++ after ∈ (before ++ opening ++ after).tails :=
      (List.mem_tails _ _).mpr ⟨before, (List.append_assoc ..).symm⟩
    simpa [opening] using h _ htail (List.prefix_append _ _)

instance (cs : List Char) : Decidable (Closed cs) := decidable_of_iff _ closed_iff.symm

instance (as bs : List Char) : Decidable (Straddles as bs) :=
  inferInstanceAs (Decidable (as.getLast? = some '$' ∧ bs.head? = some '\x7b'))

theorem Closed.of_append (h : Closed (as ++ bs)) : Closed bs := by
  rintro before after rfl
  exact h (as ++ before) after (by simp)

theorem Straddles.append (h : Straddles bs cs) (as : List Char) : Straddles (as ++ bs) cs :=
  ⟨by rw [List.getLast?_append, h.1, Option.some_or], h.2⟩

/-- A placeholder that starts in a closed text ends in it. -/
theorem Leads.of_append (h : Leads body rest (c :: cs ++ bs)) (hclosed : Closed (c :: cs))
    (hborder : ¬Straddles (c :: cs) bs) : ∃ inner, Leads body inner (c :: cs) := by
  obtain rfl : c = '$' := h.head_eq
  have htext : cs ++ bs = '\x7b' :: (body ++ '\x7d' :: rest) := (List.cons.inj h.text).2
  cases cs with
  | nil => exact absurd ⟨rfl, by rw [← List.nil_append bs, htext, List.head?_cons]⟩ hborder
  | cons d ds =>
    obtain rfl : d = '\x7b' := (List.cons.inj htext).1
    have hbody : ds ++ bs = body ++ '\x7d' :: rest := (List.cons.inj htext).2
    -- The body ends at the first closing brace, and there is one before the border.
    have hbrace : '\x7d' ∈ ds := hclosed [] ds rfl
    obtain ⟨front, inner, rfl, hfront⟩ := List.eq_append_cons_of_mem hbrace
    rw [List.append_assoc] at hbody
    obtain ⟨rfl, -⟩ := Text.append_cons_inj hfront h.unclosed hbody
    exact ⟨inner, rfl, h.nonempty, h.unclosed⟩

/-- Two texts can be cut apart from each other, when no placeholder lies across their border. -/
theorem Leftmost.append (h : Leftmost as pieces) (h' : Leftmost bs others) (hclosed : Closed as)
    (hborder : ¬Straddles as bs) : Leftmost (as ++ bs) (pieces ++ others) := by
  induction h with
  | done => exact h'
  | @literal c cs pieces hnone _ ih =>
    have hrest : Closed cs := Closed.of_append (show Closed ([c] ++ cs) from hclosed)
    refine .literal ?_ (ih hrest fun hs => hborder (hs.append [c]))
    intro body rest hleads
    obtain ⟨inner, hinner⟩ := hleads.of_append hclosed hborder
    exact hnone body inner hinner
  | @hole body rest cs pieces hleads _ ih =>
    have htext : cs = (opening ++ body ++ ['\x7d']) ++ rest := by
      rw [hleads.text, List.append_cons]
    refine .hole (hleads.append bs) (ih ?_ fun hs => hborder ?_)
    · rw [htext] at hclosed
      exact hclosed.of_append
    · rw [htext]
      exact hs.append _

/-- A text is a single hole when it is a placeholder from its start to its end. -/
theorem leftmost_hole_iff : Leftmost cs [.hole body] ↔ Leads body [] cs := by
  constructor
  · rintro (_ | _ | ⟨hleads, htail⟩)
    cases htail with
    | done => exact hleads
  · exact fun hleads => .hole hleads .done

/-- A hole is found where there is a placeholder. -/
theorem Leftmost.exists_leads (h : Leftmost cs pieces) (hmem : .hole body ∈ pieces) :
    ∃ before after rest, cs = before ++ after ∧ Leads body rest after := by
  induction h with
  | done => exact absurd hmem List.not_mem_nil
  | @literal c cs pieces _ _ ih =>
    rcases List.mem_cons.mp hmem with hpiece | hmem
    · nomatch hpiece
    · obtain ⟨before, after, rest, rfl, hleads⟩ := ih hmem
      exact ⟨c :: before, after, rest, rfl, hleads⟩
  | @hole first rest cs pieces hfirst _ ih =>
    rcases List.mem_cons.mp hmem with hpiece | hmem
    · obtain rfl := Piece.hole.inj hpiece
      exact ⟨[], cs, rest, rfl, hfirst⟩
    · obtain ⟨before, after, rest, rfl, hleads⟩ := ih hmem
      exact ⟨opening ++ first ++ '\x7d' :: before, after, rest, by rw [hfirst.text]; simp, hleads⟩

/-- The placeholder with a body. -/
def placeholder (body : String) : String := "$\x7b" ++ body ++ "\x7d"

theorem toList_placeholder (body : String) :
    (placeholder body).toList = opening ++ body.toList ++ ['\x7d'] := by
  rw [placeholder, String.toList_append, String.toList_append]
  rfl

/-- A text without placeholders has no holes. -/
theorem plain_of_no_placeholder {text : String} (h : ∀ before body after : String,
    text = before ++ placeholder body ++ after → body = "" ∨ '\x7d' ∈ body.toList) :
    Plain text := by
  intro piece hpiece
  cases piece with
  | literal c => rfl
  | hole body =>
    obtain ⟨before, after, rest, htext, hleads⟩ :=
      (leftmost_iff.mpr rfl : Leftmost text.toList (scan text)).exists_leads hpiece
    have hsplit : text
        = String.ofList before ++ placeholder (String.ofList body) ++ String.ofList rest := by
      apply String.toList_injective
      rw [htext, hleads.text]
      simp [toList_placeholder]
    rcases h _ _ _ hsplit with hempty | hbrace
    · exact absurd (String.ofList_eq_empty_iff.mp hempty) hleads.nonempty
    · exact absurd (by simpa using hbrace) hleads.unclosed

theorem leftmost_placeholder_append {body : String} (hne : body ≠ "")
    (hbody : '\x7d' ∉ body.toList) (h : Leftmost rest pieces) :
    Leftmost ((placeholder body).toList ++ rest) (.hole body.toList :: pieces) := by
  have hnonempty : body.toList ≠ [] := fun hnil => hne (String.toList_eq_nil_iff.mp hnil)
  have htext : (placeholder body).toList ++ rest = opening ++ body.toList ++ '\x7d' :: rest := by
    rw [toList_placeholder, List.append_cons _ _ rest]
  exact .hole ⟨htext, hnonempty, hbody⟩ h

end Template

namespace Scope

open Template

variable (scope : Scope)

/-- What the body of a placeholder names: a value of the state, of the item or of the event, or
nothing. -/
inductive Names : String → Option Json → Prop where
  | state (path : String) :
      Names ("state." ++ path) (scope.state.bind (Fields.lookup? (Path.ofString path)))
  | member (path : String) : Names ("item." ++ path) (scope.item.bind (Json.lookup? path))
  | item : Names "item" scope.item
  | event (path : String) : Names ("event." ++ path) (scope.event.bind (Json.lookup? path))
  | nothing {body : String} (hstate : ∀ path, body ≠ "state." ++ path)
      (hmember : ∀ path, body ≠ "item." ++ path) (hitem : body ≠ "item")
      (hevent : ∀ path, body ≠ "event." ++ path) : Names body none

theorem names_resolve (body : String) : scope.Names body (scope.resolve body.toList) := by
  have hlead : ∀ {lead : String} {path : List Char},
      Text.stripLead lead.toList body.toList = some path → body = lead ++ String.ofList path := by
    intro lead path h
    apply String.toList_injective
    rw [Text.stripLead_eq_some_iff.mp h, String.toList_append, String.toList_ofList]
  have hnone : ∀ {lead : String}, Text.stripLead lead.toList body.toList = none →
      ∀ path, body ≠ lead ++ path := by
    rintro lead h path rfl
    rw [String.toList_append, Text.stripLead_append] at h
    nomatch h
  unfold resolve
  split
  case h_1 path h => rw [hlead h]; exact .state _
  case h_2 hstate =>
    split
    case h_1 path h => rw [hlead h]; exact .member _
    case h_2 hmember =>
      split
      case isTrue h => rw [String.toList_injective h]; exact .item
      case isFalse hitem =>
        split
        case h_1 path h => rw [hlead h]; exact .event _
        case h_2 hevent =>
          exact .nothing (hnone hstate) (hnone hmember) (fun h => hitem (h ▸ rfl)) (hnone hevent)

theorem expand_of_leftmost {text : String} {pieces : List Piece}
    (h : Leftmost text.toList pieces) :
    (scope.expand text).toList = pieces.flatMap scope.fill := by
  rw [expand, String.toList_ofList, leftmost_iff.mp h]

/-- Two texts are expanded apart from each other, when no placeholder lies across their border. -/
theorem expand_append {a b : String} (hclosed : Closed a.toList)
    (hborder : ¬Straddles a.toList b.toList) :
    scope.expand (a ++ b) = scope.expand a ++ scope.expand b := by
  have ha : Leftmost a.toList (scan a) := leftmost_iff.mpr rfl
  have hb : Leftmost b.toList (scan b) := leftmost_iff.mpr rfl
  have hab : Leftmost (a ++ b).toList (scan a ++ scan b) := by
    rw [String.toList_append]
    exact ha.append hb hclosed hborder
  apply String.toList_injective
  rw [scope.expand_of_leftmost hab, String.toList_append, scope.expand_of_leftmost ha,
    scope.expand_of_leftmost hb, List.flatMap_append]

theorem expand_placeholder_append {body : String} (hne : body ≠ "") (hbody : '\x7d' ∉ body.toList)
    (after : String) : scope.expand (placeholder body ++ after)
      = displayOption (scope.resolve body.toList) ++ scope.expand after := by
  have hafter : Leftmost after.toList (scan after) := leftmost_iff.mpr rfl
  have htext : Leftmost (placeholder body ++ after).toList (.hole body.toList :: scan after) := by
    rw [String.toList_append]
    exact leftmost_placeholder_append hne hbody hafter
  apply String.toList_injective
  rw [scope.expand_of_leftmost htext, String.toList_append, scope.expand_of_leftmost hafter,
    List.flatMap_cons, fill]

/-- The law of expansion.  Two texts expand apart from each other, when every placeholder opened in
the first is closed in it and none is opened across their border.  A placeholder expands to the
display text of what its body names, alone or inside a text, whatever that display text looks like.
A text without placeholders stays as it is. -/
theorem expansion_law :
    (∀ a b : String, Closed a.toList → ¬Straddles a.toList b.toList →
      scope.expand (a ++ b) = scope.expand a ++ scope.expand b) ∧
    (∀ body : String, body ≠ "" → '\x7d' ∉ body.toList → ∃ value, scope.Names body value ∧
      scope.expand (placeholder body) = displayOption value ∧
      ∀ before after : String, Closed before.toList →
        scope.expand (before ++ placeholder body ++ after)
          = scope.expand before ++ displayOption value ++ scope.expand after) ∧
    ∀ text : String, (∀ before body after : String,
      text = before ++ placeholder body ++ after → body = "" ∨ '\x7d' ∈ body.toList) →
      scope.expand text = text := by
  refine ⟨fun a b => scope.expand_append, ?placeholders, ?plain⟩
  case placeholders =>
    intro body hne hbody
    refine ⟨scope.resolve body.toList, scope.names_resolve body, ?alone, ?inside⟩
    case alone =>
      have halone := scope.expand_placeholder_append hne hbody ""
      rw [String.append_empty] at halone
      exact halone.trans String.append_empty
    case inside =>
      intro before after hclosed
      -- A placeholder starts with `$`, so none is opened across the border before it.
      have hborder : ¬Straddles before.toList (placeholder body ++ after).toList := by
        rw [String.toList_append, toList_placeholder]
        exact fun hstraddles => absurd hstraddles.2 (by simp [opening])
      rw [String.append_assoc, scope.expand_append hclosed hborder,
        scope.expand_placeholder_append hne hbody, String.append_assoc]
  case plain => exact fun text h => scope.expand_of_plain (plain_of_no_placeholder h)

/-- An empty pair of braces, and a value of the state that looks like a placeholder itself. -/
theorem expansion_law_nested :
    let scope : Scope := { state := some [("a", .text "$\x7bstate.b\x7d"), ("b", .text "x")] }
    Closed "$\x7b\x7d $".toList ∧
      ¬Straddles "$\x7b\x7d $".toList "$\x7bstate.a\x7d!".toList ∧
      scope.expand ("$\x7b\x7d $" ++ "$\x7bstate.a\x7d!") = "$\x7b\x7d $$\x7bstate.b\x7d!" ∧
      scope.expand ("$\x7b\x7d $" ++ placeholder "state.a" ++ "!")
        = "$\x7b\x7d $$\x7bstate.b\x7d!" ∧
      scope.expand "100 $" = "100 $" := by
  intro scope
  obtain ⟨happend, hplaceholder, hplain⟩ := scope.expansion_law
  have hclosed : Closed "$\x7b\x7d $".toList := by decide +kernel
  have hborder : ¬Straddles "$\x7b\x7d $".toList "$\x7bstate.a\x7d!".toList := by decide +kernel
  obtain ⟨value, -, halone, hinside⟩ := hplaceholder "state.a" (by decide) (by decide +kernel)
  have hvalue : displayOption value = "$\x7bstate.b\x7d" :=
    halone.symm.trans (by decide +kernel)
  have hempty : scope.expand "$\x7b\x7d $" = "$\x7b\x7d $" := by decide +kernel
  refine ⟨hclosed, hborder, ?_, ?_, hplain _ ?_⟩
  · rw [happend _ _ hclosed hborder, hempty]
    decide +kernel
  · rw [hinside _ _ hclosed, hvalue, hempty]
    decide +kernel
  · intro before body after htext
    have hbrace : '\x7b' ∈ "100 $".toList := by
      rw [htext]
      simp [toList_placeholder, opening]
    exact absurd hbrace (by decide +kernel)

end Scope

end ViewTree
