import Mathlib.Data.List.Nodup
import ViewTree.Terminal.Drawing

/-!
# Controls in a drawing

The selects and buttons of a view are its controls.  A drawing is put together from pieces, each a
control or a line that shows none (`drawLines_eq`); the pieces do not depend on the cursor, which
only says which control has the focus.

A control stands in the open when the elements above it show their children.  The controls in the
open are those that are drawn (`controls_layout`), and the one with the focus is drawn with the only
highlighted line there is (`highlighted_once`).
-/

namespace ViewTree.Terminal

/-! ### Controls and what stands above them -/

mutual

/-- The controls under an element in tree order, itself included, each with the elements above it,
the nearest first; `above` are those above the element. -/
def trailsUnder (above : List Element) : Element → List (List Element × Element)
  | ⟨kind, key, props, children⟩ =>
    let element : Element := ⟨kind, key, props, children⟩
    (if isFocusable element then [(above, element)] else []) ++ trailsIn (element :: above) children

/-- The controls in a list of children. -/
def trailsIn (above : List Element) : List Content → List (List Element × Element)
  | [] => []
  | child :: children => trailsOf above child ++ trailsIn above children

/-- The controls in a child. -/
def trailsOf (above : List Element) : Content → List (List Element × Element)
  | .element element => trailsUnder above element
  | .literal _ => []

end

/-- The controls of a view in tree order, each with the elements above it. -/
def trails (roots : List Element) : List (List Element × Element) :=
  roots.flatMap (trailsUnder [])

/-- Whether an element shows its children; any other is drawn as a line or two of its own. -/
def showsChildren (element : Element) : Bool :=
  match look element with
  | .nested _ => true
  | _ => false

/-- The elements above a control all show their children. -/
def InTheOpen (roots : List Element) (number : Nat) : Prop :=
  ∀ entry ∈ (trails roots)[number]?, entry.1.all showsChildren = true

instance (roots : List Element) (number : Nat) : Decidable (InTheOpen roots number) :=
  inferInstanceAs (Decidable (∀ entry ∈ (trails roots)[number]?, entry.1.all showsChildren = true))

mutual

theorem map_trailsUnder (above : List Element) :
    ∀ element, (trailsUnder above element).map Prod.snd = focusablesUnder element
  | ⟨kind, key, props, children⟩ => by
    rw [trailsUnder, focusablesUnder, List.map_append, map_trailsIn]
    split <;> rfl

theorem map_trailsIn (above : List Element) :
    ∀ children, (trailsIn above children).map Prod.snd = focusablesIn children
  | [] => rfl
  | child :: children => by
    rw [trailsIn, focusablesIn, List.map_append, map_trailsOf, map_trailsIn]

theorem map_trailsOf (above : List Element) :
    ∀ child, (trailsOf above child).map Prod.snd = focusablesOf child
  | .element element => map_trailsUnder above element
  | .literal _ => rfl

end

theorem length_trailsUnder (above : List Element) (element : Element) :
    (trailsUnder above element).length = (focusablesUnder element).length := by
  rw [← map_trailsUnder above element, List.length_map]

theorem length_trailsOf (above : List Element) (child : Content) :
    (trailsOf above child).length = (focusablesOf child).length := by
  rw [← map_trailsOf above child, List.length_map]

theorem map_trails (roots : List Element) : (trails roots).map Prod.snd = focusables roots := by
  rw [trails, List.map_flatMap, focusables]
  exact List.flatMap_congr fun element _ => map_trailsUnder [] element

/-! ### Pieces of a drawing -/

/-- A piece of a drawing. -/
inductive Piece where
  /-- A control at a level, with the number of controls before it in tree order. -/
  | control (number level : Nat) (element : Element)
  /-- A line that shows no control. -/
  | plain (line : Line)

/-- The lines of a control. -/
def controlLines (cursor : Cursor) (level : Nat) (focused : Bool) (element : Element) : List Line :=
  if element.kind = "Select" then selectLines level focused cursor element
  else [buttonLine level focused element]

namespace Piece

/-- The lines of a piece. -/
def lines (cursor : Cursor) : Piece → List Line
  | control number level element => controlLines cursor level (number == cursor.focus) element
  | plain line => [line]

/-- The number of a control and the control. -/
def control? : Piece → Option (Element × Nat)
  | control number _ element => some (element, number)
  | plain _ => none

end Piece

mutual

/-- The pieces of an element at a level, when `before` controls stand before it in tree order. -/
def piecesUnder (level before : Nat) : Element → List Piece
  | ⟨kind, key, props, children⟩ =>
    let element : Element := ⟨kind, key, props, children⟩
    match look element with
    | .title => [.plain (titleLine level element)]
    | .alert => [.plain (alertLine level element)]
    | .button | .select => [.control before level element]
    | .row => [.plain (rowLine level element)]
    | .nested card =>
      let text := ownText element
      (if text.isEmpty then [] else [.plain (Line.plain (pad level ++ text))])
        ++ piecesIn (if card then level + 1 else level) before children
        ++ (if card then [.plain []] else [])

/-- The pieces of the elements in a list of children. -/
def piecesIn (level before : Nat) : List Content → List Piece
  | [] => []
  | child :: children =>
    piecesOf level before child ++ piecesIn level (before + (focusablesOf child).length) children

/-- The pieces of a child that is an element. -/
def piecesOf (level before : Nat) : Content → List Piece
  | .element element => piecesUnder level before element
  | .literal _ => []

end

/-- The pieces of a list of roots, when `before` controls stand before them. -/
def layoutFrom : Nat → List Element → List Piece
  | _, [] => []
  | before, root :: roots =>
    piecesUnder 0 before root ++ layoutFrom (before + (focusablesUnder root).length) roots

/-- The pieces of a rendered view. -/
def layout (roots : List Element) : List Piece := layoutFrom 0 roots

theorem controlLines_of_button {element : Element} (h : look element = .button) (cursor : Cursor)
    (level : Nat) (focused : Bool) :
    controlLines cursor level focused element = [buttonLine level focused element] := by
  have hkind : element.kind ≠ "Select" := by
    unfold look at h
    grind
  exact if_neg hkind

theorem kind_of_look_select {element : Element} (h : look element = .select) :
    element.kind = "Select" := by
  unfold look at h
  grind

theorem controlLines_of_select {element : Element} (h : look element = .select) (cursor : Cursor)
    (level : Nat) (focused : Bool) :
    controlLines cursor level focused element = selectLines level focused cursor element :=
  if_pos (kind_of_look_select h)

mutual

theorem drawElement_eq (cursor : Cursor) (level before : Nat) : ∀ element,
    drawElement cursor level before element
      = (piecesUnder level before element).flatMap (Piece.lines cursor)
  | ⟨kind, key, props, children⟩ => by
    rw [drawElement, piecesUnder]
    dsimp only
    cases hlook : look ⟨kind, key, props, children⟩ with
    | button =>
      refine Eq.trans ?_ (List.flatMap_singleton ..).symm
      exact (controlLines_of_button hlook cursor level _).symm
    | select =>
      refine Eq.trans ?_ (List.flatMap_singleton ..).symm
      exact (controlLines_of_select hlook cursor level _).symm
    | nested card =>
      dsimp only
      rw [List.flatMap_append, List.flatMap_append, drawContents_eq]
      congr 1
      · congr 1
        split <;> rfl
      · cases card <;> rfl
    | _ => rfl

theorem drawContents_eq (cursor : Cursor) (level before : Nat) : ∀ children,
    drawContents cursor level before children
      = (piecesIn level before children).flatMap (Piece.lines cursor)
  | [] => rfl
  | child :: children => by
    rw [drawContents, piecesIn, List.flatMap_append, drawContent_eq, drawContents_eq]

theorem drawContent_eq (cursor : Cursor) (level before : Nat) : ∀ child,
    drawContent cursor level before child
      = (piecesOf level before child).flatMap (Piece.lines cursor)
  | .element element => drawElement_eq cursor level before element
  | .literal _ => rfl

end

theorem drawRoots_eq (cursor : Cursor) (before : Nat) (roots : List Element) :
    drawRoots cursor before roots = (layoutFrom before roots).flatMap (Piece.lines cursor) := by
  induction roots generalizing before with
  | nil => rfl
  | cons root roots ih => rw [drawRoots, layoutFrom, List.flatMap_append, drawElement_eq, ih]

/-- **A drawing is made of its pieces**, which do not depend on the cursor. -/
theorem drawLines_eq (roots : List Element) (cursor : Cursor) :
    drawLines roots cursor = (layout roots).flatMap (Piece.lines cursor) :=
  drawRoots_eq cursor 0 roots

/-! ### Which controls are drawn -/

theorem isFocusable_iff (element : Element) :
    isFocusable element = true ↔ look element = .button ∨ look element = .select := by
  unfold isFocusable look
  grind

theorem showsChildren_iff (element : Element) :
    showsChildren element = true ↔ ∃ card, look element = .nested card := by
  unfold showsChildren
  split <;> simp_all

/-- Whether a numbered control stands in the open. -/
def isOpen (entry : (List Element × Element) × Nat) : Bool := entry.1.1.all showsChildren

/-- A numbered control without the elements above it. -/
def withoutTrail (entry : (List Element × Element) × Nat) : Element × Nat := (entry.1.2, entry.2)

/-- The controls among numbered ones that stand in the open. -/
def openControls (before : Nat) (entries : List (List Element × Element)) : List (Element × Nat) :=
  ((entries.zipIdx before).filter isOpen).map withoutTrail

theorem openControls_append (before : Nat) (first second : List (List Element × Element)) :
    openControls before (first ++ second)
      = openControls before first ++ openControls (before + first.length) second := by
  rw [openControls, List.zipIdx_append, List.filter_append, List.map_append]
  rfl

mutual

theorem suffix_of_mem_trailsUnder {above : List Element} {entry : List Element × Element} :
    ∀ element, entry ∈ trailsUnder above element → above <:+ entry.1
  | ⟨kind, key, props, children⟩, h => by
    rw [trailsUnder] at h
    rcases List.mem_append.mp h with h | h
    · split at h
      · exact List.mem_singleton.mp h ▸ List.suffix_rfl
      · exact absurd h List.not_mem_nil
    · exact (List.suffix_cons _ above).trans (suffix_of_mem_trailsIn children h)

theorem suffix_of_mem_trailsIn {above : List Element} {entry : List Element × Element} :
    ∀ children, entry ∈ trailsIn above children → above <:+ entry.1
  | [], h => absurd h List.not_mem_nil
  | child :: children, h => by
    rw [trailsIn] at h
    rcases List.mem_append.mp h with h | h
    · exact suffix_of_mem_trailsOf child h
    · exact suffix_of_mem_trailsIn children h

theorem suffix_of_mem_trailsOf {above : List Element} {entry : List Element × Element} :
    ∀ child, entry ∈ trailsOf above child → above <:+ entry.1
  | .element element, h => suffix_of_mem_trailsUnder element h
  | .literal _, h => absurd h List.not_mem_nil

end

/-- Under an element that does not show its children no control stands in the open. -/
theorem openControls_trailsIn_eq_nil {above : List Element} {element : Element}
    (h : showsChildren element = false) (before : Nat) (children : List Content) :
    openControls before (trailsIn (element :: above) children) = [] := by
  have hnone : ((trailsIn (element :: above) children).zipIdx before).filter isOpen = [] := by
    refine List.filter_eq_nil_iff.mpr fun entry hmem hopen => ?_
    -- The element is among those above each of these controls.
    have hsuffix := suffix_of_mem_trailsIn children (List.fst_mem_of_mem_zipIdx hmem)
    have hshows := List.all_eq_true.mp hopen element (hsuffix.subset List.mem_cons_self)
    exact Bool.false_ne_true (h.symm.trans hshows)
  rw [openControls, hnone, List.map_nil]

theorem openControls_trailsUnder {above : List Element} {element : Element}
    (habove : above.all showsChildren = true) (h : showsChildren element = false) (before : Nat) :
    openControls before (trailsUnder above element)
      = if isFocusable element then [(element, before)] else [] := by
  obtain ⟨kind, key, props, children⟩ := element
  rw [trailsUnder, openControls_append, openControls_trailsIn_eq_nil h, List.append_nil]
  split
  · simp [openControls, isOpen, withoutTrail, habove]
  · rfl

mutual

theorem controls_piecesUnder {above : List Element} (level before : Nat)
    (h : above.all showsChildren = true) : ∀ element,
      (piecesUnder level before element).filterMap Piece.control?
        = openControls before (trailsUnder above element)
  | ⟨kind, key, props, children⟩ => by
    have hfocusable := isFocusable_iff ⟨kind, key, props, children⟩
    have hshows := showsChildren_iff ⟨kind, key, props, children⟩
    rw [piecesUnder]
    cases hlook : look ⟨kind, key, props, children⟩ with
    | nested card =>
      rw [hlook] at hfocusable hshows
      have habove : (⟨kind, key, props, children⟩ :: above).all showsChildren = true := by
        rw [List.all_cons, hshows.mpr ⟨card, rfl⟩, h]
        rfl
      -- Neither the text of the element nor the blank line after a card is a control.
      have htext : ∀ text : String, (if text.isEmpty then []
          else [Piece.plain (Line.plain (pad level ++ text))]).filterMap Piece.control? = [] := by
        intro text
        split <;> rfl
      have hblank : (if card then [Piece.plain []] else []).filterMap Piece.control? = [] := by
        split <;> rfl
      dsimp only
      rw [List.filterMap_append, List.filterMap_append, htext, hblank, List.nil_append,
        List.append_nil, controls_piecesIn _ before habove, trailsUnder,
        if_neg (by simp [hfocusable]), List.nil_append]
    | _ =>
      rw [hlook] at hfocusable hshows
      rw [openControls_trailsUnder h (by simp [← Bool.not_eq_true, hshows])]
      simp [hfocusable, Piece.control?]

theorem controls_piecesIn {above : List Element} (level before : Nat)
    (h : above.all showsChildren = true) : ∀ children,
      (piecesIn level before children).filterMap Piece.control?
        = openControls before (trailsIn above children)
  | [] => rfl
  | child :: children => by
    rw [piecesIn, trailsIn, List.filterMap_append, openControls_append, length_trailsOf,
      controls_piecesOf level before h, controls_piecesIn level _ h]

theorem controls_piecesOf {above : List Element} (level before : Nat)
    (h : above.all showsChildren = true) : ∀ child,
      (piecesOf level before child).filterMap Piece.control?
        = openControls before (trailsOf above child)
  | .element element => controls_piecesUnder level before h element
  | .literal _ => rfl

end

theorem controls_layoutFrom (before : Nat) (roots : List Element) :
    (layoutFrom before roots).filterMap Piece.control? = openControls before (trails roots) := by
  induction roots generalizing before with
  | nil => rfl
  | cons root roots ih =>
    have htrails : trails (root :: roots) = trailsUnder [] root ++ trails roots :=
      List.flatMap_cons
    have hnone : ([] : List Element).all showsChildren = true := rfl
    rw [layoutFrom, List.filterMap_append, controls_piecesUnder 0 before hnone, ih, htrails,
      openControls_append, length_trailsUnder]

/-- **The controls that are drawn are those in the open**, in tree order. -/
theorem controls_layout (roots : List Element) :
    (layout roots).filterMap Piece.control? = openControls 0 (trails roots) :=
  controls_layoutFrom 0 roots

/-- The numbers of the controls among pieces. -/
def numbers (pieces : List Piece) : List Nat := (pieces.filterMap Piece.control?).map Prod.snd

/-- A control is drawn once at most. -/
theorem nodup_numbers (roots : List Element) : (numbers (layout roots)).Nodup := by
  have hsub : (((trails roots).zipIdx.filter isOpen).map Prod.snd).Sublist
      ((trails roots).zipIdx.map Prod.snd) := List.filter_sublist.map _
  rw [numbers, controls_layout, openControls, List.map_map]
  refine List.Nodup.sublist hsub ?_
  -- They are some of the numbers from 0 on.
  rw [List.zipIdx_map_snd]
  exact List.nodup_range'

theorem mem_controls_iff {roots : List Element} {control : Element} {number : Nat} :
    (control, number) ∈ (layout roots).filterMap Piece.control? ↔
      (focusables roots)[number]? = some control ∧ InTheOpen roots number := by
  rw [controls_layout, openControls, ← map_trails, List.getElem?_map]
  constructor
  · intro h
    obtain ⟨⟨⟨trail, element⟩, index⟩, hmem, heq⟩ := List.mem_map.mp h
    obtain ⟨rfl, rfl⟩ := Prod.mk.inj heq
    obtain ⟨hmem, hopen⟩ := List.mem_filter.mp hmem
    have hget : (trails roots)[index]? = some (trail, element) :=
      List.mem_zipIdx_iff_getElem?.mp hmem
    refine ⟨by rw [hget]; rfl, ?_⟩
    intro entry hentry
    obtain rfl := Option.some.inj (hget.symm.trans hentry)
    exact hopen
  · rintro ⟨hcontrol, hopen⟩
    obtain ⟨⟨trail, element⟩, hget, rfl⟩ := Option.map_eq_some_iff.mp hcontrol
    have hmem : ((trail, element), number) ∈ (trails roots).zipIdx.filter isOpen :=
      List.mem_filter.mpr ⟨List.mem_zipIdx_iff_getElem?.mpr hget, hopen _ hget⟩
    exact List.mem_map_of_mem (f := withoutTrail) hmem

theorem mem_controls_of_mem {pieces : List Piece} {number level : Nat} {control : Element}
    (h : .control number level control ∈ pieces) :
    (control, number) ∈ pieces.filterMap Piece.control? :=
  List.mem_filterMap.mpr ⟨_, h, rfl⟩

theorem mem_numbers_iff {pieces : List Piece} {number : Nat} : number ∈ numbers pieces ↔
    ∃ level control, .control number level control ∈ pieces := by
  constructor
  · intro h
    obtain ⟨⟨control, other⟩, hmem, rfl⟩ := List.mem_map.mp h
    obtain ⟨piece, hpiece, hcontrol⟩ := List.mem_filterMap.mp hmem
    cases piece with
    | control number level element =>
      obtain ⟨rfl, rfl⟩ := Prod.mk.inj (Option.some.inj hcontrol)
      exact ⟨level, element, hpiece⟩
    | plain line => cases hcontrol
  · rintro ⟨level, control, hmem⟩
    exact List.mem_map_of_mem (mem_controls_of_mem hmem)

/-- A control is drawn when it stands in the open. -/
theorem exists_mem_layout_iff {roots : List Element} {number : Nat} :
    (∃ level control, .control number level control ∈ layout roots) ↔
      number < (focusables roots).length ∧ InTheOpen roots number := by
  constructor
  · rintro ⟨level, control, hmem⟩
    have hcontrol := mem_controls_iff.mp (mem_controls_of_mem hmem)
    exact ⟨(List.getElem?_eq_some_iff.mp hcontrol.1).1, hcontrol.2⟩
  · rintro ⟨hnumber, hopen⟩
    have hmem := mem_controls_iff.mpr ⟨List.getElem?_eq_getElem hnumber, hopen⟩
    exact mem_numbers_iff.mp (List.mem_map_of_mem hmem)

/-! ### The highlighted line -/

/-- Whether a line is drawn as having the focus: reversed, or marked and in the colour of the
focus. -/
def isHighlighted (line : Line) : Bool :=
  line.any (fun span => span.style.reversed) ||
    line.head?.any (fun span => span.text.toList.contains '▸')
      && line.any (fun span => span.style == .strong .cyan)

/-- The line that shows that a control has the focus. -/
def focusLine (cursor : Cursor) (level : Nat) (element : Element) : Line :=
  if element.kind = "Select" then
    [{ text := pad level ++ "▸ " },
      { text := "< " ++ selectText true cursor element ++ " >", style := .strong .cyan }]
  else buttonLine level true element

theorem isHighlighted_eq_false {line : Line}
    (h : ∀ span ∈ line, span.style.reversed = false ∧ span.style ≠ .strong .cyan) :
    isHighlighted line = false := by
  have hreversed : line.any (fun span => span.style.reversed) = false :=
    List.any_eq_false.mpr fun span hmem => by simp [(h span hmem).1]
  have hcyan : line.any (fun span => span.style == .strong .cyan) = false :=
    List.any_eq_false.mpr fun span hmem => by simp [(h span hmem).2]
  rw [isHighlighted, hreversed, hcyan, Bool.and_false]
  rfl

theorem contains_pad (level : Nat) : (pad level).toList.contains '▸' = false := by
  rw [pad, String.toList_ofList]
  simp

theorem isHighlighted_titleLine (level : Nat) (element : Element) :
    isHighlighted (titleLine level element) = false := by
  have hhead : (titleLine level element).head?.any
      (fun span => span.text.toList.contains '▸') = false := contains_pad level
  rw [isHighlighted, hhead, Bool.false_and, Bool.or_false]
  rfl

theorem isHighlighted_alertLine (level : Nat) (element : Element) :
    isHighlighted (alertLine level element) = false := by
  refine isHighlighted_eq_false ?_
  unfold alertLine
  split
  simp [Style.plain, Style.colored, Style.strong]

theorem isHighlighted_rowLine (level : Nat) (element : Element) :
    isHighlighted (rowLine level element) = false := by
  refine isHighlighted_eq_false ?_
  simp [rowLine, Style.plain, Style.strong]

theorem isHighlighted_plain (text : String) : isHighlighted (Line.plain text) = false := by
  refine isHighlighted_eq_false ?_
  simp [Line.plain, Style.plain, Style.strong]

theorem isHighlighted_focusLine (cursor : Cursor) (level : Nat) (element : Element) :
    isHighlighted (focusLine cursor level element) = true := by
  unfold focusLine
  split
  · simp [isHighlighted, Style.plain, Style.strong]
  · rfl

/-- The line below a select that shows its error, if it has one. -/
def errorLines (level : Nat) (select : Element) : List Line :=
  ((select.prop "error").filter Json.truthy).toList.map fun value =>
    [{ text := pad level ++ "  " ++ value.display, style := .colored .red }]

theorem filter_errorLines (level : Nat) (select : Element) :
    (errorLines level select).filter isHighlighted = [] := by
  refine List.filter_eq_nil_iff.mpr fun line hmem => ?_
  obtain ⟨value, -, rfl⟩ := List.mem_map.mp hmem
  refine Bool.not_eq_true _ ▸ isHighlighted_eq_false ?_
  simp [Style.colored, Style.strong]

theorem filter_controlLines_focused (cursor : Cursor) (level : Nat) (element : Element) :
    (controlLines cursor level true element).filter isHighlighted
      = [focusLine cursor level element] := by
  have hfocus := isHighlighted_focusLine cursor level element
  by_cases hkind : element.kind = "Select"
  · have hlines : controlLines cursor level true element
        = focusLine cursor level element :: errorLines level element := by
      rw [controlLines, focusLine, if_pos hkind, if_pos hkind]
      rfl
    rw [hlines, List.filter_cons_of_pos hfocus, filter_errorLines]
  · have hlines : controlLines cursor level true element = [focusLine cursor level element] := by
      rw [controlLines, focusLine, if_neg hkind, if_neg hkind]
    rw [hlines, List.filter_cons_of_pos hfocus]
    rfl

theorem filter_controlLines_unfocused (cursor : Cursor) (level : Nat) (element : Element) :
    (controlLines cursor level false element).filter isHighlighted = [] := by
  by_cases hkind : element.kind = "Select"
  · let line : Line := [{ text := pad level ++ "  " },
      { text := "< " ++ selectText false cursor element ++ " >" }]
    have hlines : controlLines cursor level false element = line :: errorLines level element :=
      if_pos hkind
    have hline : isHighlighted line = false :=
      isHighlighted_eq_false (by simp [line, Style.plain, Style.strong])
    rw [hlines, List.filter_cons_of_neg (by simp [hline]), filter_errorLines]
  · have hline : isHighlighted (buttonLine level false element) = false :=
      isHighlighted_eq_false (by simp [buttonLine, Style.plain, Style.colored, Style.strong])
    rw [controlLines, if_neg hkind, List.filter_cons_of_neg (by simp [hline])]
    rfl

mutual

/-- A line that shows no control is not highlighted. -/
theorem plain_of_mem_piecesUnder {level before : Nat} {line : Line} : ∀ element,
    .plain line ∈ piecesUnder level before element → isHighlighted line = false
  | ⟨kind, key, props, children⟩, h => by
    rw [piecesUnder] at h
    cases hlook : look ⟨kind, key, props, children⟩ with
    | title =>
      simp only [hlook, List.mem_singleton, Piece.plain.injEq] at h
      exact h ▸ isHighlighted_titleLine level _
    | alert =>
      simp only [hlook, List.mem_singleton, Piece.plain.injEq] at h
      exact h ▸ isHighlighted_alertLine level _
    | button => simp [hlook] at h
    | select => simp [hlook] at h
    | row =>
      simp only [hlook, List.mem_singleton, Piece.plain.injEq] at h
      exact h ▸ isHighlighted_rowLine level _
    | nested card =>
      simp only [hlook, List.mem_append] at h
      rcases h with (htext | hchildren) | hblank
      · split at htext
        · exact absurd htext List.not_mem_nil
        · rw [Piece.plain.inj (List.mem_singleton.mp htext)]
          exact isHighlighted_plain _
      · exact plain_of_mem_piecesIn children hchildren
      · split at hblank
        · rw [Piece.plain.inj (List.mem_singleton.mp hblank)]
          rfl
        · exact absurd hblank List.not_mem_nil

theorem plain_of_mem_piecesIn {level before : Nat} {line : Line} : ∀ children,
    .plain line ∈ piecesIn level before children → isHighlighted line = false
  | [], h => absurd h List.not_mem_nil
  | child :: children, h => by
    rw [piecesIn] at h
    rcases List.mem_append.mp h with h | h
    · exact plain_of_mem_piecesOf child h
    · exact plain_of_mem_piecesIn children h

theorem plain_of_mem_piecesOf {level before : Nat} {line : Line} : ∀ child,
    .plain line ∈ piecesOf level before child → isHighlighted line = false
  | .element element, h => plain_of_mem_piecesUnder element h
  | .literal _, h => absurd h List.not_mem_nil

end

theorem plain_of_mem_layoutFrom {before : Nat} {line : Line} {roots : List Element}
    (h : .plain line ∈ layoutFrom before roots) : isHighlighted line = false := by
  induction roots generalizing before with
  | nil => exact absurd h List.not_mem_nil
  | cons root roots ih =>
    rcases List.mem_append.mp h with h | h
    · exact plain_of_mem_piecesUnder root h
    · exact ih h

variable {roots : List Element} {cursor : Cursor}

/-- Pieces among which the control with the focus is not have no highlighted line. -/
theorem filter_lines_eq_nil {pieces : List Piece} (hmem : pieces ⊆ layout roots)
    (hother : ∀ level control, .control cursor.focus level control ∉ pieces) :
    (pieces.flatMap (Piece.lines cursor)).filter isHighlighted = [] := by
  rw [List.filter_flatMap, List.flatMap_eq_nil_iff]
  intro piece hpiece
  cases piece with
  | control number level control =>
    have hnumber : (number == cursor.focus) = false := by
      refine beq_eq_false_iff_ne.mpr ?_
      rintro rfl
      exact hother level control hpiece
    rw [Piece.lines, hnumber, filter_controlLines_unfocused]
  | plain line =>
    have hplain : isHighlighted line = false := plain_of_mem_layoutFrom (hmem hpiece)
    rw [Piece.lines, List.filter_cons_of_neg (by simp [hplain])]
    rfl

/-- The control with the focus, where it is drawn, has the only highlighted line. -/
theorem exists_drawLines_eq {level : Nat} {control : Element}
    (h : .control cursor.focus level control ∈ layout roots) :
    ∃ before after,
      drawLines roots cursor = before ++ controlLines cursor level true control ++ after ∧
      (drawLines roots cursor).filter isHighlighted = [focusLine cursor level control] := by
  obtain ⟨first, last, hsplit⟩ := List.append_of_mem h
  have hnumbers : numbers (layout roots) = numbers first ++ cursor.focus :: numbers last := by
    rw [hsplit, numbers, List.filterMap_append, List.map_append]
    rfl
  -- No other piece is a control of that number.
  have hnew : cursor.focus ∉ numbers first ++ numbers last := by
    have hnodup := nodup_numbers roots
    rw [hnumbers, List.nodup_middle] at hnodup
    exact (List.nodup_cons.mp hnodup).1
  have hfirst : ∀ level control, .control cursor.focus level control ∉ first := fun _ _ hmem =>
    hnew (List.mem_append_left _ (mem_numbers_iff.mpr ⟨_, _, hmem⟩))
  have hlast : ∀ level control, .control cursor.focus level control ∉ last := fun _ _ hmem =>
    hnew (List.mem_append_right _ (mem_numbers_iff.mpr ⟨_, _, hmem⟩))
  have hfirstSub : first ⊆ layout roots := hsplit ▸ List.subset_append_left first _
  have hlastSub : last ⊆ layout roots := by
    rw [hsplit]
    exact fun _ hmem => List.mem_append_right _ (List.mem_cons_of_mem _ hmem)
  have hlines : drawLines roots cursor = first.flatMap (Piece.lines cursor)
      ++ controlLines cursor level true control ++ last.flatMap (Piece.lines cursor) := by
    rw [drawLines_eq, hsplit, List.flatMap_append, List.flatMap_cons, Piece.lines, beq_self_eq_true,
      List.append_assoc]
  refine ⟨_, _, hlines, ?_⟩
  rw [hlines, List.filter_append, List.filter_append, filter_lines_eq_nil hfirstSub hfirst,
    filter_controlLines_focused, filter_lines_eq_nil hlastSub hlast]
  rfl

/-- The numbers of the controls drawn with a highlighted line. -/
def highlighted (roots : List Element) (cursor : Cursor) : List Nat :=
  numbers ((layout roots).filter fun piece => (piece.lines cursor).any isHighlighted)

theorem any_lines_control (cursor : Cursor) (number level : Nat) (control : Element) :
    ((Piece.control number level control).lines cursor).any isHighlighted
      = (number == cursor.focus) := by
  rw [Piece.lines]
  cases number == cursor.focus with
  | false =>
    have hnone := filter_controlLines_unfocused cursor level control
    exact List.any_eq_false.mpr (List.filter_eq_nil_iff.mp hnone)
  | true =>
    have hmem : focusLine cursor level control
        ∈ (controlLines cursor level true control).filter isHighlighted := by
      rw [filter_controlLines_focused]
      exact List.mem_singleton_self _
    exact List.any_eq_true.mpr ⟨_, List.mem_filter.mp hmem⟩

theorem numbers_highlighted {pieces : List Piece} (h : pieces ⊆ layout roots) :
    numbers (pieces.filter fun piece => (piece.lines cursor).any isHighlighted)
      = (numbers pieces).filter (· == cursor.focus) := by
  induction pieces with
  | nil => rfl
  | cons piece pieces ih =>
    obtain ⟨hmem, hrest⟩ := List.cons_subset.mp h
    rw [List.filter_cons]
    cases piece with
    | control number level control =>
      rw [any_lines_control]
      have hcons : ∀ rest, numbers (.control number level control :: rest)
          = number :: numbers rest := fun _ => rfl
      rw [hcons, List.filter_cons, ← ih hrest]
      split <;> rfl
    | plain line =>
      have hplain : isHighlighted line = false := plain_of_mem_layoutFrom hmem
      rw [if_neg (by simp [Piece.lines, hplain]), ih hrest]
      rfl

/-- Only the control with the focus is highlighted, and it is where it stands in the open. -/
theorem highlighted_eq (roots : List Element) (cursor : Cursor) : highlighted roots cursor
    = if cursor.focus < (focusables roots).length ∧ InTheOpen roots cursor.focus
      then [cursor.focus] else [] := by
  have hmem : cursor.focus ∈ numbers (layout roots) ↔
      cursor.focus < (focusables roots).length ∧ InTheOpen roots cursor.focus :=
    mem_numbers_iff.trans exists_mem_layout_iff
  rw [highlighted, numbers_highlighted (List.Subset.refl _), List.filter_beq]
  split
  case isTrue h =>
    rw [List.count_eq_one_of_mem (nodup_numbers roots) (hmem.mpr h)]
    rfl
  case isFalse h =>
    rw [List.count_eq_zero_of_not_mem (hmem.not.mpr h)]
    rfl

/-- **The focus shows.**  When there is a control that has the focus and it stands in the open, it
is drawn, with the only highlighted line there is; when it does not stand in the open, no line is
highlighted. -/
theorem highlighted_once (hfocus : cursor.focus < (focusables roots).length) :
    (InTheOpen roots cursor.focus → ∃ before after level control,
      (focusables roots)[cursor.focus]? = some control ∧
      drawLines roots cursor = before ++ controlLines cursor level true control ++ after ∧
      (drawLines roots cursor).filter isHighlighted = [focusLine cursor level control]) ∧
    (¬InTheOpen roots cursor.focus → (drawLines roots cursor).filter isHighlighted = []) := by
  constructor
  · intro hopen
    obtain ⟨level, control, hmem⟩ := exists_mem_layout_iff.mpr ⟨hfocus, hopen⟩
    obtain ⟨before, after, hlines, hfilter⟩ := exists_drawLines_eq hmem
    have hcontrol := mem_controls_iff.mp (mem_controls_of_mem hmem)
    exact ⟨before, after, level, control, hcontrol.1, hlines, hfilter⟩
  · intro hhidden
    rw [drawLines_eq]
    refine filter_lines_eq_nil (List.Subset.refl _) fun level control hmem => ?_
    exact hhidden (exists_mem_layout_iff.mp ⟨level, control, hmem⟩).2

/-- A button in a card, below a select, is drawn with the only highlighted line. -/
theorem highlighted_once_card :
    let button : Element := ⟨"Button", none, [], [.literal (.text "Save")]⟩
    let row : Element := ⟨"div", none, [], [.element button]⟩
    let card : Element := ⟨"Card", none, [], [.element (.ofKind "Select"), .element row]⟩
    let cursor : Cursor := { focus := 1 }
    cursor.focus < (focusables [card]).length ∧ InTheOpen [card] cursor.focus ∧
      ∃ before after level,
        drawLines [card] cursor = before ++ controlLines cursor level true button ++ after ∧
        (drawLines [card] cursor).filter isHighlighted = [focusLine cursor level button] := by
  intro button row card cursor
  have hfocus : cursor.focus < (focusables [card]).length := by decide
  have hopen : InTheOpen [card] cursor.focus := by decide +kernel
  obtain ⟨before, after, level, control, hcontrol, hlines⟩ := (highlighted_once hfocus).1 hopen
  obtain rfl : button = control := Option.some.inj hcontrol
  exact ⟨hfocus, hopen, before, after, level, hlines⟩

/-- A button in an alert may have the focus, but no line is highlighted: an alert is drawn without
its children. -/
theorem focus_hidden_in_alert :
    let button : Element := ⟨"Button", none, [], [.literal (.text "Retry")]⟩
    let alert : Element := ⟨"Alert", none, [], [.element button]⟩
    let cursor : Cursor := {}
    cursor.focus < (focusables [alert]).length ∧
      (drawLines [alert] cursor).filter isHighlighted = [] := by
  intro button alert cursor
  exact ⟨by decide, by decide +kernel⟩

end ViewTree.Terminal
