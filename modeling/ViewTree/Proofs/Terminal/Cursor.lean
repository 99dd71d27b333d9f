import ViewTree.Config.Build
import ViewTree.Proofs.Session.Host
import ViewTree.Proofs.Terminal.Layout
import ViewTree.Terminal.App

/-!
# The cursor of the host

The cursor counts controls and options, while keys and the work of the view change what there is to
count.  `App.Reaches` are the states of a host, with what was rendered when the cursor last moved.
There the cursor was within bounds (`App.Reaches.fits`), since every key that moves it keeps it
there (`App.cursor_handleKey`).

A control may be gone since then.  The keys look for the control of the focus as it stands, while
the drawing first moves the focus to the last control there is; `App.keys_follow_highlight` says
when the two come to the same.
-/

namespace ViewTree.Terminal

namespace App

variable {app : App} {key : Key}

/-! ### The control that keys act on -/

/-- The controls of the view. -/
def controls (app : App) : List Element := focusables app.view.render

/-- The number of the control that keys act on. -/
def target (app : App) : Option Nat :=
  if app.cursor.focus < app.controls.length then some app.cursor.focus else none

/-- The cursor that the view is drawn with. -/
def drawnCursor (app : App) : Cursor := app.cursor.clamp app.controls.length

/-- The numbers of the controls that are drawn with a highlighted line. -/
def marked (app : App) : List Nat := highlighted app.view.render app.drawnCursor

theorem controls_focus (app : App) :
    app.controls[app.cursor.focus]? = app.target.bind (app.controls[·]?) := by
  unfold target
  split
  · rfl
  case isFalse hnone => exact List.getElem?_eq_none (Nat.not_lt.mp hnone)

theorem handleKey_enter (app : App) : app.handleKey .enter
    = (.ignored, app.activate (app.target.bind (app.controls[·]?))) := by
  rw [← controls_focus]
  rfl

theorem handleKey_right (app : App) : app.handleKey .right
    = app.moveOption (app.target.bind (app.controls[·]?)) fun _ => 1 := by
  rw [← controls_focus]
  rfl

theorem handleKey_left (app : App) : app.handleKey .left
    = app.moveOption (app.target.bind (app.controls[·]?)) fun count => count - 1 := by
  rw [← controls_focus]
  rfl

/-! ### Where the cursor is put -/

end App

/-- The focus is on a control of a view, and the option is one of its options, or the first. -/
def Cursor.Fits (cursor : Cursor) (roots : List Element) : Prop :=
  ∃ control, (focusables roots)[cursor.focus]? = some control ∧
    cursor.option < max (choices control).length 1

theorem selectedIndex_lt {select : Element} {index : Nat} (h : selectedIndex select = some index) :
    index < (choices select).length := by
  obtain ⟨value, -, hindex⟩ := Option.bind_eq_some_iff.mp h
  exact (List.findIdx?_eq_some_iff_findIdx_eq.mp hindex).1

namespace App

variable {app : App} {key : Key}

theorem fits_moveFocus (hsome : app.controls ≠ []) (step : Nat) :
    (app.moveFocus app.controls step).cursor.Fits app.view.render := by
  have hpos : 0 < app.controls.length := List.length_pos_iff.mpr hsome
  have hfocus : (app.cursor.focus + step) % app.controls.length < app.controls.length :=
    Nat.mod_lt _ hpos
  have hget := List.getElem?_eq_getElem hfocus
  refine ⟨_, hget, ?_⟩
  -- The option is the one selected there, or the first where none is.
  show ((app.controls[_]?.bind selectedIndex).getD 0) < _
  rw [hget, Option.bind_some]
  cases hindex : selectedIndex _ with
  | none => exact Nat.lt_of_lt_of_le Nat.one_pos (Nat.le_max_right _ _)
  | some index => exact Nat.lt_of_lt_of_le (selectedIndex_lt hindex) (Nat.le_max_left _ _)

theorem fits_moveOption {focused : Option Element} {step : Nat → Nat}
    (hfocused : focused = app.controls[app.cursor.focus]?) :
    (app.moveOption focused step).2.cursor = app.cursor ∨
      (app.moveOption focused step).2.cursor.Fits app.view.render := by
  unfold moveOption
  split
  · exact .inl rfl
  case h_2 select hselect =>
    have hget := (Option.filter_eq_some_iff.mp hselect).1
    refine .inr ⟨select, hfocused ▸ hget, Nat.mod_lt _ ?_⟩
    exact Nat.lt_of_lt_of_le Nat.one_pos (Nat.le_max_right _ _)

theorem cursor_activate (focused : Option Element) :
    (app.activate focused).cursor = app.cursor := by
  unfold activate
  split <;> rfl

/-- A key that moves the cursor puts it within the bounds of what is rendered then. -/
theorem cursor_handleKey (app : App) (key : Key) :
    (app.handleKey key).2.cursor = app.cursor ∨
      (app.handleKey key).2.cursor.Fits app.view.render := by
  have hsome : (!app.controls.isEmpty) = true → app.controls ≠ [] := by simp
  unfold handleKey
  dsimp only
  split_ifs with hquit hstate htab hback hright hleft henter
  · exact .inl rfl
  · exact .inl rfl
  · exact .inr (fits_moveFocus (hsome htab.2) 1)
  · exact .inr (fits_moveFocus (hsome hback.2) _)
  · exact fits_moveOption rfl
  · exact fits_moveOption rfl
  · exact .inl (cursor_activate _)
  · exact .inl rfl

/-! ### The states of a host -/

/-- The states of a host, from a view on: its keys, the work of the view and its redraws, which
change nothing, come in any order.  `seen` is what was rendered when the cursor last moved. -/
inductive Reaches (start : View) : List Element → App → Prop
  | opened : Reaches start [] { view := start }
  | changed {seen : List Element} {app : App} {view : View} : Reaches start seen app →
    Session.Leads ⟨app.view, []⟩ ⟨view, []⟩ → Reaches start seen { app with view }
  | pressed {seen : List Element} {app : App} (key : Key) : Reaches start seen app →
    Reaches start (if (app.handleKey key).2.cursor = app.cursor then seen else app.view.render)
      (app.handleKey key).2

variable {start : View} {seen : List Element}

/-- Until it moves the cursor is at the start, and then within the bounds of what it moved in. -/
theorem Reaches.fits (h : Reaches start seen app) : app.cursor = {} ∨ app.cursor.Fits seen := by
  induction h with
  | opened => exact .inl rfl
  | changed _ _ ih => exact ih
  | @pressed seen app key _ ih =>
    -- `seen` changes with the cursor only, so that it is what the cursor was put within.
    split
    case isTrue hsame => rwa [hsame]
    case isFalse hmoved => exact .inr ((app.cursor_handleKey key).resolve_left hmoved)

/-- While there are as many controls as when the cursor last moved, there is one that has the focus,
or there is none at all. -/
theorem Reaches.focus_lt (h : Reaches start seen app)
    (hkept : (focusables seen).length ≤ app.controls.length) :
    app.controls = [] ∨ app.cursor.focus < app.controls.length := by
  rcases h.fits with hstart | ⟨control, hget, -⟩
  · rw [hstart]
    exact (Nat.eq_zero_or_pos _).imp_left List.eq_nil_of_length_eq_zero
  · have hlt := (List.getElem?_eq_some_iff.mp hget).1
    exact .inr (Nat.lt_of_lt_of_le hlt hkept)

theorem Reaches.moved (h : Reaches start seen app) (key : Key)
    (hmoved : (app.handleKey key).2.cursor ≠ app.cursor) :
    Reaches start app.view.render (app.handleKey key).2 := by
  have hnext := h.pressed key
  rwa [if_neg hmoved] at hnext

/-- Presses keys, each when the work of the view has come to rest. -/
def pressAll (app : App) (keys : List Key) : App :=
  keys.foldl (fun app key =>
    let next := (app.handleKey key).2
    { next with view := next.view.settle }) app

theorem Reaches.pressAll (h : Reaches start seen app) (keys : List Key) :
    ∃ seen, Reaches start seen (app.pressAll keys) := by
  induction keys generalizing seen app with
  | nil => exact ⟨seen, h⟩
  | cons key keys ih =>
    exact ih ((h.pressed key).changed (Session.leads_await (fun shop _ => .refl _) 0 ()))

/-! ### Keys and the drawing -/

/-- The keys act on the control that is highlighted, if there are controls, exactly when the drawn
one is in the open and the focus is on it, or it is hidden and the focus is on none. -/
theorem marked_eq_target_iff (app : App) : app.marked = app.target.toList ↔ app.controls = [] ∨
    (app.cursor.focus < app.controls.length ↔
      InTheOpen app.view.render app.drawnCursor.focus) := by
  have hdrawn : app.drawnCursor.focus = min app.cursor.focus (app.controls.length - 1) := rfl
  have hmarked : app.marked = if app.drawnCursor.focus < app.controls.length ∧
      InTheOpen app.view.render app.drawnCursor.focus then [app.drawnCursor.focus] else [] :=
    highlighted_eq app.view.render app.drawnCursor
  by_cases hnone : app.controls = []
  · have hempty : ∀ number, ¬number < app.controls.length := by simp [hnone]
    rw [hmarked, target, if_neg (hempty _), if_neg fun h => hempty _ h.1]
    exact iff_of_true rfl (.inl hnone)
  · have hlt : app.drawnCursor.focus < app.controls.length := by
      have hpos := List.length_pos_iff.mpr hnone
      omega
    rw [hmarked, target, or_iff_right hnone]
    by_cases hfocus : app.cursor.focus < app.controls.length
    · have hsame : app.drawnCursor.focus = app.cursor.focus := by omega
      simp [hfocus, hsame]
    · -- The focus is on no control, while the last one is drawn as having it.
      simp [hfocus, hlt]

/-- **Keys act on the control that shows as focused** in every state of a host where the focus is on
a control exactly if the drawn control stands in the open.  So they do as long as there are not
fewer controls than when the cursor last moved. -/
theorem keys_follow_highlight (h : Reaches start seen app) :
    (app.marked = app.target.toList ↔ app.controls = [] ∨
      (app.cursor.focus < app.controls.length ↔
        InTheOpen app.view.render app.drawnCursor.focus)) ∧
    ((focusables seen).length ≤ app.controls.length →
      InTheOpen app.view.render app.drawnCursor.focus → app.marked = app.target.toList) ∧
    app.lines = (layout app.view.render).flatMap (Piece.lines app.drawnCursor) ∧
    (∀ number level control, .control number level control ∈ layout app.view.render →
      app.controls[number]? = some control) ∧
    app.handleKey .enter = (.ignored, app.activate (app.target.bind (app.controls[·]?))) ∧
    app.handleKey .right = app.moveOption (app.target.bind (app.controls[·]?)) (fun _ => 1) ∧
    app.handleKey .left
      = app.moveOption (app.target.bind (app.controls[·]?)) (fun count => count - 1) := by
  refine ⟨app.marked_eq_target_iff, fun hkept hopen => ?_, drawLines_eq _ _,
    fun number level control hmem => (mem_controls_iff.mp (mem_controls_of_mem hmem)).1,
    handleKey_enter app, handleKey_right app, handleKey_left app⟩
  refine app.marked_eq_target_iff.mpr ((h.focus_lt hkept).imp_right fun hfocus => ?_)
  exact iff_of_true hfocus hopen

/-- A view of a select and of a button that shows while the menu is open: picking an option opens
it, and the button closes it. -/
def menu : View :=
  let select := ((Node.ofKind "Select").prop "options" (.array [.text "a", .text "b"])).on .change
    (.setState "open" (.bool true))
  let button := (((Node.ofKind "Button").text "Close").when (.expression "$\x7bstate.open\x7d")).on
    .click (.setState "open" .null)
  let root := { Node.ofKind "div" with children := some (.many [.node select, .node button]) }
  .create root .standard ⟨{}, ⟨[]⟩⟩ {}

/-- On the button of the open menu, keys act on what is highlighted. -/
theorem keys_follow_highlight_menu :
    let opened := App.pressAll { view := menu } [.enter]
    let app := (opened.handleKey .tab).2
    ∃ seen, Reaches menu seen app ∧ (focusables seen).length ≤ app.controls.length ∧
      InTheOpen app.view.render app.drawnCursor.focus ∧
      app.target = some 1 ∧ app.marked = app.target.toList := by
  intro opened app
  obtain ⟨seen, hopened⟩ := (Reaches.opened : Reaches menu [] _).pressAll [.enter]
  have h : Reaches menu opened.view.render app := hopened.moved .tab (by decide +kernel)
  have hkept : (focusables opened.view.render).length ≤ app.controls.length := by decide +kernel
  have hopen : InTheOpen app.view.render app.drawnCursor.focus := by decide +kernel
  exact ⟨_, h, hkept, hopen, by decide +kernel, (keys_follow_highlight h).2.1 hkept hopen⟩

/-- When the button has closed the menu the select is highlighted, but keys act on no control. -/
theorem keys_miss_highlight :
    let app := App.pressAll { view := menu } [.enter, .tab, .enter]
    (∃ seen, Reaches menu seen app) ∧ app.target = none ∧ app.marked = [0] ∧
      (app.handleKey .right).1 = .ignored := by
  intro app
  exact ⟨Reaches.opened.pressAll _, by decide +kernel, by decide +kernel, by decide +kernel⟩

end App

end ViewTree.Terminal
