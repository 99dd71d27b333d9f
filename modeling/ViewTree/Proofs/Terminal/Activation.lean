import ViewTree.Proofs.Terminal.Cursor

/-!
# Activating the focused select

A focused select shows one of its options, counting on from the first when the cursor is past the
last, while Enter picks the option the cursor counts to, if there is one.  The two are the same
while the cursor is within the options (`App.enter_picks_shown_option`), as it is where it was last
moved (`App.Reaches.option_lt`); options that have gone since then may leave it behind.
-/

namespace ViewTree.Terminal

section Select

variable {select : Element} {cursor : Cursor}

/-- The option that a focused select shows. -/
def shownChoice? (cursor : Cursor) (select : Element) : Option Choice :=
  (choices select)[cursor.option % (choices select).length]?

theorem exists_shownChoice? (cursor : Cursor) (hchoices : choices select ≠ []) :
    ∃ choice, shownChoice? cursor select = some choice :=
  ⟨_, List.getElem?_eq_getElem (Nat.mod_lt _ (List.length_pos_iff.mpr hchoices))⟩

theorem selectText_focused {choice : Choice}
    (hidle : (select.prop "loading").any Json.truthy = false)
    (hshown : shownChoice? cursor select = some choice) :
    selectText true cursor select = choice.label := by
  have hchoices : (choices select).isEmpty = false := by
    refine List.isEmpty_eq_false_iff.mpr fun hnone => ?_
    rw [shownChoice?, hnone] at hshown
    cases hshown
  unfold shownChoice? at hshown
  simp [selectText, hidle, hchoices, hshown]

theorem focusLine_select {choice : Choice} (hkind : select.kind = "Select")
    (hidle : (select.prop "loading").any Json.truthy = false)
    (hshown : shownChoice? cursor select = some choice) (level : Nat) :
    focusLine cursor level select = [{ text := pad level ++ "▸ " },
      { text := "< " ++ choice.label ++ " >", style := .strong .cyan }] := by
  rw [focusLine, if_pos hkind, selectText_focused hidle hshown]

/-- Enter picks the option that shows while the cursor is within the options, and none past them. -/
theorem activation_select {handler : Handler} {choice : Choice} (hkind : select.kind = "Select")
    (hhandler : select.handler .change = some handler)
    (hshown : shownChoice? cursor select = some choice) : App.activation cursor select
      = if cursor.option < (choices select).length then some (handler, .change choice.value)
        else none := by
  rw [App.activation, if_pos hkind, hhandler, Option.bind_eq_bind, Option.bind_some]
  split
  case isTrue hwithin =>
    -- Only here is the option that shows the one the cursor counts to.
    rw [shownChoice?, Nat.mod_eq_of_lt hwithin] at hshown
    rw [hshown]
    rfl
  case isFalse hpast =>
    rw [List.getElem?_eq_none (Nat.not_lt.mp hpast)]
    rfl

end Select

namespace App

variable {app : App} {start : View} {seen : List Element} {select : Element}

/-- The option stays within those of the select with the focus while it has as many as the control
that the focus was last moved to. -/
theorem Reaches.option_lt (h : Reaches start seen app) (hchoices : choices select ≠ [])
    (hkept : ∀ earlier, (focusables seen)[app.cursor.focus]? = some earlier →
      (choices earlier).length ≤ (choices select).length) :
    app.cursor.option < (choices select).length := by
  have hpos : 0 < (choices select).length := List.length_pos_iff.mpr hchoices
  rcases h.fits with hstart | ⟨earlier, hget, hoption⟩
  · rwa [hstart]
  · exact Nat.lt_of_lt_of_le hoption (Nat.max_le.mpr ⟨hkept earlier hget, hpos⟩)

/-- With the focus on a control the view is drawn with the cursor as it is. -/
theorem drawnCursor_eq (hfocus : app.controls[app.cursor.focus]? = some select) :
    app.drawnCursor = app.cursor := by
  have hlt := (List.getElem?_eq_some_iff.mp hfocus).1
  have hmin : min app.cursor.focus (app.controls.length - 1) = app.cursor.focus := by omega
  rw [drawnCursor, Cursor.clamp, hmin]

/-- **Enter picks the option that shows** as long as there are no fewer options than when the cursor
last moved; where the cursor is past the options Enter fires nothing. -/
theorem enter_picks_shown_option (h : Reaches start seen app) {handler : Handler}
    (hfocus : app.controls[app.cursor.focus]? = some select) (hkind : select.kind = "Select")
    (hidle : (select.prop "loading").any Json.truthy = false)
    (hhandler : select.handler .change = some handler) (hchoices : choices select ≠ []) :
    ∃ choice, (choices select)[app.cursor.option % (choices select).length]? = some choice ∧
      (InTheOpen app.view.render app.cursor.focus →
        ∃ level, app.lines.filter isHighlighted = [[{ text := pad level ++ "▸ " },
          { text := "< " ++ choice.label ++ " >", style := .strong .cyan }]]) ∧
      app.handleKey .enter = (.ignored, if app.cursor.option < (choices select).length
        then { app with view := app.view.fire handler (.change choice.value) } else app) ∧
      ((∀ earlier, (focusables seen)[app.cursor.focus]? = some earlier →
        (choices earlier).length ≤ (choices select).length) →
          app.cursor.option < (choices select).length) := by
  obtain ⟨choice, hshown⟩ := exists_shownChoice? app.cursor hchoices
  refine ⟨choice, hshown, fun hopen => ?_, ?_, h.option_lt hchoices⟩
  · have hlt := (List.getElem?_eq_some_iff.mp hfocus).1
    obtain ⟨level, control, hmem⟩ := exists_mem_layout_iff.mpr ⟨hlt, hopen⟩
    have hget := (mem_controls_iff.mp (mem_controls_of_mem hmem)).1
    -- Pieces are numbered as controls are, so the piece with the focus shows the select.
    obtain rfl : select = control := Option.some.inj (hfocus.symm.trans hget)
    obtain ⟨-, -, -, hfilter⟩ := exists_drawLines_eq hmem
    refine ⟨level, ?_⟩
    rw [← focusLine_select hkind hidle hshown level, ← hfilter, ← drawnCursor_eq hfocus]
    rfl
  · rw [handleKey_enter, ← controls_focus, hfocus, activate, Option.bind_some,
      activation_select hkind hhandler hshown]
    by_cases hwithin : app.cursor.option < (choices select).length
    · rw [if_pos hwithin, if_pos hwithin]
    · rw [if_neg hwithin, if_neg hwithin]

/-- A view of a select over the users, of whom only one stays when one is picked. -/
def roster : View :=
  let select := ((Node.ofKind "Select").bind "options" { source := "users" }).on .change
    (.setState "users" (.array [.text "ann"]))
  (View.create select .standard ⟨{}, ⟨[]⟩⟩ {}).set "users" (.array [.text "ann", .text "bob"])

/-- Right, then Enter, picks the second user, whom the select shows. -/
theorem enter_picks_shown_option_roster :
    let app := (App.handleKey { view := roster } .right).2
    ∃ seen select handler, ∃ choice : Choice, Reaches roster seen app ∧
      app.controls[app.cursor.focus]? = some select ∧ select.kind = "Select" ∧
      (select.prop "loading").any Json.truthy = false ∧
      select.handler .change = some handler ∧ choices select ≠ [] ∧ choice.label = "bob" ∧
      (∃ level, app.lines.filter isHighlighted = [[{ text := pad level ++ "▸ " },
        { text := "< " ++ choice.label ++ " >", style := .strong .cyan }]]) ∧
      app.handleKey .enter
        = (.ignored, { app with view := app.view.fire handler (.change choice.value) }) := by
  intro app
  have h : Reaches roster roster.render app := Reaches.opened.moved .right (by decide +kernel)
  obtain ⟨select, hfocus⟩ : ∃ select, app.controls[app.cursor.focus]? = some select :=
    Option.isSome_iff_exists.mp (by decide +kernel)
  have hselect : ∀ select ∈ app.controls[app.cursor.focus]?, select.kind = "Select" ∧
      (select.prop "loading").any Json.truthy = false ∧ (select.handler .change).isSome ∧
      (choices select).map Choice.label = ["ann", "bob"] := by decide +kernel
  have hoption : app.cursor.option = 1 := by decide +kernel
  have hopen : InTheOpen app.view.render app.cursor.focus := by decide +kernel
  obtain ⟨hkind, hidle, hsome, hlabels⟩ := hselect select hfocus
  obtain ⟨handler, hhandler⟩ := Option.isSome_iff_exists.mp hsome
  have hlength : (choices select).length = 2 := by
    rw [← List.length_map Choice.label, hlabels]
    rfl
  have hchoices : choices select ≠ [] := List.ne_nil_of_length_eq_add_one hlength
  have hkept : ∀ earlier ∈ (focusables roster.render)[app.cursor.focus]?,
      (choices earlier).length ≤ 2 := by decide +kernel
  obtain ⟨choice, hshown, hlines, henter, hwithin⟩ :=
    enter_picks_shown_option h hfocus hkind hidle hhandler hchoices
  have hlabel : choice.label = "bob" := by
    have hget := congrArg (Option.map Choice.label) hshown
    rw [← List.getElem?_map, hlabels, hoption, hlength] at hget
    exact (Option.some.inj hget).symm
  rw [if_pos (hwithin fun earlier hearlier => hlength ▸ hkept earlier hearlier)] at henter
  exact ⟨_, select, handler, choice, h, hfocus, hkind, hidle, hhandler, hchoices, hlabel,
    hlines hopen, henter⟩

/-- When only one user is left of two, the select shows that user, but Enter picks none. -/
theorem enter_misses_shown_option :
    let app := App.pressAll { view := roster } [.right, .enter]
    (∃ seen, Reaches roster seen app) ∧
      (∃ select, app.controls[app.cursor.focus]? = some select ∧ select.kind = "Select" ∧
        (select.prop "loading").any Json.truthy = false ∧ (select.handler .change).isSome ∧
        (choices select).map Choice.label = ["ann"]) ∧
      app.lines = [[{ text := "▸ " }, { text := "< ann >", style := .strong .cyan }]] ∧
      app.handleKey .enter = (.ignored, app) := by
  intro app
  have hselect : ∀ select ∈ app.controls[app.cursor.focus]?, select.kind = "Select" ∧
      (select.prop "loading").any Json.truthy = false ∧ (select.handler .change).isSome ∧
      (choices select).map Choice.label = ["ann"] ∧
      (activation app.cursor select).isNone := by decide +kernel
  obtain ⟨select, hfocus⟩ : ∃ select, app.controls[app.cursor.focus]? = some select :=
    Option.isSome_iff_exists.mp (by decide +kernel)
  obtain ⟨hkind, hidle, hhandler, hlabels, hnone⟩ := hselect select hfocus
  refine ⟨Reaches.opened.pressAll _, ⟨select, hfocus, hkind, hidle, hhandler, hlabels⟩,
    by decide +kernel, ?_⟩
  rw [handleKey_enter, ← controls_focus, hfocus, activate, Option.bind_some,
    Option.isNone_iff_eq_none.mp hnone]

end App

end ViewTree.Terminal
