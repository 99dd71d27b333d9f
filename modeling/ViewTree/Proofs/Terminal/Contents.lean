import ViewTree.Proofs.Terminal.Layout
import ViewTree.Proofs.Text.Split

/-!
# Text in a drawing

Literal content reaches a drawing in one of three ways: as a part of the label of an element that
is drawn as one line (`infix_text`), as a part of the label of a span in a row, or as a part of the
text of an element that shows its children (`infix_ownText`).  What stands in a row beside its spans
reaches it in none of them: it is loose, and a drawing is the same without it (`drawLines_tidied`).

All other content is on a line of the drawing, whatever the cursor is (`content_drawn`).
-/

namespace ViewTree.Terminal

/-! ### Literal content and what stands above it -/

mutual

/-- The literal content under an element in tree order, each with the elements above it, the nearest
first; `above` are those above the element. -/
def literalsUnder (above : List Element) : Element → List (List Element × Json)
  | ⟨kind, key, props, children⟩ => literalsIn (⟨kind, key, props, children⟩ :: above) children

/-- The literal content in a list of children. -/
def literalsIn (above : List Element) : List Content → List (List Element × Json)
  | [] => []
  | child :: children => literalsOf above child ++ literalsIn above children

/-- The literal content in a child. -/
def literalsOf (above : List Element) : Content → List (List Element × Json)
  | .element element => literalsUnder above element
  | .literal value => [(above, value)]

end

/-- The literal content of a view in tree order, each with the elements above it. -/
def literals (roots : List Element) : List (List Element × Json) :=
  roots.flatMap (literalsUnder [])

/-- Content with these elements above it stands beside the spans of a row that is drawn, as the
elements above the row show their children. -/
def IsLoose : List Element → Prop
  | [] => False
  | row :: above => look row = .row ∧ above.all showsChildren = true

instance : DecidablePred IsLoose
  | [] => inferInstanceAs (Decidable False)
  | row :: above => inferInstanceAs (Decidable (look row = .row ∧ above.all showsChildren = true))

/-- An element shows its content: it is no select, and no prop stands in for the content. -/
def ShowsContent (element : Element) : Prop :=
  element.kind ≠ "Select" ∧ setProp element "children" = none

/-- A text that no line break cuts, whatever it stands beside. -/
structure Unbroken (text : String) : Prop where
  nonempty : text ≠ ""
  feed : '\n' ∉ text.toList
  last : text.toList.getLast? ≠ some '\r'

variable {trail above : List Element} {value : Json} {element : Element}

mutual

theorem suffix_of_mem_literalsUnder {above : List Element} : ∀ element,
    (trail, value) ∈ literalsUnder above element → element :: above <:+ trail
  | ⟨_, _, _, children⟩, h => by
    rw [literalsUnder] at h
    exact suffix_of_mem_literalsIn children h

theorem suffix_of_mem_literalsIn {above : List Element} : ∀ children,
    (trail, value) ∈ literalsIn above children → above <:+ trail
  | [], h => absurd h List.not_mem_nil
  | child :: children, h => by
    rw [literalsIn] at h
    rcases List.mem_append.mp h with h | h
    · exact suffix_of_mem_literalsOf child h
    · exact suffix_of_mem_literalsIn children h

theorem suffix_of_mem_literalsOf {above : List Element} : ∀ child,
    (trail, value) ∈ literalsOf above child → above <:+ trail
  | .element element, h =>
    (List.suffix_cons element above).trans (suffix_of_mem_literalsUnder element h)
  | .literal _, h => by
    obtain ⟨rfl, -⟩ := Prod.mk.inj (List.mem_singleton.mp h)
    exact List.suffix_rfl

end

/-- The element that content is under is one of those above the content. -/
theorem mem_of_mem_literalsUnder (h : (trail, value) ∈ literalsUnder above element) :
    element ∈ trail :=
  (suffix_of_mem_literalsUnder element h).subset List.mem_cons_self

/-- Content in a list of children is a child, or it is under one. -/
theorem literal_or_under {children : List Content}
    (h : (trail, value) ∈ literalsIn above children) :
    (trail = above ∧ .literal value ∈ children) ∨
      ∃ element, .element element ∈ children ∧ (trail, value) ∈ literalsUnder above element := by
  induction children with
  | nil => exact absurd h List.not_mem_nil
  | cons child children ih =>
    rw [literalsIn] at h
    rcases List.mem_append.mp h with h | h
    · cases child with
      | element element => exact .inr ⟨element, List.mem_cons_self, h⟩
      | literal other =>
        obtain ⟨rfl, rfl⟩ := Prod.mk.inj (List.mem_singleton.mp h)
        exact .inl ⟨rfl, List.mem_cons_self⟩
    · rcases ih h with ⟨htrail, hmem⟩ | ⟨element, hmem, hunder⟩
      · exact .inl ⟨htrail, List.mem_cons_of_mem _ hmem⟩
      · exact .inr ⟨element, List.mem_cons_of_mem _ hmem, hunder⟩

/-! ### Labels -/

mutual

/-- The text of an element holds all content under it. -/
theorem infix_text {above : List Element} : ∀ element,
    (trail, value) ∈ literalsUnder above element → value.display.toList <:+: element.text.toList
  | ⟨_, _, _, children⟩, h => by
    rw [literalsUnder] at h
    rw [Element.text]
    exact infix_textOfContents children h

theorem infix_textOfContents {above : List Element} : ∀ children,
    (trail, value) ∈ literalsIn above children →
      value.display.toList <:+: (Element.textOfContents children).toList
  | [], h => absurd h List.not_mem_nil
  | child :: children, h => by
    rw [literalsIn] at h
    rw [Element.textOfContents, String.toList_append]
    rcases List.mem_append.mp h with h | h
    · exact (infix_textOfContent child h).trans (List.prefix_append _ _).isInfix
    · exact (infix_textOfContents children h).trans (List.suffix_append _ _).isInfix

theorem infix_textOfContent {above : List Element} : ∀ child,
    (trail, value) ∈ literalsOf above child →
      value.display.toList <:+: (Element.textOfContent child).toList
  | .element element, h => by
    rw [Element.textOfContent]
    exact infix_text element h
  | .literal _, h => by
    obtain ⟨-, rfl⟩ := Prod.mk.inj (List.mem_singleton.mp h)
    exact List.infix_rfl

end

theorem infix_label (h : (trail, value) ∈ literalsUnder above element)
    (hshows : ShowsContent element) : value.display.toList <:+: (label element).toList := by
  rw [label, hshows.2]
  exact infix_text element h

theorem infix_join {text : String} {texts : List String} (h : text ∈ texts) :
    text.toList <:+: (String.join texts).toList := by
  obtain ⟨before, after, rfl⟩ := List.append_of_mem h
  rw [String.toList_join, List.flatMap_append, List.flatMap_cons]
  exact List.infix_append' _ _ _

theorem infix_ownText (hmem : .literal value ∈ element.children) (hshows : ShowsContent element) :
    value.display.toList <:+: (ownText element).toList := by
  rw [ownText, hshows.2]
  exact infix_join (List.mem_map.mpr ⟨.literal value, hmem, rfl⟩)

/-! ### Lines -/

/-- A text stands on one of some lines, within one span. -/
def StandsOn (text : String) (lines : List Line) : Prop :=
  ∃ line ∈ lines, ∃ span ∈ line, text.toList <:+: span.text.toList

section

variable {text : String} {lines more : List Line}

theorem StandsOn.mono (h : StandsOn text lines) (hsub : lines ⊆ more) : StandsOn text more := by
  obtain ⟨line, hline, hspan⟩ := h
  exact ⟨line, hsub hline, hspan⟩

theorem StandsOn.append_left (h : StandsOn text lines) : StandsOn text (lines ++ more) :=
  h.mono (List.subset_append_left lines more)

theorem StandsOn.append_right (h : StandsOn text more) : StandsOn text (lines ++ more) :=
  h.mono (List.subset_append_right lines more)

theorem standsOn_titleLine (level : Nat) (h : text.toList <:+: (label element).toList) :
    StandsOn text [titleLine level element] :=
  ⟨_, List.mem_singleton_self _, { text := label element, style := .strong .cyan },
    by simp [titleLine], h⟩

theorem standsOn_alertLine (level : Nat) (h : text.toList <:+: (label element).toList) :
    StandsOn text [alertLine level element] := by
  refine ⟨_, List.mem_singleton_self _, ?_⟩
  unfold alertLine
  split
  rename_i marker color _
  refine ⟨{ text := marker ++ label element, style := .colored color }, by simp, ?_⟩
  rw [String.toList_append]
  exact h.trans (List.suffix_append _ _).isInfix

theorem standsOn_buttonLine (level : Nat) (focused : Bool)
    (h : text.toList <:+: (label element).toList) :
    StandsOn text [buttonLine level focused element] := by
  refine ⟨_, List.mem_singleton_self _, _, List.mem_cons_of_mem _ (List.mem_singleton_self _), ?_⟩
  rw [String.toList_append, String.toList_append]
  exact h.trans (List.infix_append _ _ _)

theorem standsOn_rowLine (level : Nat) {span : Element} (hspan : .element span ∈ element.children)
    (h : text.toList <:+: (label span).toList) : StandsOn text [rowLine level element] := by
  have hmem : span ∈ element.childElements := List.mem_filterMap.mpr ⟨_, hspan, rfl⟩
  exact ⟨_, List.mem_singleton_self _, _, List.mem_cons_of_mem _ (List.mem_map_of_mem hmem), h⟩

/-- A line of plain text is cut at line breaks, but a text without any stays in one piece. -/
theorem standsOn_plain (htext : Unbroken text) {line : String} (h : text.toList <:+: line.toList) :
    StandsOn text [Line.plain line] := by
  have hnonempty : text.toList ≠ [] := fun hnil => htext.nonempty (String.toList_eq_nil_iff.mp hnil)
  obtain ⟨piece, hpiece, hinside⟩ := Text.exists_mem_lines hnonempty htext.feed htext.last h
  refine ⟨_, List.mem_singleton_self _, _, List.mem_map_of_mem hpiece, ?_⟩
  rwa [String.toList_ofList]

/-- The text of an element that shows its children has a line of its own, as it is not empty. -/
theorem standsOn_ownText (htext : Unbroken text) (level : Nat)
    (h : text.toList <:+: (ownText element).toList) :
    StandsOn text (if (ownText element).isEmpty then []
      else [Line.plain (pad level ++ ownText element)]) := by
  have hempty : (ownText element).isEmpty = false := by
    refine Bool.eq_false_iff.mpr fun hempty => ?_
    rw [String.isEmpty_iff.mp hempty] at h
    exact htext.nonempty (String.toList_eq_nil_iff.mp (List.infix_nil.mp h))
  rw [hempty]
  refine standsOn_plain htext ?_
  rw [String.toList_append]
  exact h.trans (List.suffix_append _ _).isInfix

end

/-! ### What a drawing shows -/

/-- Content that a drawing shows: text that no line break cuts, under elements that show it, and not
loose. -/
structure IsShown (trail : List Element) (value : Json) : Prop where
  text : Unbroken value.display
  shows : ∀ element ∈ trail, ShowsContent element
  place : ¬IsLoose trail

mutual

/-- Content under an element whose ancestors show their children is drawn with it. -/
theorem standsOn_drawElement (hshown : IsShown trail value) {above : List Element}
    (habove : above.all showsChildren = true) (cursor : Cursor) (level before : Nat) : ∀ element,
    (trail, value) ∈ literalsUnder above element →
      StandsOn value.display (drawElement cursor level before element)
  | ⟨kind, key, props, children⟩, h => by
    have helement : ShowsContent ⟨kind, key, props, children⟩ :=
      hshown.shows _ (mem_of_mem_literalsUnder h)
    have hlabel := infix_label h helement
    rw [literalsUnder] at h
    rw [drawElement]
    dsimp only
    cases hlook : look ⟨kind, key, props, children⟩ with
    | title => exact standsOn_titleLine level hlabel
    | alert => exact standsOn_alertLine level hlabel
    | button => exact standsOn_buttonLine level _ hlabel
    | select => exact absurd (kind_of_look_select hlook) helement.1
    | row =>
      rcases literal_or_under h with ⟨rfl, -⟩ | ⟨span, hspan, hunder⟩
      · exact absurd ⟨hlook, habove⟩ hshown.place
      · have hlabel := infix_label hunder (hshown.shows _ (mem_of_mem_literalsUnder hunder))
        exact standsOn_rowLine level hspan hlabel
    | nested card =>
      have hinside : (⟨kind, key, props, children⟩ :: above).all showsChildren = true := by
        rw [List.all_cons, (showsChildren_iff _).mpr ⟨card, hlook⟩, habove]
        rfl
      refine StandsOn.append_left ?_
      rcases standsOn_drawContents hshown hinside cursor (if card then level + 1 else level) before
        children h with hown | hdrawn
      · exact (standsOn_ownText hshown.text level (infix_ownText hown helement)).append_left
      · exact hdrawn.append_right

/-- Content in a list of children is a child, and so a part of the text of the element they are of,
or it is drawn with one of them. -/
theorem standsOn_drawContents (hshown : IsShown trail value) {above : List Element}
    (habove : above.all showsChildren = true) (cursor : Cursor) (level before : Nat) : ∀ children,
    (trail, value) ∈ literalsIn above children →
      .literal value ∈ children ∨ StandsOn value.display (drawContents cursor level before children)
  | [], h => absurd h List.not_mem_nil
  | child :: children, h => by
    rw [literalsIn] at h
    rw [drawContents]
    rcases List.mem_append.mp h with h | h
    · rcases standsOn_drawContent hshown habove cursor level before child h with rfl | hdrawn
      · exact .inl List.mem_cons_self
      · exact .inr hdrawn.append_left
    · rcases standsOn_drawContents hshown habove cursor level _ children h with hown | hdrawn
      · exact .inl (List.mem_cons_of_mem _ hown)
      · exact .inr hdrawn.append_right

theorem standsOn_drawContent (hshown : IsShown trail value) {above : List Element}
    (habove : above.all showsChildren = true) (cursor : Cursor) (level before : Nat) : ∀ child,
    (trail, value) ∈ literalsOf above child →
      .literal value = child ∨ StandsOn value.display (drawContent cursor level before child)
  | .element element, h => .inr (standsOn_drawElement hshown habove cursor level before element h)
  | .literal _, h => by
    obtain ⟨-, rfl⟩ := Prod.mk.inj (List.mem_singleton.mp h)
    exact .inl rfl

end

theorem standsOn_drawRoots (hshown : IsShown trail value) (cursor : Cursor) (before : Nat)
    {roots : List Element} (h : (trail, value) ∈ literals roots) :
    StandsOn value.display (drawRoots cursor before roots) := by
  induction roots generalizing before with
  | nil => exact absurd h List.not_mem_nil
  | cons root roots ih =>
    rw [drawRoots]
    rcases List.mem_append.mp h with h | h
    · exact (standsOn_drawElement hshown rfl cursor 0 before root h).append_left
    · exact (ih _ h).append_right

/-! ### Loose content -/

mutual

/-- An element without the loose content under it. -/
def tidied : Element → Element
  | ⟨kind, key, props, children⟩ =>
    match look ⟨kind, key, props, children⟩ with
    | .row => ⟨kind, key, props, children.filter fun child => child.element?.isSome⟩
    | .nested _ => ⟨kind, key, props, tidiedIn children⟩
    | _ => ⟨kind, key, props, children⟩

/-- Children without the loose content under them. -/
def tidiedIn : List Content → List Content
  | [] => []
  | child :: children => tidiedOf child :: tidiedIn children

/-- A child without the loose content under it. -/
def tidiedOf : Content → Content
  | .element element => .element (tidied element)
  | .literal value => .literal value

end

section

variable {kind : String} {key : Option String} {props : Attributes}

theorem length_focusablesUnder (children : List Content) :
    (focusablesUnder ⟨kind, key, props, children⟩).length
      = (isFocusable (.ofKind kind)).toNat + (focusablesIn children).length := by
  have hkind : isFocusable ⟨kind, key, props, children⟩ = isFocusable (.ofKind kind) := rfl
  rw [focusablesUnder, List.length_append, hkind]
  cases isFocusable (.ofKind kind) <;> rfl

theorem focusablesIn_filter (children : List Content) :
    focusablesIn (children.filter fun child => child.element?.isSome) = focusablesIn children := by
  induction children with
  | nil => rfl
  | cons child children ih =>
    cases child with
    | element element =>
      rw [List.filter_cons_of_pos rfl, focusablesIn, focusablesIn, ih]
    | literal value =>
      rw [List.filter_cons_of_neg (by simp [Content.element?]), focusablesIn, ih]
      rfl

theorem childElements_filter (children : List Content) :
    Element.childElements ⟨kind, key, props, children.filter fun child => child.element?.isSome⟩
      = Element.childElements ⟨kind, key, props, children⟩ := by
  rw [Element.childElements, Element.childElements, List.filterMap_filter]
  refine List.filterMap_congr fun child _ => ?_
  cases child <;> rfl

theorem childElements_tidiedIn (children : List Content) :
    Element.childElements ⟨kind, key, props, tidiedIn children⟩
      = (Element.childElements ⟨kind, key, props, children⟩).map tidied := by
  induction children with
  | nil => rfl
  | cons child children ih =>
    cases child with
    | element element => exact congrArg (tidied element :: ·) ih
    | literal value => exact ih

theorem ownText_tidiedIn (children : List Content) :
    ownText ⟨kind, key, props, tidiedIn children⟩ = ownText ⟨kind, key, props, children⟩ := by
  -- The text depends on the literal content alone.
  have hmap : ∀ f : Content → String,
      (∀ element, f (.element (tidied element)) = f (.element element)) →
      (tidiedIn children).map f = children.map f := by
    intro f hf
    induction children with
    | nil => rfl
    | cons child children ih =>
      rw [tidiedIn, List.map_cons, List.map_cons, ih]
      cases child with
      | element element => rw [tidiedOf, hf]
      | literal value => rfl
  unfold ownText
  rw [hmap _ fun _ => rfl]
  rfl

end

@[simp] theorem tidied_kind (element : Element) : (tidied element).kind = element.kind := by
  obtain ⟨kind, key, props, children⟩ := element
  rw [tidied]
  split <;> rfl

theorem look_congr {element other : Element} (hkind : element.kind = other.kind)
    (hrow : isRow element = isRow other) : look element = look other := by
  rw [look, look, hkind, hrow]

theorem look_tidied (element : Element) : look (tidied element) = look element := by
  obtain ⟨kind, key, props, children⟩ := element
  rw [tidied]
  split
  · refine look_congr rfl ?_
    rw [isRow, isRow, childElements_filter]
  · refine look_congr rfl ?_
    rw [isRow, isRow, childElements_tidiedIn, List.isEmpty_map, List.all_map]
    simp only [Function.comp_def, tidied_kind]
  · rfl

mutual

theorem length_focusablesUnder_tidied : ∀ element,
    (focusablesUnder (tidied element)).length = (focusablesUnder element).length
  | ⟨kind, key, props, children⟩ => by
    rw [tidied]
    split
    · rw [length_focusablesUnder, length_focusablesUnder, focusablesIn_filter]
    · rw [length_focusablesUnder, length_focusablesUnder, length_focusablesIn_tidiedIn]
    · rfl

theorem length_focusablesIn_tidiedIn : ∀ children,
    (focusablesIn (tidiedIn children)).length = (focusablesIn children).length
  | [] => rfl
  | child :: children => by
    rw [tidiedIn, focusablesIn, focusablesIn, List.length_append, List.length_append,
      length_focusablesOf_tidiedOf, length_focusablesIn_tidiedIn]

theorem length_focusablesOf_tidiedOf : ∀ child,
    (focusablesOf (tidiedOf child)).length = (focusablesOf child).length
  | .element element => length_focusablesUnder_tidied element
  | .literal _ => rfl

end

mutual

theorem drawElement_tidied (cursor : Cursor) (level before : Nat) : ∀ element,
    drawElement cursor level before (tidied element) = drawElement cursor level before element
  | ⟨kind, key, props, children⟩ => by
    have hsame := look_tidied ⟨kind, key, props, children⟩
    rw [tidied] at hsame ⊢
    cases hlook : look ⟨kind, key, props, children⟩ with
    | row =>
      simp only [hlook] at hsame ⊢
      simp only [drawElement, hlook, hsame, rowLine, childElements_filter]
    | nested card =>
      simp only [hlook] at hsame ⊢
      simp only [drawElement, hlook, hsame, ownText_tidiedIn, drawContents_tidiedIn]
    | _ => rfl

theorem drawContents_tidiedIn (cursor : Cursor) (level before : Nat) : ∀ children,
    drawContents cursor level before (tidiedIn children) = drawContents cursor level before children
  | [] => rfl
  | child :: children => by
    rw [tidiedIn, drawContents, drawContents, drawContent_tidiedOf, length_focusablesOf_tidiedOf,
      drawContents_tidiedIn]

theorem drawContent_tidiedOf (cursor : Cursor) (level before : Nat) : ∀ child,
    drawContent cursor level before (tidiedOf child) = drawContent cursor level before child
  | .element element => drawElement_tidied cursor level before element
  | .literal _ => rfl

end

theorem drawRoots_tidied (cursor : Cursor) (before : Nat) (roots : List Element) :
    drawRoots cursor before (roots.map tidied) = drawRoots cursor before roots := by
  induction roots generalizing before with
  | nil => rfl
  | cons root roots ih =>
    rw [List.map_cons, drawRoots, drawRoots, drawElement_tidied, length_focusablesUnder_tidied, ih]

/-- A drawing is the same without the loose content. -/
theorem drawLines_tidied (roots : List Element) (cursor : Cursor) :
    drawLines (roots.map tidied) cursor = drawLines roots cursor :=
  drawRoots_tidied cursor 0 roots

/-- The content among some that is not loose. -/
def firm (entries : List (List Element × Json)) : List Json :=
  (entries.filter fun entry => !decide (IsLoose entry.1)).map Prod.snd

theorem firm_append (first second : List (List Element × Json)) :
    firm (first ++ second) = firm first ++ firm second := by
  rw [firm, List.filter_append, List.map_append]
  rfl

theorem firm_eq_of_not_loose {entries : List (List Element × Json)}
    (h : ∀ entry ∈ entries, ¬IsLoose entry.1) : firm entries = entries.map Prod.snd := by
  rw [firm, List.filter_eq_self.mpr]
  intro entry hmem
  simp [h entry hmem]

/-- Below an element that hides its children nothing is loose, except what stands in it when it is a
row. -/
theorem not_isLoose {hidden : Element} (h : hidden :: above <:+ trail)
    (hhidden : showsChildren hidden = false) (hrow : look hidden = .row → hidden :: above ≠ trail) :
    ¬IsLoose trail := by
  intro hloose
  cases trail with
  | nil => exact hloose
  | cons row rest =>
    rcases List.suffix_cons_iff.mp h with heq | hsuffix
    · obtain ⟨rfl, -⟩ := List.cons.inj heq
      exact hrow hloose.1 heq
    · -- The hidden element is above the row, where all elements show their children.
      have hshows := List.all_eq_true.mp hloose.2 hidden (hsuffix.subset List.mem_cons_self)
      exact Bool.false_ne_true (hhidden.symm.trans hshows)

mutual

theorem map_literalsUnder (above other : List Element) : ∀ element,
    (literalsUnder above element).map Prod.snd = (literalsUnder other element).map Prod.snd
  | ⟨_, _, _, children⟩ => by
    rw [literalsUnder, literalsUnder]
    exact map_literalsIn _ _ children

theorem map_literalsIn (above other : List Element) : ∀ children,
    (literalsIn above children).map Prod.snd = (literalsIn other children).map Prod.snd
  | [] => rfl
  | child :: children => by
    rw [literalsIn, literalsIn, List.map_append, List.map_append, map_literalsOf above other child,
      map_literalsIn above other children]

theorem map_literalsOf (above other : List Element) : ∀ child,
    (literalsOf above child).map Prod.snd = (literalsOf other child).map Prod.snd
  | .element element => map_literalsUnder above other element
  | .literal _ => rfl

end

/-- The content of a row that is not loose is that of its spans. -/
theorem firm_literalsIn_row {row : Element} (hrow : look row = .row)
    (habove : above.all showsChildren = true) (other : List Element) (children : List Content) :
    firm (literalsIn (row :: above) children)
      = (literalsIn other (children.filter fun child => child.element?.isSome)).map Prod.snd := by
  have hhidden : showsChildren row = false := by
    rw [showsChildren, hrow]
  induction children with
  | nil => rfl
  | cons child children ih =>
    rw [literalsIn, firm_append, ih]
    cases child with
    | element span =>
      rw [List.filter_cons_of_pos rfl, literalsIn, List.map_append]
      congr 1
      refine (firm_eq_of_not_loose ?_).trans (map_literalsUnder _ _ span)
      rintro ⟨trail, value⟩ hmem
      have hsuffix := suffix_of_mem_literalsUnder span hmem
      refine not_isLoose ((List.suffix_cons span _).trans hsuffix) hhidden fun _ heq => ?_
      -- The span is one more element above the content.
      have hlength : (span :: row :: above).length ≤ (row :: above).length :=
        heq ▸ hsuffix.length_le
      exact absurd hlength (by simp)
    | literal value =>
      have hloose : firm (literalsOf (row :: above) (.literal value)) = [] := by
        simp [firm, literalsOf, IsLoose, hrow, habove]
      rw [List.filter_cons_of_neg (by simp [Content.element?]), hloose, List.nil_append]

mutual

theorem firm_literalsUnder {above : List Element} (habove : above.all showsChildren = true)
    (other : List Element) : ∀ element,
    firm (literalsUnder above element) = (literalsUnder other (tidied element)).map Prod.snd
  | ⟨kind, key, props, children⟩ => by
    have hleaf : showsChildren ⟨kind, key, props, children⟩ = false →
        look ⟨kind, key, props, children⟩ ≠ .row →
        firm (literalsUnder above ⟨kind, key, props, children⟩)
          = (literalsUnder other ⟨kind, key, props, children⟩).map Prod.snd := by
      intro hhidden hrow
      refine (firm_eq_of_not_loose ?_).trans (map_literalsUnder _ _ _)
      rintro ⟨trail, value⟩ hmem
      exact not_isLoose (suffix_of_mem_literalsUnder _ hmem) hhidden fun h => absurd h hrow
    rw [tidied]
    cases hlook : look ⟨kind, key, props, children⟩ with
    | row =>
      dsimp only
      rw [literalsUnder, literalsUnder]
      exact firm_literalsIn_row hlook habove _ children
    | nested card =>
      dsimp only
      rw [literalsUnder, literalsUnder]
      refine firm_literalsIn ?_ _ children
      rw [List.all_cons, (showsChildren_iff _).mpr ⟨card, hlook⟩, habove]
      rfl
    | _ => exact hleaf (by rw [showsChildren, hlook]) (by simp [hlook])

theorem firm_literalsIn {above : List Element} (habove : above.all showsChildren = true)
    (other : List Element) : ∀ children,
    firm (literalsIn above children) = (literalsIn other (tidiedIn children)).map Prod.snd
  | [] => rfl
  | child :: children => by
    rw [tidiedIn, literalsIn, literalsIn, firm_append, List.map_append,
      firm_literalsOf habove other child, firm_literalsIn habove other children]

theorem firm_literalsOf {above : List Element} (habove : above.all showsChildren = true)
    (other : List Element) : ∀ child,
    firm (literalsOf above child) = (literalsOf other (tidiedOf child)).map Prod.snd
  | .element element => firm_literalsUnder habove other element
  | .literal value => by
    have hplace : ¬IsLoose above := by
      intro hloose
      cases above with
      | nil => exact hloose
      | cons row rest =>
        have hshows := List.all_eq_true.mp habove row List.mem_cons_self
        obtain ⟨card, hlook⟩ := (showsChildren_iff _).mp hshows
        exact nomatch hloose.1.symm.trans hlook
    exact firm_eq_of_not_loose (List.forall_mem_singleton.mpr hplace)

end

/-- The content that is left is the content that is not loose. -/
theorem firm_literals (roots : List Element) :
    firm (literals roots) = (literals (roots.map tidied)).map Prod.snd := by
  induction roots with
  | nil => rfl
  | cons root roots ih =>
    have hroot : firm (literalsUnder [] root) = (literalsUnder [] (tidied root)).map Prod.snd :=
      firm_literalsUnder rfl [] root
    rw [List.map_cons, literals, List.flatMap_cons, firm_append, hroot, ← literals, ih, literals,
      literals, List.flatMap_cons, List.map_append]

/-- **What a drawing shows.**  Content that is not loose is drawn, whatever the cursor is, when no
line break cuts it and the elements above it show it.  Loose content is not: the drawing is that of
a view that has all other content, and none that is loose. -/
theorem content_drawn (roots : List Element) (cursor : Cursor) :
    (∀ trail value, (trail, value) ∈ literals roots →
      (∀ element ∈ trail, ShowsContent element) → Unbroken value.display → ¬IsLoose trail →
      StandsOn value.display (drawLines roots cursor)) ∧
    drawLines roots cursor = drawLines (roots.map tidied) cursor ∧
    (literals (roots.map tidied)).map Prod.snd = firm (literals roots) := by
  refine ⟨fun trail value hmem hshows htext hplace => ?_, ?_, ?_⟩
  · have hshown : IsShown trail value := ⟨htext, hshows, hplace⟩
    exact standsOn_drawRoots hshown cursor 0 hmem
  · exact (drawLines_tidied roots cursor).symm
  · exact (firm_literals roots).symm

/-- A text in a card, beside a row that has a span, is drawn, and so is that of the span. -/
theorem content_drawn_card :
    let total : Json := .text "Total"
    let three : Json := .text "3"
    let span : Element := ⟨"span", none, [], [.literal three]⟩
    let row : Element := ⟨"div", none, [], [.element span]⟩
    let card : Element := ⟨"Card", none, [], [.literal total, .element row]⟩
    ∀ cursor, StandsOn total.display (drawLines [card] cursor) ∧
      StandsOn three.display (drawLines [card] cursor) := by
  intro total three span row card cursor
  have hshown := (content_drawn [card] cursor).1
  constructor
  · have hmem : ([card], total) ∈ literals [card] := List.mem_cons_self
    have htext : Unbroken total.display := ⟨by decide, by decide, by decide⟩
    have hplace : ¬IsLoose [card] := by decide +kernel
    refine hshown _ _ hmem ?_ htext hplace
    simp [ShowsContent, card, setProp, Element.prop, Attributes.get?]
  · have hmem : ([span, row, card], three) ∈ literals [card] :=
      List.mem_cons_of_mem _ List.mem_cons_self
    have htext : Unbroken three.display := ⟨by decide, by decide, by decide⟩
    have hplace : ¬IsLoose [span, row, card] := by decide +kernel
    refine hshown _ _ hmem ?_ htext hplace
    simp [ShowsContent, span, row, card, setProp, Element.prop, Attributes.get?]

/-- A text beside the span of a row is lost: the row is drawn from its spans. -/
theorem text_beside_span_lost :
    let span : Element := ⟨"span", none, [], [.literal (.text "3")]⟩
    let row : Element := ⟨"div", none, [], [.literal (.text "Total: "), .element span]⟩
    ([row], Json.text "Total: ") ∈ literals [row] ∧ (∀ element ∈ [row], ShowsContent element) ∧
      Unbroken (Json.text "Total: ").display ∧
      ¬StandsOn (Json.text "Total: ").display (drawLines [row] {}) := by
  intro span row
  refine ⟨List.mem_cons_self, ?_, ⟨by decide, by decide, by decide⟩, ?_⟩
  · simp [ShowsContent, row, setProp, Element.prop, Attributes.get?]
  · have hdrawn : drawLines [row] {} = [[{ text := "" }, { text := "3" }]] := by decide +kernel
    rw [hdrawn]
    unfold StandsOn
    decide

end ViewTree.Terminal
