import Mathlib.Data.List.Shortlex
import ViewTree.Render.Element

/-!
# Walking a tree of elements

A position under an element is the list of the numbers of the children on the way down to it.  Two
orders of positions are two ways to walk a tree: the lexicographic one goes depth first, parents
before their children, and `List.Shortlex`, which looks at the length first, goes level by level,
each from left to right.

* `breadthFirst_append`: what stands at the front of a queue is listed as it stands, and its
  children come after all else in the queue.  So the queue turns over one level after another, and
  `descendants` is the levels joined (`descendants_eq`).
* `mem_level_iff` and `pairwise_level`: a level holds the positions of one length, from left to
  right.
* `find?_eq_some_iff`: what is found stands at the lexicographically least position that matches.

`Element.traversals` joins these: `descendants` lists each position once in the order of the one
walk, and `find?` finds the first match in the order of the other.
-/

namespace ViewTree

/-- The numbers of the children on the way down from an element to one under it. -/
abbrev Position := List Nat

namespace Element

variable {element child found other : Element} {position : Position} {i depth : Nat}

/-- The element at a position, if the way leads to one. -/
def at? : Element → Position → Option Element
  | element, [] => some element
  | element, i :: position =>
    ((element.children[i]?).bind Content.element?).bind fun child => child.at? position

/-! ### Children with their numbers -/

/-- The elements among the children, each with its number. -/
def numberedElements (element : Element) : List (Nat × Element) :=
  element.children.zipIdx.filterMap fun numbered => numbered.1.element?.map (numbered.2, ·)

theorem map_numberedElements (element : Element) :
    element.numberedElements.map Prod.snd = element.childElements := by
  have hchildren : element.childElements
      = (element.children.zipIdx.map Prod.fst).filterMap Content.element? := by
    rw [List.zipIdx_map_fst, childElements]
  rw [hchildren, numberedElements, List.map_filterMap, List.filterMap_map]
  refine List.filterMap_congr fun numbered _ => ?_
  exact Option.map_map .. |>.trans (Option.map_id' ..)

theorem mem_numberedElements_iff :
    (i, child) ∈ element.numberedElements
      ↔ (element.children[i]?).bind Content.element? = some child := by
  simp only [numberedElements, List.mem_filterMap, List.mem_zipIdx_iff_getElem?, Prod.exists,
    Option.map_eq_some_iff, Prod.mk.injEq, Option.bind_eq_some_iff]
  constructor
  · rintro ⟨content, _, hcontent, _, helement, rfl, rfl⟩
    exact ⟨content, hcontent, helement⟩
  · rintro ⟨content, hcontent, helement⟩
    exact ⟨content, i, hcontent, child, helement, rfl, rfl⟩

/-- The numbers of the children grow from left to right. -/
theorem pairwise_numberedElements (element : Element) :
    element.numberedElements.Pairwise fun a b => a.1 < b.1 := by
  have hnumbers : element.children.zipIdx.Pairwise fun a b => a.2 < b.2 := by
    rw [← List.pairwise_map (R := (· < ·)), List.zipIdx_map_snd]
    exact List.pairwise_lt_range'
  refine hnumbers.filterMap _ ?_
  rintro ⟨content, i⟩ ⟨content', j⟩ hlt _ hfst _ hsnd
  obtain ⟨_, -, rfl⟩ := Option.map_eq_some_iff.mp hfst
  obtain ⟨_, -, rfl⟩ := Option.map_eq_some_iff.mp hsnd
  exact hlt

/-- A child that is not numbered higher than another stands before it, or is the same. -/
theorem mem_before_or_eq {before after : List (Nat × Element)} {sibling : Element} {j : Nat}
    (hsplit : element.numberedElements = before ++ (i, child) :: after)
    (hmem : (j, sibling) ∈ element.numberedElements) (hle : j ≤ i) :
    (j, sibling) ∈ before ∨ (j, sibling) = (i, child) := by
  obtain ⟨-, hafter, -⟩ := List.pairwise_append.mp (hsplit ▸ element.pairwise_numberedElements)
  rw [hsplit] at hmem
  rcases List.mem_append.mp hmem with hmem | hmem
  · exact .inl hmem
  · rcases List.mem_cons.mp hmem with heq | hmem
    · exact .inr heq
    · have hlt : i < j := (List.pairwise_cons.mp hafter).1 _ hmem
      omega

theorem mem_childElements_of_mem (h : (i, child) ∈ element.numberedElements) :
    child ∈ element.childElements :=
  map_numberedElements element ▸ List.mem_map_of_mem h

/-- A child with all under it has fewer elements than its parent. -/
theorem size_lt_of_mem_childElements (h : child ∈ element.childElements) :
    child.size < element.size := by
  obtain ⟨before, after, hchildren⟩ := List.append_of_mem h
  rw [size_eq element, hchildren, total_append, total]
  omega

/-- What holds of an element whenever it holds of the elements among its children holds of all. -/
@[elab_as_elim]
theorem induction_children {motive : Element → Prop}
    (step : ∀ element, (∀ child ∈ element.childElements, motive child) → motive element)
    (element : Element) : motive element :=
  step element fun child _ => induction_children step child
termination_by element.size
decreasing_by exact size_lt_of_mem_childElements ‹_›

/-! ### Positions -/

theorem at?_nil : element.at? [] = some element := by
  rw [at?]

theorem eq_of_at?_nil (h : element.at? [] = some other) : element = other :=
  Option.some.inj (at?_nil.symm.trans h)

/-- The way to a position starts with a child and goes on under it. -/
theorem at?_cons_iff :
    element.at? (i :: position) = some other
      ↔ ∃ child, (i, child) ∈ element.numberedElements ∧ child.at? position = some other := by
  simp only [at?, Option.bind_eq_some_iff (x := Option.bind _ _), mem_numberedElements_iff]

/-- The further down an element is, the fewer elements are under it. -/
theorem length_add_size_le (h : element.at? position = some other) :
    position.length + other.size ≤ element.size := by
  induction position generalizing element with
  | nil =>
    obtain rfl := eq_of_at?_nil h
    exact (Nat.zero_add _).le
  | cons i position ih =>
    obtain ⟨child, hchild, hother⟩ := at?_cons_iff.mp h
    have hsize := size_lt_of_mem_childElements (mem_childElements_of_mem hchild)
    have hbelow := ih hother
    rw [List.length_cons]
    omega

theorem length_lt_size (h : element.at? position = some other) :
    position.length < element.size := by
  have hle := length_add_size_le h
  rw [size_eq other] at hle
  omega

/-! ### Levels -/

/-- The elements that many steps down, each with its position. -/
def level : Element → Nat → List (Position × Element)
  | element, 0 => [([], element)]
  | element, depth + 1 =>
    element.numberedElements.flatMap fun (i, child) =>
      (child.level depth).map fun (position, other) => (i :: position, other)

/-- A level holds the positions of one length. -/
theorem mem_level_iff :
    (position, other) ∈ element.level depth
      ↔ position.length = depth ∧ element.at? position = some other := by
  induction depth generalizing element position with
  | zero =>
    rw [level, List.mem_singleton, List.length_eq_zero_iff, Prod.mk.injEq]
    refine and_congr_right ?_
    rintro rfl
    rw [at?_nil, Option.some.injEq, eq_comm]
  | succ depth ih =>
    simp only [level, List.mem_flatMap, List.mem_map, Prod.exists, Prod.mk.injEq]
    constructor
    · rintro ⟨i, child, hchild, position, _, hmem, rfl, rfl⟩
      obtain ⟨rfl, hother⟩ := ih.mp hmem
      exact ⟨rfl, at?_cons_iff.mpr ⟨child, hchild, hother⟩⟩
    · rintro ⟨hlength, hother⟩
      obtain ⟨i, position, rfl⟩ := List.exists_cons_of_length_eq_add_one hlength
      obtain ⟨child, hchild, hother⟩ := at?_cons_iff.mp hother
      exact ⟨i, child, hchild, position, other, ih.mpr ⟨Nat.succ.inj hlength, hother⟩, rfl, rfl⟩

/-- A level goes from left to right. -/
theorem pairwise_level (element : Element) (depth : Nat) :
    (element.level depth).Pairwise fun a b => a.1 < b.1 := by
  induction depth generalizing element with
  | zero => exact List.pairwise_singleton _ _
  | succ depth ih =>
    rw [level, List.pairwise_flatMap]
    constructor
    · rintro ⟨i, child⟩ -
      refine List.pairwise_map.mpr ((ih child).imp ?_)
      intro a b hlt
      exact List.cons_lt_cons_iff.mpr (.inr ⟨rfl, hlt⟩)
    · refine element.pairwise_numberedElements.imp ?_
      rintro ⟨i, child⟩ ⟨j, child'⟩ hlt a ha b hb
      obtain ⟨_, -, rfl⟩ := List.mem_map.mp ha
      obtain ⟨_, -, rfl⟩ := List.mem_map.mp hb
      exact List.cons_lt_cons_iff.mpr (.inl hlt)

/-- The elements that many steps down. -/
def elementsAt (element : Element) (depth : Nat) : List Element :=
  (element.level depth).map Prod.snd

theorem elementsAt_zero : element.elementsAt 0 = [element] := by
  rw [elementsAt, level]
  rfl

/-- The elements a step further down are those under the children. -/
theorem elementsAt_succ_eq :
    element.elementsAt (depth + 1)
      = element.childElements.flatMap fun child => child.elementsAt depth := by
  rw [elementsAt, level, List.map_flatMap, ← map_numberedElements, List.flatMap_map]
  simp only [elementsAt, List.map_map, Function.comp_def]

/-- The elements a step further down are the children of those of the level. -/
theorem elementsAt_succ (element : Element) (depth : Nat) :
    element.elementsAt (depth + 1) = (element.elementsAt depth).flatMap childElements := by
  induction depth generalizing element with
  | zero =>
    simp only [elementsAt_succ_eq, elementsAt_zero, List.flatMap_singleton, List.flatMap_singleton']
  | succ depth ih =>
    rw [elementsAt_succ_eq, elementsAt_succ_eq, List.flatMap_assoc]
    simp only [ih]

/-- No element is as many steps down as there are elements. -/
theorem elementsAt_size : element.elementsAt element.size = [] := by
  rw [elementsAt, List.map_eq_nil_iff, List.eq_nil_iff_forall_not_mem]
  rintro ⟨position, other⟩ hmem
  obtain ⟨hlength, hother⟩ := mem_level_iff.mp hmem
  exact (length_lt_size hother).ne hlength

/-! ### Breadth first -/

/-- What stands at the front of a queue is listed as it stands, and the rest of the queue before its
children. -/
theorem breadthFirst_append (front queue : List Element) :
    breadthFirst (front ++ queue)
      = front ++ breadthFirst (queue ++ front.flatMap childElements) := by
  induction front generalizing queue with
  | nil => rw [List.flatMap_nil, List.append_nil]; rfl
  | cons element front ih =>
    rw [List.cons_append, breadthFirst, List.append_assoc, ih, List.flatMap_cons,
      List.append_assoc, List.cons_append]

/-- So many levels are listed one after another, and then what is listed from the next. -/
theorem descendants_eq_append (element : Element) (levels : Nat) :
    element.descendants = (List.range levels).flatMap element.elementsAt
      ++ breadthFirst (element.elementsAt levels) := by
  induction levels with
  | zero => rw [descendants, elementsAt_zero]; rfl
  | succ levels ih =>
    have hnext : breadthFirst (element.elementsAt levels)
        = element.elementsAt levels ++ breadthFirst (element.elementsAt (levels + 1)) := by
      simpa only [List.append_nil, List.nil_append, elementsAt_succ]
        using breadthFirst_append (element.elementsAt levels) []
    rw [ih, hnext, List.range_succ, List.flatMap_append, List.flatMap_singleton, List.append_assoc]

/-- The elements under an element are those of its levels. -/
theorem descendants_eq (element : Element) :
    element.descendants = (List.range element.size).flatMap element.elementsAt := by
  rw [descendants_eq_append element element.size, elementsAt_size, breadthFirst, List.append_nil]

/-- The positions of all levels. -/
def positions (element : Element) : List Position :=
  (List.range element.size).flatMap fun depth => (element.level depth).map Prod.fst

theorem mem_positions_iff : position ∈ element.positions ↔ (element.at? position).isSome := by
  simp only [positions, List.mem_flatMap, List.mem_range, List.mem_map, Prod.exists, mem_level_iff,
    Option.isSome_iff_exists]
  constructor
  · rintro ⟨_, -, _, other, ⟨-, hother⟩, rfl⟩
    exact ⟨other, hother⟩
  · rintro ⟨other, hother⟩
    exact ⟨position.length, length_lt_size hother, position, other, ⟨rfl, hother⟩, rfl⟩

/-- Shorter ways come first, and those of one length go from left to right. -/
theorem pairwise_positions (element : Element) :
    element.positions.Pairwise (List.Shortlex (· < ·)) := by
  refine List.pairwise_flatMap.mpr ⟨?_, ?_⟩
  · intro depth _
    refine List.pairwise_map.mpr ((element.pairwise_level depth).imp_of_mem ?_)
    intro a b ha hb hlt
    exact .of_lex ((mem_level_iff.mp ha).1.trans (mem_level_iff.mp hb).1.symm) hlt
  · refine List.pairwise_lt_range.imp ?_
    rintro m n hlt _ ha _ hb
    obtain ⟨⟨position, other⟩, hposition, rfl⟩ := List.mem_map.mp ha
    obtain ⟨⟨position', other'⟩, hposition', rfl⟩ := List.mem_map.mp hb
    refine .of_length_lt ?_
    rwa [(mem_level_iff.mp hposition).1, (mem_level_iff.mp hposition').1]

theorem map_at?_positions (element : Element) :
    element.positions.map element.at? = element.descendants.map some := by
  rw [positions, descendants_eq, List.map_flatMap, List.map_flatMap]
  refine List.flatMap_congr fun depth _ => ?_
  rw [elementsAt, List.map_map, List.map_map]
  exact List.map_congr_left fun _ hmem => (mem_level_iff.mp hmem).2

/-- An element is listed when there is a position where it stands. -/
theorem mem_descendants_iff :
    other ∈ element.descendants ↔ ∃ position, element.at? position = some other := by
  have hsome : other ∈ element.descendants ↔ some other ∈ element.descendants.map some := by
    simp only [List.mem_map, Option.some.injEq, exists_eq_right]
  rw [hsome, ← map_at?_positions, List.mem_map]
  constructor
  · rintro ⟨position, -, hother⟩
    exact ⟨position, hother⟩
  · rintro ⟨position, hother⟩
    exact ⟨position, mem_positions_iff.mpr (hother ▸ rfl), hother⟩

/-! ### Depth first -/

variable {p : Element → Bool}

theorem findIn?_eq (p : Element → Bool) (children : List Content) :
    findIn? p children = (children.filterMap Content.element?).findSome? (find? p) := by
  induction children with
  | nil => rw [findIn?]; rfl
  | cons child children ih =>
    rw [findIn?, ih]
    cases child with
    | element e =>
      have hhead : (Content.element e :: children).filterMap Content.element?
          = e :: children.filterMap Content.element? := List.filterMap_cons_some rfl
      rw [findInChild?, hhead, List.findSome?_cons]
      cases find? p e <;> rfl
    | literal value => rw [findInChild?]; rfl

/-- An element that does not match leaves the search to its children, from left to right. -/
theorem find?_eq (p : Element → Bool) (element : Element) :
    find? p element
      = if p element then some element
        else element.numberedElements.findSome? fun numbered => find? p numbered.2 := by
  have hchildren : (element.numberedElements.findSome? fun numbered => find? p numbered.2)
      = element.childElements.findSome? (find? p) := by
    rw [← map_numberedElements, List.findSome?_map]
    rfl
  rw [hchildren]
  obtain ⟨kind, key, props, children⟩ := element
  rw [find?, findIn?_eq, childElements]

/-- A search fails when no element matches. -/
theorem find?_eq_none_iff :
    find? p element = none
      ↔ ∀ position other, element.at? position = some other → p other = false := by
  induction element using induction_children with
  | step element ih =>
  rw [find?_eq]
  by_cases hp : p element
  · rw [if_pos hp]
    refine ⟨nofun, fun h => ?_⟩
    exact absurd hp (Bool.eq_false_iff.mp (h [] element at?_nil))
  · rw [if_neg hp, List.findSome?_eq_none_iff]
    constructor
    · intro h position other hother
      cases position with
      | nil =>
        obtain rfl := eq_of_at?_nil hother
        exact Bool.eq_false_iff.mpr hp
      | cons i position =>
        obtain ⟨child, hchild, hother⟩ := at?_cons_iff.mp hother
        have hnone := (ih child (mem_childElements_of_mem hchild)).mp (h (i, child) hchild)
        exact hnone position other hother
    · rintro h ⟨i, child⟩ hchild
      refine (ih child (mem_childElements_of_mem hchild)).mpr fun position other hother => ?_
      exact h (i :: position) other (at?_cons_iff.mpr ⟨child, hchild, hother⟩)

/-- What is found stands at a position that matches, and none before it in the lexicographic order
does. -/
theorem exists_of_find?_eq_some (h : find? p element = some found) :
    ∃ position, element.at? position = some found ∧ p found ∧
      ∀ earlier < position, ∀ other, element.at? earlier = some other → p other = false := by
  induction element using induction_children with
  | step element ih =>
  rw [find?_eq] at h
  by_cases hp : p element
  · rw [if_pos hp] at h
    obtain rfl := Option.some.inj h
    exact ⟨[], at?_nil, hp, fun earlier hlt => absurd hlt (List.not_lt_nil earlier)⟩
  · rw [if_neg hp, List.findSome?_eq_some_iff] at h
    obtain ⟨before, ⟨i, child⟩, after, hsplit, hfind, hbefore⟩ := h
    have hchild : (i, child) ∈ element.numberedElements :=
      hsplit ▸ List.mem_append_right _ List.mem_cons_self
    obtain ⟨position, hfound, hmatch, hfirst⟩ := ih child (mem_childElements_of_mem hchild) hfind
    refine ⟨i :: position, at?_cons_iff.mpr ⟨child, hchild, hfound⟩, hmatch, ?_⟩
    intro earlier hlt other hother
    cases earlier with
    | nil =>
      obtain rfl := eq_of_at?_nil hother
      exact Bool.eq_false_iff.mpr hp
    | cons j earlier =>
      obtain ⟨sibling, hsibling, hother⟩ := at?_cons_iff.mp hother
      have hhead : j < i ∨ j = i ∧ earlier < position := List.cons_lt_cons_iff.mp hlt
      -- The first match under the child is first of all: the siblings before it have none.
      rcases mem_before_or_eq hsplit hsibling (by omega) with hmem | heq
      · exact find?_eq_none_iff.mp (hbefore _ hmem) earlier other hother
      · obtain ⟨rfl, rfl⟩ := Prod.mk.inj heq
        have hunder : earlier < position := (hhead.resolve_left (Nat.lt_irrefl _)).2
        exact hfirst earlier hunder other hother

/-- What is found is what stands at the lexicographically least position that matches. -/
theorem find?_eq_some_iff :
    find? p element = some found
      ↔ ∃ position, element.at? position = some found ∧ p found ∧
        ∀ earlier < position, ∀ other, element.at? earlier = some other → p other = false := by
  refine ⟨exists_of_find?_eq_some, ?_⟩
  rintro ⟨position, hposition, hmatch, hfirst⟩
  cases hfind : find? p element with
  | none =>
    exact absurd hmatch (Bool.eq_false_iff.mp (find?_eq_none_iff.mp hfind position found hposition))
  | some first =>
    -- Two least positions are one.
    obtain ⟨position', hposition', hmatch', hfirst'⟩ := exists_of_find?_eq_some hfind
    rcases lt_trichotomy position position' with hlt | rfl | hlt
    · exact absurd hmatch (Bool.eq_false_iff.mp (hfirst' position hlt found hposition))
    · exact hposition'.symm.trans hposition
    · exact absurd hmatch' (Bool.eq_false_iff.mp (hfirst position' hlt first hposition'))

theorem isSome_find?_iff : (find? p element).isSome ↔ ∃ other ∈ element.descendants, p other := by
  rw [Option.isSome_iff_ne_none, ne_eq, find?_eq_none_iff]
  simp only [mem_descendants_iff, not_forall, Bool.not_eq_false, exists_prop]
  constructor
  · rintro ⟨position, other, hother, hmatch⟩
    exact ⟨other, ⟨position, hother⟩, hmatch⟩
  · rintro ⟨other, ⟨position, hother⟩, hmatch⟩
    exact ⟨position, other, hother, hmatch⟩

/-- The elements of a tree are listed one for each position, the shallower ones first and those of
one depth from left to right; the search for a match takes the first in the order that goes depth
first, parents before their children, and fails only when no element that is listed matches. -/
theorem traversals (element : Element) :
    (∃ positions : List Position,
      positions.Pairwise (List.Shortlex (· < ·)) ∧
      (∀ position, position ∈ positions ↔ (element.at? position).isSome) ∧
      positions.map element.at? = element.descendants.map some) ∧
    ∀ p : Element → Bool,
      (∀ found, find? p element = some found ↔
        ∃ position, element.at? position = some found ∧ p found ∧
          ∀ earlier < position, ∀ other, element.at? earlier = some other → p other = false) ∧
      ((find? p element).isSome ↔ ∃ other ∈ element.descendants, p other) :=
  ⟨⟨element.positions, element.pairwise_positions, fun _ => mem_positions_iff,
      element.map_at?_positions⟩,
    fun _ => ⟨fun _ => find?_eq_some_iff, isSome_find?_iff⟩⟩

example :
    let title : Content := .element { ofKind "CardTitle" with children := [.literal (.text "Ann")] }
    let header : Content := .element { ofKind "CardHeader" with children := [title] }
    let body : Content := .element (ofKind "CardContent")
    positions { ofKind "Card" with children := [header, .literal (.text " / "), body] }
      = [[], [0], [2], [0, 0]] := by
  decide

end Element

end ViewTree
