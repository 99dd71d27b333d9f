import ViewTree.Text.Split

/-!
# Where a text is cut

A separator that is not in the first part of a text marks where the part ends
(`cut_append_cons`, `append_cons_inj`), and `stripLead` takes off exactly what a text starts with
(`stripLead_eq_some_iff`).  Numbers are written in digits alone (`not_mem_toString`), so they can
stand between separators.  A stretch of text that no line break cuts is on one of the lines of the
text (`exists_mem_lines`).
-/

namespace ViewTree.Text

variable {sep : Char} {cs ds rest rest' lead : List Char}

theorem cut_append_cons (h : sep ∉ cs) : cut sep (cs ++ sep :: rest) = some (cs, rest) := by
  induction cs with
  | nil => simp [cut]
  | cons c cs ih =>
    have hc : c ≠ sep := fun hsep => h (hsep ▸ List.mem_cons_self)
    have hcs : sep ∉ cs := fun hmem => h (List.mem_cons_of_mem c hmem)
    rw [List.cons_append, cut, if_neg hc, ih hcs]
    rfl

theorem cut_eq_none (h : sep ∉ cs) : cut sep cs = none := by
  induction cs with
  | nil => rfl
  | cons c cs ih =>
    have hc : c ≠ sep := fun hsep => h (hsep ▸ List.mem_cons_self)
    have hcs : sep ∉ cs := fun hmem => h (List.mem_cons_of_mem c hmem)
    rw [cut, if_neg hc, ih hcs]
    rfl

/-- What stands before the first separator, and what stands behind it, can be read off a text. -/
theorem append_cons_inj (h : sep ∉ cs) (h' : sep ∉ ds)
    (heq : cs ++ sep :: rest = ds ++ sep :: rest') : cs = ds ∧ rest = rest' := by
  have hcut : some (cs, rest) = some (ds, rest') := by
    rw [← cut_append_cons h, heq, cut_append_cons h']
  exact Prod.mk.inj (Option.some.inj hcut)

/-- Where a part without separators is followed by one, any text up to a separator starts with
it. -/
theorem lead_of_append_cons (h : sep ∉ cs) (heq : ds ++ sep :: rest = cs ++ sep :: rest') :
    ∃ more, ds ++ [sep] = cs ++ sep :: more := by
  by_cases hmem : sep ∈ ds
  · obtain ⟨front, back, rfl, hfront⟩ := List.eq_append_cons_of_mem hmem
    rw [List.append_assoc, List.cons_append] at heq
    obtain ⟨rfl, -⟩ := append_cons_inj hfront h heq
    exact ⟨back ++ [sep], by rw [List.append_assoc, List.cons_append]⟩
  · obtain ⟨rfl, -⟩ := append_cons_inj hmem h heq
    exact ⟨[], rfl⟩

theorem stripLead_eq_some_iff : stripLead lead cs = some rest ↔ cs = lead ++ rest := by
  induction lead generalizing cs with
  | nil => simp [stripLead]
  | cons l lead ih =>
    cases cs with
    | nil => simp [stripLead]
    | cons c cs =>
      rw [stripLead]
      split
      case isTrue hlead => simp [ih, hlead]
      case isFalse hlead => simp [Ne.symm hlead]

theorem stripLead_append : stripLead lead (lead ++ rest) = some rest :=
  stripLead_eq_some_iff.mpr rfl

theorem stripTail_eq_some_iff {tail : List Char} :
    stripTail tail cs = some rest ↔ cs = rest ++ tail := by
  rw [stripTail, Option.map_eq_some_iff]
  constructor
  · rintro ⟨front, hfront, rfl⟩
    have hreverse : cs.reverse = tail.reverse ++ front := stripLead_eq_some_iff.mp hfront
    rw [← List.reverse_inj, hreverse, List.reverse_append, List.reverse_reverse]
  · rintro rfl
    exact ⟨rest.reverse, by rw [List.reverse_append, stripLead_append], List.reverse_reverse rest⟩

/-! ### Pieces and lines -/

theorem exists_pieces_append_left (h : sep ∉ cs) (ds : List Char) :
    ∃ piece more, pieces sep (cs ++ ds) = (cs ++ piece) :: more := by
  induction cs with
  | nil =>
    cases hds : pieces sep ds with
    | nil =>
      -- There is always a piece, if only an empty one.
      cases ds with
      | nil => simp [pieces] at hds
      | cons d ds =>
        rw [pieces] at hds
        split at hds
        · exact nomatch hds
        · split at hds <;> exact nomatch hds
    | cons piece more => exact ⟨piece, more, hds⟩
  | cons c cs ih =>
    have hc : c ≠ sep := fun hsep => h (hsep ▸ List.mem_cons_self)
    have hcs : sep ∉ cs := fun hmem => h (List.mem_cons_of_mem c hmem)
    obtain ⟨piece, more, hpieces⟩ := ih hcs
    refine ⟨piece, more, ?_⟩
    rw [List.cons_append, pieces, if_neg hc, hpieces]
    rfl

/-- A stretch without separators lies in one of the pieces. -/
theorem exists_mem_pieces (h : sep ∉ cs) (hwithin : cs <:+: ds) :
    ∃ piece ∈ pieces sep ds, cs <:+: piece := by
  obtain ⟨front, back, rfl⟩ := hwithin
  induction front with
  | nil =>
    obtain ⟨piece, more, hpieces⟩ := exists_pieces_append_left h back
    refine ⟨cs ++ piece, ?_, (List.prefix_append cs piece).isInfix⟩
    rw [List.nil_append, hpieces]
    exact List.mem_cons_self
  | cons c front ih =>
    obtain ⟨piece, hmem, hpiece⟩ := ih
    rw [List.cons_append, List.cons_append, pieces]
    split
    · exact ⟨piece, List.mem_cons_of_mem _ hmem, hpiece⟩
    · cases hpieces : pieces sep (front ++ cs ++ back) with
      | nil =>
        rw [hpieces] at hmem
        exact absurd hmem List.not_mem_nil
      | cons first more =>
        rw [hpieces] at hmem
        -- The character joins the first piece.
        rcases List.mem_cons.mp hmem with rfl | hmem
        · exact ⟨c :: piece, List.mem_cons_self, hpiece.trans (List.suffix_cons c piece).isInfix⟩
        · exact ⟨piece, List.mem_cons_of_mem _ hmem, hpiece⟩

/-- A line that loses the carriage return at its end keeps a stretch that does not end in one. -/
theorem infix_dropLast (hne : cs ≠ []) (hreturn : cs.getLast? ≠ some '\r') (h : cs <:+: ds)
    (hds : ds.getLast? = some '\r') : cs <:+: ds.dropLast := by
  obtain ⟨front, back, rfl⟩ := h
  rcases List.eq_nil_or_concat back with rfl | ⟨back, c, rfl⟩
  · have hlast := List.getLast?_eq_some_getLast hne
    rw [List.append_nil, List.getLast?_append, hlast, Option.some_or, ← hlast] at hds
    exact absurd hds hreturn
  · refine ⟨front, back, ?_⟩
    rw [List.concat_eq_append, ← List.append_assoc, List.dropLast_concat]

/-- A stretch that no line break cuts, also not one that begins with its last character, is on one
of the lines. -/
theorem exists_mem_lines (hne : cs ≠ []) (hfeed : '\n' ∉ cs) (hreturn : cs.getLast? ≠ some '\r')
    (hwithin : cs <:+: ds) : ∃ line ∈ lines ds, cs <:+: line := by
  obtain ⟨piece, hmem, hpiece⟩ := exists_mem_pieces hfeed hwithin
  have hlines : pieces '\n' ds ≠ [] := List.ne_nil_of_mem hmem
  rw [← List.dropLast_concat_getLast hlines] at hmem
  rw [lines, List.getLast?_eq_some_getLast hlines]
  rcases List.mem_append.mp hmem with hclosed | hlast
  · -- The piece is a line that a break follows.
    let line := if piece.getLast? = some '\r' then piece.dropLast else piece
    have hline : cs <:+: line := by
      by_cases hend : piece.getLast? = some '\r'
      · rw [show line = piece.dropLast from if_pos hend]
        exact infix_dropLast hne hreturn hpiece hend
      · rw [show line = piece from if_neg hend]
        exact hpiece
    refine ⟨line, ?_, hline⟩
    have hmap := List.mem_map_of_mem (f := fun line : List Char =>
      if line.getLast? = some '\r' then line.dropLast else line) hclosed
    split
    · exact hmap
    · exact hmap
    · exact List.mem_append_left _ hmap
  · rw [List.mem_singleton.mp hlast] at hpiece
    refine ⟨_, ?_, hpiece⟩
    have hnot : (pieces '\n' ds).getLast hlines ≠ [] := by
      intro hempty
      rw [hempty, List.infix_nil] at hpiece
      exact hne hpiece
    split
    · rename_i heq
      exact nomatch heq
    · rename_i heq
      exact absurd (Option.some.inj heq) hnot
    · rename_i last _ heq
      rw [Option.some.inj heq]
      exact List.mem_append_right _ (List.mem_singleton_self _)

/-! ### Numbers -/

theorem not_mem_toString {c : Char} (h : c.isDigit = false) (n : Nat) :
    c ∉ (toString n).toList := by
  intro hmem
  rw [Nat.toString_eq_ofList_toDigits, String.toList_ofList] at hmem
  have hdigit := Nat.isDigit_of_mem_toDigits (by decide) (by decide) hmem
  exact Bool.false_ne_true (h.symm.trans hdigit)

theorem toString_injective {m n : Nat} (h : toString m = toString n) : m = n := by
  have hdigits := congrArg (fun s : String => Nat.ofDigitChars 10 s.toList 0) h
  simpa [Nat.toString_eq_ofList_toDigits] using hdigits

end ViewTree.Text
