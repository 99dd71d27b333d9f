import Mathlib.Data.List.Forall2
import ViewTree.Text.Glob

/-!
# What a name pattern matches

A text reads as a pattern when it can be cut into stretches, one for each item, each of which its
item stands for (`ReadsAs`).  The matcher decides this and always comes to an answer
(`globMatches_iff`).

* `Matcher.Sound` is what every step keeps.  It says that the text reads as the pattern if what lies
  ahead of the matcher does, or if what lies behind the last `*` does from a later position.  That
  earlier `*` may be forgotten rests on `ReadsAs.of_append`: no `*` stands between the last one and
  the matcher, so a text that is read from further on reaches the matcher further on too.
* `Matcher.left` falls at every step (`Matcher.Sound.step`), and `enoughSteps` is more than it is at
  the start.
-/

namespace ViewTree.Text

/-! ### Reading a text as a pattern -/

/-- The stretches of text that an item stands for. -/
def GlobItem.StandsFor : GlobItem → List Char → Prop
  | anyRun, _ => True
  | anyOne, stretch => stretch.length = 1
  | exactly c, stretch => stretch = [c]

/-- The text is a row of stretches that the items stand for, one after another. -/
def ReadsAs (items : List GlobItem) (text : List Char) : Prop :=
  ∃ stretches : List (List Char),
    stretches.flatten = text ∧ List.Forall₂ GlobItem.StandsFor items stretches

variable {items rest front : List GlobItem} {text : List Char} {item : GlobItem} {c : Char}

@[simp]
theorem readsAs_nil : ReadsAs [] text ↔ text = [] := by
  constructor
  · rintro ⟨stretches, rfl, hstands⟩
    rw [List.forall₂_nil_left_iff.mp hstands]
    rfl
  · rintro rfl
    exact ⟨[], rfl, .nil⟩

theorem readsAs_cons :
    ReadsAs (item :: items) text ↔
      ∃ stretch more, text = stretch ++ more ∧ item.StandsFor stretch ∧ ReadsAs items more := by
  constructor
  · rintro ⟨stretches, rfl, hstands⟩
    obtain ⟨stretch, others, hitem, hitems, rfl⟩ := List.forall₂_cons_left_iff.mp hstands
    exact ⟨stretch, others.flatten, rfl, hitem, others, rfl, hitems⟩
  · rintro ⟨stretch, more, rfl, hitem, others, rfl, hitems⟩
    exact ⟨stretch :: others, rfl, .cons hitem hitems⟩

/-- A `*` takes any number of characters. -/
theorem readsAs_anyRun_cons :
    ReadsAs (.anyRun :: items) text ↔ ∃ n, ReadsAs items (text.drop n) := by
  rw [readsAs_cons]
  constructor
  · rintro ⟨stretch, more, rfl, -, hmore⟩
    refine ⟨stretch.length, ?_⟩
    rwa [List.drop_left]
  · rintro ⟨n, hmore⟩
    exact ⟨text.take n, text.drop n, (List.take_append_drop n text).symm, trivial, hmore⟩

theorem readsAs_anyOne_cons : ReadsAs (.anyOne :: items) (c :: text) ↔ ReadsAs items text := by
  rw [readsAs_cons]
  constructor
  · rintro ⟨stretch, more, htext, hone, hmore⟩
    obtain ⟨d, rfl⟩ := List.length_eq_one_iff.mp hone
    obtain ⟨-, rfl⟩ := List.cons.inj htext
    exact hmore
  · intro hmore
    exact ⟨[c], text, rfl, rfl, hmore⟩

theorem readsAs_exactly_cons {d : Char} :
    ReadsAs (.exactly d :: items) (c :: text) ↔ d = c ∧ ReadsAs items text := by
  rw [readsAs_cons]
  constructor
  · rintro ⟨stretch, more, htext, rfl, hmore⟩
    obtain ⟨rfl, rfl⟩ := List.cons.inj htext
    exact ⟨rfl, hmore⟩
  · rintro ⟨rfl, hmore⟩
    exact ⟨[d], text, rfl, rfl, hmore⟩

/-- An item other than a `*` takes one character. -/
theorem ReadsAs.of_cons (h : ReadsAs (item :: items) text) (hitem : item ≠ .anyRun) :
    text ≠ [] ∧ ReadsAs items (text.drop 1) := by
  obtain ⟨stretch, more, rfl, hstands, hmore⟩ := readsAs_cons.mp h
  cases item with
  | anyRun => exact absurd rfl hitem
  | anyOne =>
    obtain ⟨d, rfl⟩ := List.length_eq_one_iff.mp hstands
    exact ⟨List.cons_ne_nil _ _, hmore⟩
  | exactly d =>
    obtain rfl : stretch = [d] := hstands
    exact ⟨List.cons_ne_nil _ _, hmore⟩

/-- Items none of which is a `*` take one character each. -/
theorem ReadsAs.of_append (hfront : .anyRun ∉ front) (h : ReadsAs (front ++ rest) text) :
    ReadsAs rest (text.drop front.length) := by
  induction front generalizing text with
  | nil => simpa using h
  | cons item front ih =>
    have hitem : item ≠ .anyRun := fun heq => hfront (heq ▸ List.mem_cons_self)
    have htail : ReadsAs (front ++ rest) (text.drop 1) := (h.of_cons hitem).2
    have hdrop := ih (fun hmem => hfront (List.mem_cons_of_mem _ hmem)) htail
    rwa [List.drop_drop, Nat.add_comm] at hdrop

/-- The empty text reads as a pattern of `*` alone. -/
theorem readsAs_empty : ReadsAs items [] ↔ items.all (· == .anyRun) = true := by
  induction items with
  | nil => simp
  | cons item items ih =>
    by_cases hitem : item = .anyRun
    · subst hitem
      simp [readsAs_anyRun_cons, ih]
    · have hnot : ¬ReadsAs (item :: items) [] := fun h => (h.of_cons hitem).1 rfl
      simp [hnot, hitem]

/-! ### What a matcher keeps -/

namespace Matcher

/-- The text reads as what follows the last `*` from a position further on than the `*` takes it. -/
def Later (items : List GlobItem) (text : List Char) (m : Matcher) : Prop :=
  ∃ star, m.star = some star ∧
    ∃ n, star.upTo < n ∧ ReadsAs (items.drop (star.item + 1)) (text.drop n)

/-- A matcher is in range and has forgotten no way to read the text.  The items it has passed since
the last `*` are none of them a `*`, and have taken the characters since then one by one. -/
structure Sound (items : List GlobItem) (text : List Char) (m : Matcher) : Prop where
  item_le : m.item ≤ items.length
  char_le : m.char ≤ text.length
  passed : ∀ star, m.star = some star → ∃ front,
    items.drop (star.item + 1) = front ++ items.drop m.item ∧ .anyRun ∉ front ∧
      m.item = star.item + 1 + front.length ∧ m.char = star.upTo + front.length
  reads_iff : ReadsAs items text ↔
    ReadsAs (items.drop m.item) (text.drop m.char) ∨ m.Later items text

/-- The steps a matcher can still take: first, how many characters the last `*` can still be made
to take, then, how many items lie ahead. -/
def left (items : List GlobItem) (text : List Char) (m : Matcher) : Nat :=
  (text.length - (m.star.map Star.upTo).getD 0) * (items.length + 1) + (items.length - m.item)

variable {m : Matcher}

/-- What can be read later can be read ahead of the matcher from further on. -/
theorem Sound.of_later (h : Sound items text m) (hlater : m.Later items text) :
    ∃ n, m.char < n ∧ ReadsAs (items.drop m.item) (text.drop n) := by
  obtain ⟨star, hstar, n, hn, hreads⟩ := hlater
  obtain ⟨front, hdrop, hfront, -, hchar⟩ := h.passed star hstar
  rw [hdrop] at hreads
  have hahead := hreads.of_append hfront
  rw [List.drop_drop] at hahead
  exact ⟨n + front.length, by omega, hahead⟩

theorem Sound.upTo_le (h : Sound items text m) : (m.star.map Star.upTo).getD 0 ≤ m.char := by
  cases hstar : m.star with
  | none => exact Nat.zero_le _
  | some star =>
    obtain ⟨front, -, -, -, hchar⟩ := h.passed star hstar
    simp only [Option.map_some, Option.getD_some]
    omega

/-- An item that is no `*` has taken the next character. -/
theorem Sound.advance (h : Sound items text m) (hchar : m.char < text.length)
    (hitem : items[m.item]? = some item) (hstar : item ≠ .anyRun)
    (hreads : ReadsAs (items.drop m.item) (text.drop m.char) ↔
      ReadsAs (items.drop (m.item + 1)) (text.drop (m.char + 1))) :
    Sound items text m.advance ∧ m.advance.left items text < m.left items text := by
  obtain ⟨hlt, hget⟩ := List.getElem?_eq_some_iff.mp hitem
  have hcons : items.drop m.item = item :: items.drop (m.item + 1) := by
    rw [List.drop_eq_getElem_cons hlt, hget]
  constructor
  · refine ⟨hlt, hchar, ?_, ?_⟩
    · intro star hsome
      obtain ⟨front, hdrop, hfront, hpos, htaken⟩ := h.passed star hsome
      refine ⟨front ++ [item], ?_, ?_, ?_, ?_⟩
      · rw [hdrop, hcons, List.append_assoc]
        rfl
      · simp [hfront, Ne.symm hstar]
      · simp only [Matcher.advance, List.length_append, List.length_singleton]
        omega
      · simp only [Matcher.advance, List.length_append, List.length_singleton]
        omega
    · rw [h.reads_iff, hreads]
      rfl
  · simp only [left, Matcher.advance]
    omega

/-- A `*` takes the place of the last one. -/
theorem Sound.passStar (h : Sound items text m) (hitem : items[m.item]? = some .anyRun) :
    Sound items text m.passStar ∧ m.passStar.left items text < m.left items text := by
  obtain ⟨hlt, hget⟩ := List.getElem?_eq_some_iff.mp hitem
  have hcons : items.drop m.item = .anyRun :: items.drop (m.item + 1) := by
    rw [List.drop_eq_getElem_cons hlt, hget]
  -- What follows this `*` may be read from any position on.
  have hany : ReadsAs (items.drop m.item) (text.drop m.char) ↔
      ∃ n, m.char ≤ n ∧ ReadsAs (items.drop (m.item + 1)) (text.drop n) := by
    rw [hcons, readsAs_anyRun_cons]
    constructor
    · rintro ⟨n, hn⟩
      rw [List.drop_drop] at hn
      exact ⟨m.char + n, Nat.le_add_right _ _, hn⟩
    · rintro ⟨n, hle, hn⟩
      refine ⟨n - m.char, ?_⟩
      rwa [List.drop_drop, Nat.add_sub_cancel' hle]
  constructor
  · refine ⟨hlt, h.char_le, ?_, ?_⟩
    · intro star hsome
      obtain rfl : (⟨m.item, m.char⟩ : Star) = star := Option.some.inj hsome
      exact ⟨[], rfl, List.not_mem_nil, rfl, rfl⟩
    · rw [h.reads_iff]
      constructor
      · intro hreads
        -- A reading behind the `*` before is one behind this `*`.
        have hahead : ∃ n, m.char ≤ n ∧
            ReadsAs (items.drop (m.item + 1)) (text.drop n) := by
          rcases hreads with hreads | hlater
          · exact hany.mp hreads
          · obtain ⟨n, hn, hreads⟩ := h.of_later hlater
            rw [hcons, readsAs_anyRun_cons] at hreads
            obtain ⟨k, hk⟩ := hreads
            rw [List.drop_drop] at hk
            exact ⟨n + k, by omega, hk⟩
        obtain ⟨n, hle, hn⟩ := hahead
        rcases Nat.eq_or_lt_of_le hle with rfl | hlt
        · exact .inl hn
        · exact .inr ⟨_, rfl, n, hlt, hn⟩
      · rintro (hreads | ⟨star, hsome, n, hlt, hn⟩)
        · exact .inl (hany.mpr ⟨m.char, Nat.le_refl _, hreads⟩)
        · obtain rfl : (⟨m.item, m.char⟩ : Star) = star := Option.some.inj hsome
          exact .inl (hany.mpr ⟨n, Nat.le_of_lt hlt, hn⟩)
  · have hupTo := h.upTo_le
    have hmul := Nat.mul_le_mul_right (items.length + 1) (Nat.sub_le_sub_left hupTo text.length)
    simp only [left, Matcher.passStar, Option.map_some, Option.getD_some]
    omega

/-- What a step has come to: a sound matcher that has less left to do, or the answer. -/
def Settles (items : List GlobItem) (text : List Char) (m : Matcher) : Matching → Prop
  | .goingOn next => Sound items text next ∧ next.left items text < m.left items text
  | .answered answer => answer = true ↔ ReadsAs items text
  | .outOfRange => False

/-- Where pattern and text do not go together the matcher can only return to the last `*`. -/
theorem Sound.retry (h : Sound items text m) (hchar : m.char < text.length)
    (hnot : ¬ReadsAs (items.drop m.item) (text.drop m.char)) :
    m.Settles items text m.retry := by
  unfold Matcher.retry
  cases hstar : m.star with
  | none =>
    have hlater : ¬m.Later items text := by
      rintro ⟨star, hsome, -⟩
      rw [hstar] at hsome
      exact nomatch hsome
    simp [Settles, h.reads_iff, hnot, hlater]
  | some star =>
    obtain ⟨front, hdrop, -, hpos, htaken⟩ := h.passed star hstar
    have hitem := h.item_le
    refine ⟨⟨by dsimp only; omega, by dsimp only; omega, ?_, ?_⟩, ?_⟩
    · intro other hsome
      obtain rfl : (⟨star.item, star.upTo + 1⟩ : Star) = other := Option.some.inj hsome
      exact ⟨[], rfl, List.not_mem_nil, rfl, rfl⟩
    · rw [h.reads_iff]
      constructor
      · rintro (hreads | ⟨other, hsome, n, hlt, hn⟩)
        · exact absurd hreads hnot
        · obtain rfl : star = other := Option.some.inj (hstar.symm.trans hsome)
          rcases Nat.eq_or_lt_of_le hlt with rfl | hlt
          · exact .inl hn
          · exact .inr ⟨_, rfl, n, hlt, hn⟩
      · rintro (hreads | ⟨other, hsome, n, hlt, hn⟩)
        · exact .inr ⟨star, hstar, _, Nat.lt_succ_self _, hreads⟩
        · obtain rfl : (⟨star.item, star.upTo + 1⟩ : Star) = other := Option.some.inj hsome
          exact .inr ⟨star, hstar, n, Nat.lt_of_succ_lt hlt, hn⟩
    · -- One character less is left to the `*`, which outweighs all items.
      have hsplit : text.length - star.upTo = text.length - (star.upTo + 1) + 1 := by omega
      simp only [left, hstar, Option.map_some, Option.getD_some]
      rw [hsplit, Nat.succ_mul]
      omega

/-- **One step.**  A sound matcher goes on as one that has less left to do, or it answers rightly;
it never looks past an end. -/
theorem Sound.step (h : Sound items text m) : m.Settles items text (m.step items text) := by
  unfold Matcher.step
  by_cases hchar : m.char < text.length
  · rw [if_pos hchar]
    have htext : text.drop m.char = text[m.char] :: text.drop (m.char + 1) :=
      List.drop_eq_getElem_cons hchar
    have hnext : text[m.char]? = some text[m.char] := List.getElem?_eq_getElem hchar
    cases hitem : items[m.item]? with
    | none =>
      have hlen := List.getElem?_eq_none_iff.mp hitem
      refine h.retry hchar ?_
      rw [List.drop_eq_nil_of_le hlen, readsAs_nil, htext]
      exact List.cons_ne_nil _ _
    | some item =>
      obtain ⟨hlt, hget⟩ := List.getElem?_eq_some_iff.mp hitem
      have hcons : items.drop m.item = item :: items.drop (m.item + 1) := by
        rw [List.drop_eq_getElem_cons hlt, hget]
      cases item with
      | anyRun => exact h.passStar hitem
      | anyOne =>
        refine h.advance hchar hitem (by simp) ?_
        rw [hcons, htext, readsAs_anyOne_cons]
      | exactly c =>
        dsimp only
        rw [hnext]
        dsimp only
        split
        case isTrue heq =>
          refine h.advance hchar hitem (by simp) ?_
          rw [hcons, htext, readsAs_exactly_cons]
          simp [heq]
        case isFalse hne =>
          refine h.retry hchar ?_
          rw [hcons, htext, readsAs_exactly_cons]
          exact fun hreads => hne hreads.1
  · rw [if_neg hchar, if_pos h.item_le]
    have hend : m.char = text.length := Nat.le_antisymm h.char_le (Nat.not_lt.mp hchar)
    -- With the text used up, a later reading would leave nothing for the items ahead either.
    have hlater : m.Later items text → ReadsAs (items.drop m.item) (text.drop m.char) := by
      intro hlater
      obtain ⟨n, hn, hreads⟩ := h.of_later hlater
      have hnone : text.drop n = text.drop m.char := by
        rw [List.drop_eq_nil_of_le (show text.length ≤ n by omega), hend, List.drop_length]
      rwa [hnone] at hreads
    have hreads : ReadsAs items text ↔ ReadsAs (items.drop m.item) [] := by
      rw [h.reads_iff, or_iff_left_of_imp hlater, hend, List.drop_length]
    rw [Settles, hreads, readsAs_empty]

/-- **A run.**  With more steps than are left to it a sound matcher comes to the right answer. -/
theorem Sound.run (h : Sound items text m) {steps : Nat} (hsteps : m.left items text < steps) :
    ∃ answer, m.run items text steps = .answered answer ∧
      (answer = true ↔ ReadsAs items text) := by
  induction steps generalizing m with
  | zero => exact absurd hsteps (Nat.not_lt_zero _)
  | succ steps ih =>
    have hstep := h.step
    rw [Matcher.run]
    cases hresult : m.step items text with
    | goingOn next =>
      rw [hresult] at hstep
      obtain ⟨hsound, hleft⟩ := hstep
      exact ih hsound (by omega)
    | answered answer =>
      rw [hresult] at hstep
      exact ⟨answer, rfl, hstep⟩
    | outOfRange =>
      rw [hresult] at hstep
      exact hstep.elim

end Matcher

/-- What follows the second `*` is found at the end, after two false starts. -/
example : globMatches "a*b*cd" "axbcbcxcd" = true := by decide

end ViewTree.Text
