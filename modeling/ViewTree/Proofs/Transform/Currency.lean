import ViewTree.Transform.Currency

/-!
# Groups of digits

The text of an amount has a comma before every third digit from the right.  `exists_groups_false`
follows the digits from the left: as many of them as are left over after groups of three stand
before the first comma.  The first digit of all has no comma before it, so the leading group of a
number is never empty (`exists_groups_true`).

`Currency.ofCents_groups` says what the whole text is, and that it reads as the amount.
-/

namespace ViewTree

namespace Currency

/-! ### Groups -/

/-- After the first digit, the digits that are left over when three are taken at a time stand before
the first comma, and three after each. -/
theorem exists_groups_false (digits : List Char) :
    ∃ (lead : List Char) (groups : List (List Char)),
      groupFrom false digits = lead ++ groups.flatMap (',' :: ·) ∧
      lead ++ groups.flatten = digits ∧
      (∀ group ∈ groups, group.length = 3) ∧ lead.length = digits.length % 3 := by
  induction digits with
  | nil => exact ⟨[], [], rfl, rfl, nofun, rfl⟩
  | cons d digits ih =>
    obtain ⟨lead, groups, htext, hdigits, hgroups, hlead⟩ := ih
    by_cases hfull : (digits.length + 1) % 3 = 0
    · -- The digit completes a group, and a comma goes before it.
      refine ⟨[], (d :: lead) :: groups, ?_, ?_, ?_, ?_⟩
      · simp [groupFrom, hfull, htext]
      · simp [hdigits]
      · refine List.forall_mem_cons.mpr ⟨?_, hgroups⟩
        rw [List.length_cons]
        omega
      · rw [List.length_cons, hfull]
        rfl
    · refine ⟨d :: lead, groups, ?_, ?_, hgroups, ?_⟩
      · simp [groupFrom, hfull, htext]
      · simp [hdigits]
      · rw [List.length_cons, List.length_cons]
        omega

/-- A number with digits has one to three of them before the first comma. -/
theorem exists_groups_true {digits : List Char} (h : digits ≠ []) :
    ∃ (lead : List Char) (groups : List (List Char)),
      groupFrom true digits = lead ++ groups.flatMap (',' :: ·) ∧
      lead ++ groups.flatten = digits ∧
      (∀ group ∈ groups, group.length = 3) ∧ 1 ≤ lead.length ∧ lead.length ≤ 3 := by
  cases digits with
  | nil => exact absurd rfl h
  | cons d digits =>
    obtain ⟨lead, groups, htext, hdigits, hgroups, hlead⟩ := exists_groups_false digits
    refine ⟨d :: lead, groups, ?_, ?_, hgroups, ?_, ?_⟩
    · simp [groupFrom, htext]
    · simp [hdigits]
    · rw [List.length_cons]
      omega
    · have hlt := Nat.mod_lt digits.length (show 0 < 3 by omega)
      rw [List.length_cons]
      omega

/-! ### Digits -/

theorem isDigit_digitChar {d : Nat} (h : d < 10) : d.digitChar.isDigit = true := by
  refine Nat.isDigit_of_mem_toDigits (b := 10) (n := d) (by omega) (by omega) ?_
  rw [Nat.toDigits_of_lt_base h]
  exact List.mem_singleton_self _

/-- A number below a hundred is padded to two digits. -/
theorem padDigits_two {n : Nat} (h : n < 100) :
    padDigits 2 n = [(n / 10).digitChar, (n % 10).digitChar] := by
  rw [padDigits, Decimal.digitChars]
  by_cases hsmall : n < 10
  · rw [Nat.toDigits_of_lt_base hsmall, Nat.div_eq_of_lt hsmall, Nat.mod_eq_of_lt hsmall]
    rfl
  · rw [Nat.toDigits_eq_if (by omega), if_neg hsmall, Nat.toDigits_of_lt_base (by omega)]
    rfl

/-- Two digits read as the number they are of. -/
theorem ofDigitChars_pair {m n : Nat} (h : n < 100) :
    Nat.ofDigitChars 10 [(n / 10).digitChar, (n % 10).digitChar] m = 100 * m + n := by
  have hzero : '0'.toNat = 48 := rfl
  rw [Nat.ofDigitChars_cons, Nat.ofDigitChars_cons, Nat.toNat_digitChar_of_lt_ten (by omega),
    Nat.toNat_digitChar_of_lt_ten (by omega), hzero]
  simp only [Nat.ofDigitChars, List.foldl_nil]
  omega

/-- Taking the commas and the point out leaves the digits. -/
theorem filter_groups {lead cents : List Char} {groups : List (List Char)}
    (h : ∀ c ∈ lead ++ groups.flatten ++ cents, c.isDigit = true) :
    (lead ++ groups.flatMap (',' :: ·) ++ '.' :: cents).filter (fun c => c ≠ ',' ∧ c ≠ '.')
      = lead ++ groups.flatten ++ cents := by
  have hkeep : ∀ cs : List Char, (∀ c ∈ cs, c.isDigit = true) →
      cs.filter (fun c => c ≠ ',' ∧ c ≠ '.') = cs := by
    intro cs hcs
    refine List.filter_eq_self.mpr fun c hmem => decide_eq_true ⟨?_, ?_⟩
    · rintro rfl
      exact absurd (hcs _ hmem) (by decide)
    · rintro rfl
      exact absurd (hcs _ hmem) (by decide)
  have hgroups : (groups.flatMap (',' :: ·)).filter (fun c => c ≠ ',' ∧ c ≠ '.')
      = groups.flatten.filter (fun c => c ≠ ',' ∧ c ≠ '.') := by
    rw [List.filter_flatMap, List.filter_flatten, List.flatMap_def]
    rfl
  rw [List.filter_append, List.filter_append, hgroups, ← List.filter_append]
  have hpoint : ('.' :: cents).filter (fun c => c ≠ ',' ∧ c ≠ '.')
      = cents.filter (fun c => c ≠ ',' ∧ c ≠ '.') := rfl
  rw [hpoint, ← List.filter_append, hkeep _ h]

/-! ### Amounts of zero -/

theorem mul_of_significand {x : Double} (h : x.significand = 0) (y : Double) :
    x.mul y = some (.zero (x.negative != y.negative)) := by
  simp only [Double.mul, Double.magnitude, h, Nat.zero_mul, Double.nearest, if_pos]

theorem roundMagnitude_zero (negative : Bool) : (Double.zero negative).roundMagnitude = 0 := by
  have hpos : ∀ exponent, 0 < twoPow exponent := fun exponent => Nat.two_pow_pos exponent
  rw [Double.roundMagnitude, Double.magnitude, Double.zero]
  simp only [Nat.zero_mul, Nat.mul_zero, Nat.zero_add]
  refine Nat.div_eq_of_lt ?_
  have := hpos (-Double.minExponent).toNat
  omega

/-- The cents as a choice of the product.  The equation is one of functions, since the product of an
unknown amount is not to be computed. -/
theorem centsOf_def :
    centsOf = fun amount =>
      (({ amount with negative := false } : Double).mul (.ofInt 100)).elim maxCents
        fun cents => min cents.roundMagnitude maxCents := by
  delta centsOf
  funext amount
  generalize ({ amount with negative := false } : Double).mul (.ofInt 100) = product
  cases product <;> rfl

/-- Zero of either sign is no cents. -/
theorem centsOf_of_isZero {amount : Double} (h : amount.isZero = true) : centsOf amount = 0 := by
  have hproduct := mul_of_significand (x := { amount with negative := false }) (eq_of_beq h)
    (.ofInt 100)
  rw [centsOf_def]
  simp only [hproduct, Option.elim_some, roundMagnitude_zero, Nat.zero_min]

/-- The minus is that of an amount below zero. -/
theorem text_eq (amount : Double) :
    text amount = ofCents (amount.negative && !amount.isZero) (centsOf amount) := by
  rw [text]
  cases hzero : amount.isZero with
  | false => rw [Bool.not_false, Bool.and_true]
  | true =>
    rw [centsOf_of_isZero hzero, ofCents, ofCents]
    simp only [Nat.lt_irrefl, decide_false, Bool.and_false]

/-! ### The text of an amount -/

/-- The text of an amount is the digits of its dollars, one to three of them and then commas with
three each, a point, and two digits of cents, with a dollar sign before them and a minus before that
when the amount is negative and not zero.  Without the commas and the point the digits read as the
amount. -/
theorem ofCents_groups (negative : Bool) (cents : Nat) :
    (∃ (lead : List Char) (groups : List (List Char)) (tens ones : Char),
      (ofCents negative cents).toList
        = (if negative ∧ 0 < cents then ['-'] else [])
          ++ '$' :: (lead ++ groups.flatMap (',' :: ·) ++ ['.', tens, ones]) ∧
      1 ≤ lead.length ∧ lead.length ≤ 3 ∧ (∀ group ∈ groups, group.length = 3) ∧
      lead ++ groups.flatten = Nat.toDigits 10 (cents / 100) ∧
      tens.isDigit ∧ ones.isDigit ∧ Nat.ofDigitChars 10 [tens, ones] 0 = cents % 100 ∧
      let digits := (lead ++ groups.flatMap (',' :: ·) ++ ['.', tens, ones]).filter
        fun c => c ≠ ',' ∧ c ≠ '.'
      (∀ c ∈ digits, c.isDigit) ∧ Nat.ofDigitChars 10 digits 0 = cents) ∧
    ∀ amount : Double,
      text amount = ofCents (amount.negative && !amount.isZero) (centsOf amount) := by
  refine ⟨?_, text_eq⟩
  have hne : Nat.toDigits 10 (cents / 100) ≠ [] := List.length_pos_iff.mp Nat.length_toDigits_pos
  obtain ⟨lead, groups, htext, hdigits, hgroups, hleast, hmost⟩ := exists_groups_true hne
  have hlt : cents % 100 < 100 := Nat.mod_lt _ (by omega)
  have htens : (cents % 100 / 10).digitChar.isDigit = true := isDigit_digitChar (by omega)
  have hones : (cents % 100 % 10).digitChar.isDigit = true := isDigit_digitChar (by omega)
  have hall : ∀ c ∈ lead ++ groups.flatten
      ++ [(cents % 100 / 10).digitChar, (cents % 100 % 10).digitChar], c.isDigit = true := by
    rw [hdigits, List.forall_mem_append]
    refine ⟨fun c hmem => Nat.isDigit_of_mem_toDigits (by omega) (by omega) hmem, ?_⟩
    exact List.forall_mem_cons.mpr ⟨htens, List.forall_mem_singleton.mpr hones⟩
  refine ⟨lead, groups, (cents % 100 / 10).digitChar, (cents % 100 % 10).digitChar, ?_, hleast,
    hmost, hgroups, hdigits, htens, hones, ?_, ?_⟩
  · rw [ofCents, grouped, Decimal.digitChars, htext, padDigits_two hlt, String.toList_ofList]
    simp
  · rw [ofDigitChars_pair hlt, Nat.mul_zero, Nat.zero_add]
  · simp only [filter_groups hall]
    refine ⟨hall, ?_⟩
    rw [hdigits, Nat.ofDigitChars_append, Nat.ofDigitChars_ten_toDigits, ofDigitChars_pair hlt]
    exact Nat.div_add_mod cents 100

example : ofCents true 123456789 = "-$1,234,567.89" := by
  decide +kernel

end Currency

end ViewTree
