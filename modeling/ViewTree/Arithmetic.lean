/-!
# Powers and sums

The few operations on natural numbers the rest of the library counts with.
-/

namespace ViewTree

/-- Two to the power of `n`. -/
def twoPow (n : Nat) : Nat := Nat.pow 2 n

/-- Ten to the power of `n`. -/
def tenPow (n : Nat) : Nat := Nat.pow 10 n

/-- The sum of the numbers `f` gives for the elements of a list. -/
def total {α : Type} (f : α → Nat) : List α → Nat
  | [] => 0
  | a :: as => f a + total f as

theorem total_append {α : Type} (f : α → Nat) (as bs : List α) :
    total f (as ++ bs) = total f as + total f bs := by
  induction as with
  | nil => exact (Nat.zero_add _).symm
  | cons a as ih => rw [List.cons_append, total, total, ih, Nat.add_assoc]

end ViewTree
