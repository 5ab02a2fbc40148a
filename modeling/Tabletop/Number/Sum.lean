/-!
# Sums

Sums over lists.

## Main definitions

* `sumOf`: the sum of an integer over the members of a list.
* `countOf`: the same for natural numbers.
-/

namespace Tabletop

/-- The sum of `f` over the members of a list. -/
def sumOf (f : α → Int) : List α → Int
  | [] => 0
  | a :: as => f a + sumOf f as

/-- The sum of a natural number over the members of a list. -/
def countOf (f : α → Nat) : List α → Nat
  | [] => 0
  | a :: as => f a + countOf f as

@[simp]
theorem sumOf_nil (f : α → Int) : sumOf f [] = 0 :=
  rfl

@[simp]
theorem sumOf_cons (f : α → Int) (a : α) (as : List α) :
    sumOf f (a :: as) = f a + sumOf f as :=
  rfl

/-- The sum over two lists is **the sum of their sums**. -/
@[simp]
theorem sumOf_append (f : α → Int) (as bs : List α) :
    sumOf f (as ++ bs) = sumOf f as + sumOf f bs := by
  induction as with
  | nil => simp
  | cons a as ih => simp [ih, Int.add_assoc]

@[simp]
theorem countOf_nil (f : α → Nat) : countOf f [] = 0 :=
  rfl

@[simp]
theorem countOf_cons (f : α → Nat) (a : α) (as : List α) :
    countOf f (a :: as) = f a + countOf f as :=
  rfl

/-- The same for natural numbers. -/
@[simp]
theorem countOf_append (f : α → Nat) (as bs : List α) :
    countOf f (as ++ bs) = countOf f as + countOf f bs := by
  induction as with
  | nil => simp
  | cons a as ih => simp [ih, Nat.add_assoc]

end Tabletop
