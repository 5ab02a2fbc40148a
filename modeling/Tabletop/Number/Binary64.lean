/-!
# Finite Binary64 Numbers

The finite numbers of the IEEE format binary64. Every one of them is a whole multiple of
the least positive one, `2 ^ -1074`, so a number is a sign and a count of these **units**;
it has the format when at most 53 bits of the count are significant. All arithmetic is on
natural numbers: an exact quotient is rounded once, to the nearest number of the format,
and halfway cases go to the neighbour whose last significant bit is zero.

## Main definitions

* `Binary64`: a sign and a magnitude in units.
* `roundUnits`: the magnitude nearest to a quotient of units.
* `Binary64.ofNat`, `Binary64.scale?`: the number nearest to a natural number, and its
  product or quotient with a power of ten.
* `Binary64.overflows`: whether a decimal has no nearest number.

## Conventions

A product or quotient takes the power of ten as a number of the format itself, that is,
already rounded. Powers beyond the largest that the format holds are applied in several
steps of `10 ^ 308`, each rounded.
-/

namespace Tabletop

/-- A finite binary64 number: its sign, and its magnitude as a multiple of `2 ^ -1074`. -/
structure Binary64 where
  /-- Whether the number is below zero, or the negative zero. -/
  negative : Bool
  /-- The magnitude in units of `2 ^ -1074`. -/
  units : Nat
  deriving DecidableEq, Repr, Inhabited

/-- The number of bits that a count of units has beyond the 53 significant ones. -/
def excessBits (units : Nat) : Nat :=
  units.log2 + 1 - 53

/-- The integer nearest to the quotient, the even one in a halfway case. -/
def roundHalfEven (numerator denominator : Nat) : Nat :=
  let floor := numerator / denominator
  let doubled := 2 * (numerator % denominator)
  if doubled < denominator || (doubled == denominator && floor % 2 == 0) then floor
  else floor + 1

/-- The magnitude nearest to the quotient, which is given in units. -/
def roundUnits (numerator denominator : Nat) : Nat :=
  let quantum := Nat.pow 2 (excessBits (numerator / denominator))
  roundHalfEven numerator (denominator * quantum) * quantum

namespace Binary64

/-- The number of units in one. -/
def unitsPerOne : Nat := Nat.pow 2 1074

/-- The least magnitude, in units, that the format has no room for. -/
def overflowUnits : Nat := Nat.pow 2 (1074 + 1024)

/-- The magnitude nearest to a natural number. -/
def unitsOfNat (n : Nat) : Nat :=
  roundUnits (n * unitsPerOne) 1

/-- The number nearest to a natural number. -/
def ofNat (n : Nat) : Binary64 :=
  ⟨false, unitsOfNat n⟩

/-- The magnitude divided `steps` times by `10 ^ 308`, which ends early at zero. -/
def shrink : (steps : Nat) → (units : Nat) → Nat
  | 0, units => units
  | steps + 1, units =>
    if units = 0 then 0
    else shrink steps (roundUnits (units * unitsPerOne) (unitsOfNat (Nat.pow 10 308)))

/-- The magnitude times `10 ^ exponent`, if the format has room for it. Negative exponents
below `-308` are applied in steps. -/
def scaleUnits? (units : Nat) : (exponent : Int) → Option Nat
  | .ofNat n =>
    if units = 0 then some 0
    else if n > 308 then none
    else
      let product := roundUnits (units * unitsOfNat (Nat.pow 10 n)) unitsPerOne
      if product < overflowUnits then some product else none
  | .negSucc n =>
    let steps := n / 308
    let units := shrink steps units
    some (roundUnits (units * unitsPerOne) (unitsOfNat (Nat.pow 10 (n + 1 - 308 * steps))))

/-- The number times `10 ^ exponent`, if the format has room for it. -/
def scale? (x : Binary64) (exponent : Int) : Option Binary64 :=
  (scaleUnits? x.units exponent).map fun units => { x with units := units }

/-- Whether `digits * 10 ^ exponent`, rounded once, is too large for the format. Powers that
settle the question by themselves are not computed. -/
def overflows (digits : Nat) : (exponent : Int) → Bool
  | .ofNat n =>
    digits != 0 &&
      (308 < n || overflowUnits ≤ roundUnits (digits * Nat.pow 10 n * unitsPerOne) 1)
  | .negSucc n =>
    n < digits.log2 && overflowUnits ≤ roundUnits (digits * unitsPerOne) (Nat.pow 10 (n + 1))

/-- The number with the given sign. -/
def withSign (negative : Bool) (x : Binary64) : Binary64 :=
  { x with negative := negative }

/-- The largest decimal of one digit, and the next. -/
example : overflows 1 308 = false ∧ overflows 2 308 = true ∧ overflows 1 309 = true := by
  decide +kernel

/-- The power of ten alone does not decide. -/
example : overflows 123456789 301 = true ∧ overflows 1 (-999999999) = false ∧
    overflows 0 999999999 = false := by
  decide +kernel

end Binary64

end Tabletop
