import Tabletop.Number.Binary64
import Tabletop.Text.Numeral

/-!
# Shortest Decimals

The shortest decimal that denotes a binary64 number: of all decimals that round to it, one
with the fewest significant digits, and of those the nearest to it.

The decimals that round to a number form an interval around it, from halfway to its lower
neighbour to halfway to its upper one; the ends belong to it when the last significant bit
of the number is zero, because that is where halfway cases go. A decimal with few digits is
a multiple of a large power of ten. So the powers of ten are tried from large to small, and
at each only the two multiples on either side of the number need to be looked at: if any
multiple lies in the interval, one of these two does.

## Main definitions

* `Shortest.Interval`: the magnitudes that round to a magnitude.
* `shortest`: the shortest decimal of a magnitude, as digits and an exponent of ten.
-/

namespace Tabletop

/-- A decimal `digits * 10 ^ exponent`. -/
structure Decimal where
  /-- The digits, as a number. -/
  digits : Nat
  /-- The power of ten that the digits are multiplied with. -/
  exponent : Int
  deriving DecidableEq, Repr, Inhabited

namespace Shortest

/-- The magnitudes that round to a magnitude, in **quarters** of a unit. -/
structure Interval where
  /-- The lower end. -/
  lower : Nat
  /-- The upper end. -/
  upper : Nat
  /-- Whether the ends belong to the interval. -/
  closed : Bool

/-- The least significand of 53 bits. -/
def leadingBit : Nat := Nat.pow 2 52

/-- The interval of the magnitudes that round to `units`. The lower neighbour of a power of
two is half as far away as the upper one, except among the smallest magnitudes. -/
def Interval.of (units : Nat) : Interval :=
  let quantum := Nat.pow 2 (excessBits units)
  let significand := units / quantum
  let below := if significand = leadingBit ∧ quantum > 1 then quantum else 2 * quantum
  ⟨4 * units - below, 4 * units + 2 * quantum, significand % 2 == 0⟩

/-- Whether the magnitude `numerator / denominator`, in quarters of a unit, is one of the
interval. -/
def Interval.contains (i : Interval) (numerator denominator : Nat) : Bool :=
  let low := i.lower * denominator
  let high := i.upper * denominator
  (low < numerator && numerator < high) ||
    (i.closed && (low == numerator || numerator == high))

/-- The number of quarters of a unit in one. -/
def quartersPerOne : Nat := 4 * Binary64.unitsPerOne

/-- The power of ten as a quotient. -/
def powerOfTen : Int → Nat × Nat
  | .ofNat n => (Nat.pow 10 n, 1)
  | .negSucc n => (1, Nat.pow 10 (n + 1))

/-- The multiple of `10 ^ exponent` that is nearest to `units` among the two on either side,
of those that round to `units`. The even one is taken when both are equally near. -/
def onGrid? (units : Nat) (exponent : Int) : Option Nat :=
  let i := Interval.of units
  let (up, down) := powerOfTen exponent
  let step := up * quartersPerOne
  let scaled := 4 * units * down
  let below := scaled / step
  let above := below + 1
  let hits (multiple : Nat) : Bool := multiple != 0 && i.contains (multiple * step) down
  let belowGap := scaled - below * step
  let aboveGap := above * step - scaled
  if hits below && (!hits above || belowGap < aboveGap ||
      (belowGap == aboveGap && below % 2 == 0)) then some below
  else if hits above then some above
  else none

/-- The first of the `fuel` exponents from `exponent` downwards whose grid has a hit. -/
def search (units : Nat) : (fuel : Nat) → (exponent : Int) → Decimal
  | 0, exponent => ⟨0, exponent⟩
  | fuel + 1, exponent =>
    match onGrid? units exponent with
    | some digits => ⟨digits, exponent⟩
    | none => search units fuel (exponent - 1)

/-- The decimal without the zeros at the end of its digits. -/
def dropZeros : (fuel : Nat) → Decimal → Decimal
  | 0, d => d
  | fuel + 1, d =>
    if d.digits % 10 = 0 ∧ d.digits ≠ 0 then dropZeros fuel ⟨d.digits / 10, d.exponent + 1⟩
    else d

end Shortest

/-- The shortest decimal of a positive magnitude. The search begins above the leading digit,
and ends at the least multiples of `10 ^ -1074`, on which every magnitude lies. -/
def shortest (units : Nat) : Decimal :=
  let leading := (Text.numeral (units / Binary64.unitsPerOne)).length
  Shortest.dropZeros 400 (Shortest.search units (leading + 1080) leading)

/-- One tenth is written with one digit. -/
example : shortest (roundUnits Binary64.unitsPerOne 10) = ⟨1, -1⟩ := by decide +kernel

/-- The least positive number is written with one digit, though 4 and 5 both denote it. -/
example : shortest 1 = ⟨5, -324⟩ := by decide +kernel

end Tabletop
