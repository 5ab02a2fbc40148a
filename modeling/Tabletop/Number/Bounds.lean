/-!
# Bounds of Machine Integers

The integers that fit into 32 bits without sign, and into 64 bits with and without sign.

## Main definitions

* `wordRange`: the number of 32-bit words.
* `maxUnsigned`, `minSigned`, `maxSigned`: the bounds of 64-bit integers.
* `fitsSigned`: whether an integer fits into 64 bits with sign.
-/

namespace Tabletop

/-- The number of words of 32 bits. -/
def wordRange : Nat := 4294967296

/-- The largest integer of 64 bits without sign. -/
def maxUnsigned : Nat := 18446744073709551615

/-- The smallest integer of 64 bits with sign. -/
def minSigned : Int := -9223372036854775808

/-- The largest integer of 64 bits with sign. -/
def maxSigned : Int := 9223372036854775807

/-- Whether an integer fits into 64 bits with sign. -/
def fitsSigned (n : Int) : Bool :=
  minSigned ≤ n && n ≤ maxSigned

/-- The bounds are powers of two, or next to them. -/
example : wordRange = 2 ^ 32 ∧ maxUnsigned = 2 ^ 64 - 1 ∧ minSigned = -2 ^ 63 ∧
    maxSigned = 2 ^ 63 - 1 := by
  decide

end Tabletop
