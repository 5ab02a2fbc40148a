import Mathlib.Algebra.Order.Ring.Abs
import Mathlib.Data.Rat.Lemmas
import Mathlib.Data.Sign.Basic
import Mathlib.Tactic.NormNum
import Mathlib.Tactic.Ring
import Tabletop.Number.Binary64

/-!
# Exact Results of Rounded Arithmetic

Arithmetic in the format binary64 rounds every result to the nearest number of the format. Where the
exact result **is** such a number, nothing is lost. All integers of 53 bits are numbers of the
format, and so are their halves: with their factors of two left out they have no more significant
bits than there is room for.

## Main definitions

* `Binary64.nearest`: the number of the format that is nearest to a rational number.
* `Binary64.IsHalf`: the halves of integers of 53 bits.

## Main results

* `roundUnits_exact`: a quotient with 53 significant bits is rounded to itself.
* `Binary64.IsHalf.nearest_eq`: halves of integers of 53 bits are exact.
-/

namespace Tabletop

/-- A quotient **without remainder** is rounded to itself. -/
theorem roundHalfEven_mul_right {n d : Nat} (hd : 0 < d) : roundHalfEven (n * d) d = n := by
  simp [roundHalfEven, Nat.mul_div_cancel n hd, hd]

/-- A number of 53 bits has no more bits beyond them than it is **scaled by**. -/
theorem excessBits_le {m : Nat} (e : Nat) (hm : m < 2 ^ 53) : excessBits (m * 2 ^ e) ≤ e := by
  rcases Nat.eq_zero_or_pos (m * 2 ^ e) with hzero | hpos
  · rw [hzero]
    exact Nat.zero_le e
  · have hlog : (m * 2 ^ e).log2 < 53 + e := by
      refine (Nat.log2_lt hpos.ne').mpr ?_
      rw [Nat.pow_add]
      exact Nat.mul_lt_mul_of_pos_right hm (Nat.two_pow_pos e)
    rw [excessBits]
    omega

/-- A quotient with **53 significant bits** is rounded to itself. -/
theorem roundUnits_exact {numerator denominator m : Nat} (e : Nat) (hpos : 0 < denominator)
    (hm : m < 2 ^ 53) (h : numerator = m * 2 ^ e * denominator) :
    roundUnits numerator denominator = m * 2 ^ e := by
  have hquotient : numerator / denominator = m * 2 ^ e := by
    rw [h, Nat.mul_div_cancel _ hpos]
  obtain ⟨rest, he⟩ := Nat.exists_eq_add_of_le (excessBits_le e hm)
  have hquantum : Nat.pow 2 (excessBits (m * 2 ^ e)) = 2 ^ excessBits (m * 2 ^ e) := rfl
  rw [roundUnits, hquotient, hquantum]
  generalize excessBits (m * 2 ^ e) = excess at he
  have hscale : m * 2 ^ e = m * 2 ^ rest * 2 ^ excess := by
    rw [he, Nat.pow_add, Nat.mul_assoc, Nat.mul_comm (2 ^ excess)]
  have hexact : numerator = m * 2 ^ rest * (denominator * 2 ^ excess) := by
    rw [h, hscale, Nat.mul_assoc, Nat.mul_comm (2 ^ excess)]
  rw [hexact, roundHalfEven_mul_right (Nat.mul_pos hpos (Nat.two_pow_pos excess)), hscale]

namespace Binary64

/-- The number of the format that is **nearest** to a rational number within its range. Halfway
cases go to the even neighbour. -/
def nearest (q : ℚ) : ℚ :=
  SignType.sign q * (roundUnits (q.num.natAbs * unitsPerOne) q.den / unitsPerOne)

/-- A rational number is **half an integer** of 53 bits. -/
def IsHalf (q : ℚ) : Prop :=
  ∃ n : ℤ, 2 * q = n ∧ n.natAbs ≤ 2 ^ 53

/-- One is a power of two of units, and not the first. -/
theorem exists_unitsPerOne_eq : ∃ e, unitsPerOne = 2 * 2 ^ e := by
  obtain ⟨e, he⟩ : ∃ e, 1074 = e + 1 := ⟨1073, rfl⟩
  refine ⟨e, ?_⟩
  unfold unitsPerOne
  generalize 1074 = exponent at he
  rw [he]
  exact Nat.pow_succ'

/-- **Halves of integers of 53 bits are exact**: they are rounded to themselves. -/
theorem IsHalf.nearest_eq {q : ℚ} (h : IsHalf q) : nearest q = q := by
  obtain ⟨n, hq, hn⟩ := h
  obtain ⟨e, he⟩ := exists_unitsPerOne_eq
  have hunits : q.num.natAbs * unitsPerOne = n.natAbs * 2 ^ e * q.den := by
    have hnum : 2 * q.num = n * q.den := by
      have hdiv : 2 * (q.num / q.den : ℚ) = n := by rw [Rat.num_div_den, hq]
      rw [← mul_div_assoc, div_eq_iff (by exact_mod_cast q.den_ne_zero)] at hdiv
      exact_mod_cast hdiv
    have habs := congrArg Int.natAbs hnum
    rw [Int.natAbs_mul, Int.natAbs_mul, Int.natAbs_natCast] at habs
    rw [he, ← Nat.mul_assoc, Nat.mul_comm _ 2, show 2 * q.num.natAbs = _ from habs,
      Nat.mul_right_comm]
  have hround : roundUnits (q.num.natAbs * unitsPerOne) q.den = n.natAbs * 2 ^ e := by
    rcases Nat.lt_or_eq_of_le hn with hlt | heq
    · exact roundUnits_exact e q.pos hlt hunits
    · -- The power of two itself has one bit more, and a single significant one.
      rw [heq, ← Nat.pow_add, ← Nat.one_mul (2 ^ (53 + e))] at hunits ⊢
      exact roundUnits_exact (53 + e) q.pos (by decide) hunits
  have hvalue : ((n.natAbs * 2 ^ e : Nat) : ℚ) / unitsPerOne = |q| := by
    have hpow : ((2 ^ e : Nat) : ℚ) ≠ 0 := by exact_mod_cast (Nat.two_pow_pos e).ne'
    have habs : ((n.natAbs : Nat) : ℚ) = 2 * |q| := by
      rw [Nat.cast_natAbs, Int.cast_abs, ← hq, abs_mul, abs_two]
    rw [he, Nat.cast_mul, Nat.cast_mul, mul_div_mul_right _ _ hpow, habs, Nat.cast_ofNat,
      mul_div_cancel_left₀ _ two_ne_zero]
  rw [nearest, hround, hvalue, sign_mul_abs]

/-- The next integer is too large for 53 bits, and is not exact. -/
example : nearest 9007199254740992 = 9007199254740992 ∧
    nearest 9007199254740993 = 9007199254740992 := by
  decide +kernel

end Binary64

end Tabletop
