import Mathlib.Algebra.BigOperators.Field
import Mathlib.Algebra.Order.BigOperators.GroupWithZero.List
import Mathlib.Data.Finset.Prod
import Mathlib.Data.Rat.Floor
import Mathlib.Order.Interval.Finset.Nat
import Tabletop.Proofs.Dice.Totals

/-!
# The Average of a Formula

The dice of a formula show each **assignment** of faces equally often: one face for each die,
from one up to its sides. The expectation of the total is the sum of the totals of all
assignments, divided by their number, and `Formula.average` is that quotient rounded down.

The number of assignments is the product of the sides, so the sum is not taken term by term.
Instead every assignment is paired with the one of the **opposite faces**, where a die with
`s` sides that showed `k` shows `s + 1 - k`. The totals of the two add up to the minimum and
the maximum of the formula, whichever they are. A minus sign turns the total of its term
around and swaps its bounds, so it makes no difference to this. Turning all dice over is a
bijection of the assignments, hence twice the sum of all totals is the number of assignments
times the sum of the bounds.

## Main definitions

* `assignments`: the lists of faces that fit a list of dice.
* `Formula.totalOf`: the total of a formula whose dice show given faces.
* `Formula.expectation`: the mean of the totals of all assignments.
* `Formula.mean`: the sum of the means of the terms, before it is rounded.

## Main results

* `mem_assignments`, `card_assignments`: there is one for each choice of fitting faces.
* `Formula.totalOf_add_opposite`: the totals of opposite faces.
* `Formula.expectation_eq_mean`: the expectation is the sum of the means of the terms.
* `Formula.average_eq_floor_expectation`: the average is the expectation rounded down, and
  the midpoint of the bounds rounded down.
-/

namespace Tabletop

/-! ### Assignments -/

/-- The **assignments** of faces to dice: all lists with one face for each die, from one up to
its sides. -/
def assignments : List Nat → Finset (List Nat)
  | [] => {[]}
  | sides :: dice =>
    (Finset.Icc 1 sides ×ˢ assignments dice).image fun assigned => assigned.1 :: assigned.2

/-- The assignments are the lists of faces that fit. -/
theorem mem_assignments {faces dice : List Nat} : faces ∈ assignments dice ↔ Fits faces dice := by
  induction dice generalizing faces with
  | nil => simp [assignments, Fits]
  | cons sides dice ih =>
      cases faces with
      | nil => simp [assignments, Fits]
      | cons face faces =>
          rw [Fits, List.forall₂_cons, ← Fits, ← ih]
          simp [assignments]

/-- There are as many assignments as the **product** of the sides. -/
theorem card_assignments (dice : List Nat) : (assignments dice).card = dice.prod := by
  induction dice with
  | nil => rfl
  | cons sides dice ih =>
      have hinj : Function.Injective fun assigned : Nat × List Nat => assigned.1 :: assigned.2 := by
        rintro ⟨face, faces⟩ ⟨face', faces'⟩ h
        obtain ⟨rfl, rfl⟩ := List.cons.inj h
        rfl
      rw [assignments, Finset.card_image_of_injective _ hinj, Finset.card_product, ih,
        Nat.card_Icc, List.prod_cons, Nat.add_sub_cancel]

/-! ### Opposite faces -/

/-- The **opposite** faces: a die with `s` sides that showed `k` now shows `s + 1 - k`. -/
def oppositeFaces (faces dice : List Nat) : List Nat :=
  List.zipWith (fun face sides => sides + 1 - face) faces dice

/-- The opposite faces fit the same dice. -/
theorem Fits.opposite {faces dice : List Nat} (h : Fits faces dice) :
    Fits (oppositeFaces faces dice) dice := by
  induction h with
  | nil => exact .nil
  | @cons face sides faces dice hface _ ih =>
      have hhead : 1 ≤ sides + 1 - face ∧ sides + 1 - face ≤ sides := by omega
      exact .cons hhead ih

/-- Dice that are turned over twice show what they did. -/
theorem Fits.opposite_opposite {faces dice : List Nat} (h : Fits faces dice) :
    oppositeFaces (oppositeFaces faces dice) dice = faces := by
  induction h with
  | nil => rfl
  | @cons face sides faces dice hface _ ih =>
      have hhead : sides + 1 - (sides + 1 - face) = face := by omega
      exact congrArg₂ List.cons hhead ih

/-- A face and its opposite add up to one more than the sides. -/
theorem Fits.sum_add_opposite {faces dice : List Nat} (h : Fits faces dice) :
    sumOf Int.ofNat faces + sumOf Int.ofNat (oppositeFaces faces dice) =
      sumOf (fun sides : Nat => 1 + (sides : Int)) dice := by
  induction h with
  | nil => rfl
  | @cons face sides faces dice hface _ ih =>
      rw [oppositeFaces] at ih ⊢
      simp only [List.zipWith_cons_cons, sumOf_cons, Int.ofNat_eq_natCast]
      omega

/-- What the term would have shown with its dice turned over. -/
def Share.opposite : Share → Share
  | .dice sign count sides faces =>
    .dice sign count sides (oppositeFaces faces (List.replicate count sides))
  | .constant sign value => .constant sign value

namespace SignedTerm.Shows

variable {t : SignedTerm} {share : Share}

/-- A term that may show a share may show the opposite one. -/
theorem opposite (h : t.Shows share) : t.Shows share.opposite := by
  cases h with
  | constant => exact .constant
  | dice hfits => exact .dice hfits.opposite

/-- The faces of the opposite share are the opposite ones. -/
theorem faces_opposite (h : t.Shows share) :
    share.opposite.faces = oppositeFaces share.faces t.term.diceSides := by
  cases h with
  | constant => rfl
  | dice => rfl

/-- What a term adds and what it adds with its dice turned over come to **the sum of its
bounds**. -/
theorem contribution_add_opposite (h : t.Shows share) :
    share.contribution + share.opposite.contribution = t.min + t.max := by
  cases h with
  | @constant sign value =>
      cases sign <;>
        simp [SignedTerm.min, SignedTerm.max, Term.min, Term.max, Share.contribution,
          Share.opposite, Share.sign, Share.values, Sign.apply]
  | @dice sign count sides faces hfits =>
      have hsum := hfits.sum_add_opposite
      rw [sumOf_replicate, Int.mul_add, Int.mul_one] at hsum
      cases sign <;>
        simp only [SignedTerm.min, SignedTerm.max, Term.min, Term.max, Share.contribution,
          Share.opposite, Share.sign, Share.values, Sign.apply] <;>
        omega

end SignedTerm.Shows

section Shares

variable {ts : List SignedTerm} {shares : List Share}

/-- Turning over the dice of all terms turns over the dice of each. -/
theorem flatMap_faces_opposite (h : List.Forall₂ SignedTerm.Shows ts shares) :
    (shares.map Share.opposite).flatMap Share.faces =
      oppositeFaces (shares.flatMap Share.faces) (diceSidesOf ts) := by
  induction h with
  | nil => rfl
  | @cons t share ts shares hshows _ ih =>
      have happend : oppositeFaces (share.faces ++ shares.flatMap Share.faces)
          (t.term.diceSides ++ diceSidesOf ts) =
          oppositeFaces share.faces t.term.diceSides ++
            oppositeFaces (shares.flatMap Share.faces) (diceSidesOf ts) :=
        List.zipWith_append hshows.fits.length_eq
      rw [List.map_cons, List.flatMap_cons, ih, hshows.faces_opposite]
      exact happend.symm

/-- Terms that may show some shares may show the opposite ones. -/
theorem forall₂_shows_opposite (h : List.Forall₂ SignedTerm.Shows ts shares) :
    List.Forall₂ SignedTerm.Shows ts (shares.map Share.opposite) :=
  List.forall₂_map_right_iff.mpr (h.imp fun _ _ => SignedTerm.Shows.opposite)

/-- What all terms add and what they add with their dice turned over come to the sum of the
bounds. -/
theorem sum_contribution_add_opposite (h : List.Forall₂ SignedTerm.Shows ts shares) :
    sumOf Share.contribution shares + sumOf Share.contribution (shares.map Share.opposite) =
      sumOf SignedTerm.min ts + sumOf SignedTerm.max ts := by
  induction h with
  | nil => rfl
  | cons hshows _ ih =>
      have hhead := hshows.contribution_add_opposite
      simp only [List.map_cons, sumOf_cons]
      omega

end Shares

/-! ### Totals and their expectation -/

namespace Formula

/-- The total of the formula when its dice show the given faces, and those of the fallback
should there be too few. A roll that is refused has the total zero; faces that fit are never
refused. -/
def totalOf (f : Formula) (fallback : Source) (faces : List Nat) : Int :=
  match (f.roll (.scripted faces fallback)).1 with
  | .ok roll => roll.total
  | .error _ => 0

/-- The **expectation** of the total: the mean of the totals of all assignments. -/
def expectation (f : Formula) (fallback : Source) : ℚ :=
  (∑ faces ∈ assignments f.diceSides, (f.totalOf fallback faces : ℚ)) /
    (assignments f.diceSides).card

variable {f : Formula}

/-- Each assignment is a roll that takes its faces and no other. -/
theorem exists_roll_of_mem_assignments {faces : List Nat} (fallback : Source)
    (h : faces ∈ assignments f.diceSides) :
    ∃ roll, f.roll (.scripted faces fallback) = (.ok roll, .scripted [] fallback) := by
  obtain ⟨shares, hshares, rfl⟩ := fits_iff_exists_shares.mp (mem_assignments.mp h)
  exact ⟨_, roll_scripted hshares fallback⟩

/-- The total of what the terms may show is the sum of what they add. -/
theorem totalOf_flatMap_faces {shares : List Share} (fallback : Source)
    (h : List.Forall₂ SignedTerm.Shows f.terms shares) :
    f.totalOf fallback (shares.flatMap Share.faces) = sumOf Share.contribution shares := by
  rw [totalOf, roll_scripted h]
  rfl

/-- The totals of opposite faces add up to **the sum of the bounds**. -/
theorem totalOf_add_opposite {faces : List Nat} (fallback : Source)
    (h : Fits faces f.diceSides) :
    f.totalOf fallback faces + f.totalOf fallback (oppositeFaces faces f.diceSides) =
      f.min + f.max := by
  obtain ⟨shares, hshares, rfl⟩ := fits_iff_exists_shares.mp h
  rw [diceSides, ← flatMap_faces_opposite hshares, totalOf_flatMap_faces fallback hshares,
    totalOf_flatMap_faces fallback (forall₂_shows_opposite hshares)]
  exact sum_contribution_add_opposite hshares

/-- Turning the dice over takes every assignment to another, so it does not change the sum of
all totals. -/
theorem sum_totalOf_opposite (f : Formula) (fallback : Source) :
    ∑ faces ∈ assignments f.diceSides, f.totalOf fallback (oppositeFaces faces f.diceSides) =
      ∑ faces ∈ assignments f.diceSides, f.totalOf fallback faces := by
  have hmem : ∀ faces ∈ assignments f.diceSides,
      oppositeFaces faces f.diceSides ∈ assignments f.diceSides := fun faces h =>
    mem_assignments.mpr (mem_assignments.mp h).opposite
  have hinv : ∀ faces ∈ assignments f.diceSides,
      oppositeFaces (oppositeFaces faces f.diceSides) f.diceSides = faces := fun faces h =>
    (mem_assignments.mp h).opposite_opposite
  exact Finset.sum_nbij' (oppositeFaces · f.diceSides) (oppositeFaces · f.diceSides) hmem hmem
    hinv hinv fun _ _ => rfl

/-- **Twice the sum of all totals** is the number of assignments times the sum of the
bounds. -/
theorem two_mul_sum_totalOf (f : Formula) (fallback : Source) :
    2 * ∑ faces ∈ assignments f.diceSides, f.totalOf fallback faces =
      (assignments f.diceSides).card * (f.min + f.max) := by
  calc 2 * ∑ faces ∈ assignments f.diceSides, f.totalOf fallback faces
    _ = ∑ faces ∈ assignments f.diceSides, f.totalOf fallback faces +
          ∑ faces ∈ assignments f.diceSides,
            f.totalOf fallback (oppositeFaces faces f.diceSides) := by
        rw [sum_totalOf_opposite, two_mul]
    _ = ∑ faces ∈ assignments f.diceSides, (f.totalOf fallback faces +
          f.totalOf fallback (oppositeFaces faces f.diceSides)) :=
        Finset.sum_add_distrib.symm
    _ = ∑ _faces ∈ assignments f.diceSides, (f.min + f.max) :=
        Finset.sum_congr rfl fun faces h => totalOf_add_opposite fallback (mem_assignments.mp h)
    _ = (assignments f.diceSides).card * (f.min + f.max) := by
        rw [Finset.sum_const, nsmul_eq_mul]

/-- The dice of a formula that was read have assignments. -/
theorem card_assignments_pos (h : ∀ t ∈ f.terms, t.term.Valid) :
    0 < (assignments f.diceSides).card := by
  rw [card_assignments]
  refine List.prod_pos fun sides hsides => ?_
  obtain ⟨⟨sign, term⟩, ht, hmem⟩ := List.mem_flatMap.mp hsides
  have hvalid := h _ ht
  cases term with
  | constant value => cases hmem
  | dice count n =>
      obtain rfl := List.eq_of_mem_replicate hmem
      obtain ⟨-, -, htwo, -⟩ := hvalid
      omega

/-- The expectation lies **halfway between the bounds**. -/
theorem expectation_eq_midpoint (h : ∀ t ∈ f.terms, t.term.Valid) (fallback : Source) :
    f.expectation fallback = ((f.min + f.max : Int) : ℚ) / 2 := by
  have hcard : ((assignments f.diceSides).card : ℚ) ≠ 0 :=
    Nat.cast_ne_zero.mpr (card_assignments_pos h).ne'
  have hsum : (2 : ℚ) * ∑ faces ∈ assignments f.diceSides, (f.totalOf fallback faces : ℚ) =
      (assignments f.diceSides).card * ((f.min + f.max : Int) : ℚ) := by
    exact_mod_cast f.two_mul_sum_totalOf fallback
  rw [expectation, div_eq_div_iff hcard two_ne_zero]
  linarith

end Formula

/-! ### Means of terms -/

/-- The **mean** value of a term. A die with `s` sides has the mean `(1 + s) / 2`. -/
def Term.mean : Term → ℚ
  | .dice count sides => count * (1 + sides) / 2
  | .constant value => value

/-- The mean contribution of a term to the total. -/
def SignedTerm.mean (t : SignedTerm) : ℚ :=
  match t.sign with
  | .plus => t.term.mean
  | .minus => -t.term.mean

/-- The sum of the means of the terms of a formula. -/
def Formula.mean (f : Formula) : ℚ :=
  (f.terms.map SignedTerm.mean).sum

/-- The doubled mean of a term is twice its mean. -/
theorem Term.cast_doubledMean (term : Term) : (term.doubledMean : ℚ) = 2 * term.mean := by
  cases term with
  | constant value =>
      rw [doubledMean, mean]
      push_cast
      ring
  | dice count sides =>
      rw [doubledMean, mean]
      push_cast
      ring

/-- The doubled mean of a contribution is twice its mean. -/
theorem SignedTerm.cast_doubledMean (t : SignedTerm) : (t.doubledMean : ℚ) = 2 * t.mean := by
  obtain ⟨sign, term⟩ := t
  cases sign with
  | plus => exact term.cast_doubledMean
  | minus =>
      simp only [doubledMean, mean, Sign.apply, Int.cast_neg, term.cast_doubledMean, mul_neg]

/-- The bounds of a term add up to its doubled mean, **whatever its sign is**. -/
theorem SignedTerm.min_add_max (t : SignedTerm) : t.min + t.max = t.doubledMean := by
  obtain ⟨sign, term⟩ := t
  have hterm : term.min + term.max = term.doubledMean := by
    cases term with
    | constant value => exact (two_mul (value : Int)).symm
    | dice count sides => rw [Term.min, Term.max, Term.doubledMean, mul_add, mul_one]
  cases sign with
  | plus => exact hterm
  | minus =>
      simp only [SignedTerm.min, SignedTerm.max, SignedTerm.doubledMean, Sign.apply]
      omega

namespace Formula

/-- The doubled means of the terms add up to twice the mean of the formula. -/
theorem cast_sumOf_doubledMean (f : Formula) :
    (sumOf SignedTerm.doubledMean f.terms : ℚ) = 2 * f.mean := by
  rw [mean]
  induction f.terms with
  | nil => simp
  | cons t terms ih =>
      rw [sumOf_cons, Int.cast_add, t.cast_doubledMean, ih, List.map_cons, List.sum_cons, mul_add]

/-- The bounds of a formula add up to the doubled means of its terms. -/
theorem min_add_max (f : Formula) : f.min + f.max = sumOf SignedTerm.doubledMean f.terms := by
  rw [min, max]
  induction f.terms with
  | nil => rfl
  | cons t terms ih =>
      rw [sumOf_cons, sumOf_cons, sumOf_cons, ← ih, ← t.min_add_max]
      ring

/-- The average is the mean **rounded down**. -/
theorem average_eq_floor_mean (f : Formula) : f.average = ⌊f.mean⌋ := by
  have hmean : f.mean = (sumOf SignedTerm.doubledMean f.terms : ℚ) / (2 : ℕ) := by
    rw [f.cast_sumOf_doubledMean]
    push_cast
    ring
  rw [hmean, Rat.floor_intCast_div_natCast]
  rfl

/-- The mean lies halfway between the bounds. -/
theorem mean_eq_midpoint (f : Formula) : f.mean = ((f.min + f.max : Int) : ℚ) / 2 := by
  rw [f.min_add_max, f.cast_sumOf_doubledMean]
  ring

/-- **The expectation is the sum of the means of the terms.** -/
theorem expectation_eq_mean {f : Formula} (h : ∀ t ∈ f.terms, t.term.Valid)
    (fallback : Source) : f.expectation fallback = f.mean := by
  rw [expectation_eq_midpoint h, mean_eq_midpoint]

/-- **The average is the expectation rounded down.** Every assignment of faces to the dice of a
formula is a roll of the formula that takes just these faces. The average is the sum of the
totals of these rolls, divided by their number and rounded towards minus infinity, and so it is
half the sum of the bounds, rounded the same way. -/
theorem average_eq_floor_expectation {text : String} {f : Formula}
    (h : Formula.parse text = .ok f) (fallback : Source) :
    (∀ faces ∈ assignments f.diceSides, ∃ roll,
      f.roll (.scripted faces fallback) = (.ok roll, .scripted [] fallback) ∧
        f.totalOf fallback faces = roll.total) ∧
    0 < (assignments f.diceSides).card ∧
    f.average = ⌊f.expectation fallback⌋ ∧
    f.average = ⌊((f.min + f.max : Int) : ℚ) / 2⌋ := by
  have hvalid := Formula.valid_of_parse h
  refine ⟨?_, card_assignments_pos hvalid, ?_, ?_⟩
  · intro faces hfaces
    obtain ⟨roll, hroll⟩ := exists_roll_of_mem_assignments fallback hfaces
    refine ⟨roll, hroll, ?_⟩
    rw [totalOf, hroll]
  · rw [expectation_eq_mean hvalid, average_eq_floor_mean]
  · rw [average_eq_floor_mean, mean_eq_midpoint]

/-- The totals of `1 - 1d2` are `0` and `-1`, and their mean `-1/2` is rounded **down** to
`-1`. -/
theorem average_of_negative_half :
    ∃ f, Formula.parse "1 - 1d2" = .ok f ∧ assignments f.diceSides = {[1], [2]} ∧
      f.min = -1 ∧ f.max = 0 ∧ f.average = -1 ∧ f.average = ⌊f.expectation .lowest⌋ := by
  have hparse : Formula.parse "1 - 1d2" = .ok ⟨"1 - 1d2",
      [⟨.plus, .constant 1⟩, ⟨.minus, .dice 1 2⟩]⟩ := by
    decide +kernel
  exact ⟨_, hparse, by decide, rfl, rfl, rfl, (average_eq_floor_expectation hparse .lowest).2.2.1⟩

end Formula

end Tabletop
