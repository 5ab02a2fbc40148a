import Tabletop.Proofs.Dice.Average
import Tabletop.Proofs.Formula.Magnitude
import Tabletop.Proofs.Formula.Visits
import Tabletop.Proofs.Lists.Traversal
import Tabletop.Proofs.Number.Rounding

/-!
# Arithmetic on Formulas

Bounds, totals and means are integers and halves of integers here. A program adds them up in words
of fixed width, and means in the format binary64. This module proves that nothing is lost by that:
on the way to each of these sums **every partial sum fits**, so that it is the exact one.

How large partial sums get is a matter of the terms. A term within its bounds adds so much for each
of its dice and so much besides; a formula has few dice, and its text has two bytes for every term.
The count of the dice fits whatever the text is, because it stops at the bound of a formula.

A mean is computed step by step, and every step is rounded. The exact results are halves of integers
of 53 bits, so the rounding does nothing.

## Main definitions

* `Term.meanWith`, `meansWith`, `Formula.averageWith`: means whose steps are rounded.
* `Formula.SumsFit`, `Formula.MeansExact`: what is met on the way to the sums of a formula.

## Main results

* `SignedTerm.Shows.partialSums_values`, `partialSums_contribution`: the sums of a roll.
* `meansWith_nearest`: means that are halves of integers of 53 bits are exact.
* `Formula.sumsFit_of_parse`, `Formula.meansExact_of_parse`: the sums of a formula that was read.
* `Formula.arithmetic_fits`: both, and the count of the dice.
-/

namespace Tabletop

/-! ### Sums of integers -/

section Integers

variable {ts : List SignedTerm} {t : SignedTerm} {share : Share} {shares : List Share}

/-- The integer **fits** into 64 bits with sign. -/
def FitsSigned (n : Int) : Prop :=
  fitsSigned n = true

/-- An integer fits if it is within **the bounds of 64 bits**, with sign. -/
theorem fitsSigned_iff {n : Int} :
    FitsSigned n ↔ -9223372036854775808 ≤ n ∧ n ≤ 9223372036854775807 :=
  Bool.and_eq_true_iff.trans (and_congr decide_eq_true_iff decide_eq_true_iff)

/-- Faces and values do not add up to less than nothing. -/
theorem sumOf_ofNat_nonneg (values : List Nat) : 0 ≤ sumOf Int.ofNat values := by
  induction values with
  | nil => exact Int.le_refl 0
  | cons value values ih => exact Int.add_nonneg (Int.natCast_nonneg value) ih

/-- The values that a term shows add up to no more than **its highest value**. -/
theorem SignedTerm.Shows.sum_values_le (h : t.Shows share) :
    sumOf Int.ofNat share.values ≤ t.term.max := by
  cases h with
  | constant => simp [Share.values, Term.max]
  | dice hfits => exact hfits.sum_mem.2

/-- A term within its bounds has no more dice than a term may have. -/
theorem Term.diceCount_le {t : Term} (h : t.Valid) : t.diceCount ≤ 1000 := by
  cases t with
  | constant => exact Nat.zero_le _
  | dice => exact h.2.1

/-- The highest value of a term **fits**, and so do its bounds with a sign in front. -/
theorem SignedTerm.fits (h : t.term.Valid) :
    FitsSigned t.term.max ∧ FitsSigned t.min ∧ FitsSigned t.max := by
  have hdice := Term.diceCount_le h
  obtain ⟨-, -, hnonneg, hmax⟩ := Term.within h
  obtain ⟨hlow, hhigh⟩ := SignedTerm.within h
  rw [fitsSigned_iff, fitsSigned_iff, fitsSigned_iff]
  omega

/-- What a term contributes **fits**. -/
theorem SignedTerm.Shows.fits_contribution (h : t.Shows share) (hvalid : t.term.Valid) :
    FitsSigned share.contribution := by
  obtain ⟨hlow, hhigh⟩ := h.contribution_mem
  have hfits := (SignedTerm.fits hvalid).2
  rw [fitsSigned_iff, fitsSigned_iff] at hfits
  rw [fitsSigned_iff]
  omega

/-- The values that a term shows are added up **within 64 bits**. -/
theorem SignedTerm.Shows.partialSums_values (h : t.Shows share) (hvalid : t.term.Valid) :
    PartialSums FitsSigned Int.ofNat share.values := by
  rintro front ⟨back, hvalues⟩
  have hfront := sumOf_ofNat_nonneg front
  have hback := sumOf_ofNat_nonneg back
  have hle := h.sum_values_le
  have hmax := fitsSigned_iff.mp (SignedTerm.fits hvalid).1
  rw [← hvalues, sumOf_append] at hle
  rw [fitsSigned_iff]
  omega

/-- What terms contribute is added up within 64 bits, where **their bounds** are. -/
theorem partialSums_contribution (h : List.Forall₂ SignedTerm.Shows ts shares)
    (hmin : PartialSums FitsSigned SignedTerm.min ts)
    (hmax : PartialSums FitsSigned SignedTerm.max ts) :
    PartialSums FitsSigned Share.contribution shares := by
  intro front hfront
  have hshows := List.forall₂_take front.length h
  rw [← List.prefix_iff_eq_take.mp hfront] at hshows
  have hsum := sumOf_mem (fun _ _ hshows => hshows.contribution_mem) hshows
  have hlow := fitsSigned_iff.mp (hmin _ (List.take_prefix front.length ts))
  have hhigh := fitsSigned_iff.mp (hmax _ (List.take_prefix front.length ts))
  rw [fitsSigned_iff]
  omega

end Integers

/-- The **sums of integers** that are formed for a formula fit into 64 bits with sign: on the way to
its bounds, and on the way to its total and to what each of its terms shows, whichever fitting faces
its dice show. -/
structure Formula.SumsFit (f : Formula) : Prop where
  /-- The summands themselves. -/
  summands : ∀ t ∈ f.terms, FitsSigned t.term.max ∧ FitsSigned t.min ∧ FitsSigned t.max
  /-- On the way to the lowest total. -/
  lowest : PartialSums FitsSigned SignedTerm.min f.terms
  /-- On the way to the highest total. -/
  highest : PartialSums FitsSigned SignedTerm.max f.terms
  /-- On the way to the total of a roll, and before that within each term. -/
  rolled : ∀ faces fallback, Fits faces f.diceSides →
    ∃ roll, f.roll (.scripted faces fallback) = (.ok roll, .scripted [] fallback) ∧
      (∀ share ∈ roll.breakdown, PartialSums FitsSigned Int.ofNat share.values ∧
        FitsSigned share.contribution) ∧
      PartialSums FitsSigned Share.contribution roll.breakdown

/-- For a text of two gibibytes or less, **all sums of integers fit**. -/
theorem Formula.sumsFit_of_parse {text : String} {f : Formula} (h : Formula.parse text = .ok f)
    (hsize : text.utf8ByteSize ≤ 2 ^ 31) : f.SumsFit := by
  have hvalid := Formula.valid_of_parse h
  obtain ⟨-, hdice, -⟩ := Formula.sentence_of_parse h
  have hlength := Formula.two_mul_length_terms_le h
  have hfits : ∀ value : SignedTerm → Int,
      (∀ t ∈ f.terms, (value t).natAbs ≤ t.term.diceCount * 4294967295 + 4294967295) →
      PartialSums FitsSigned value f.terms := by
    intro value hvalue front hfront
    have hsum := partialSums_natAbs_le hvalue front hfront
    rw [fitsSigned_iff]
    omega
  have hmin := hfits _ fun t ht => (SignedTerm.within (hvalid t ht)).1
  have hmax := hfits _ fun t ht => (SignedTerm.within (hvalid t ht)).2
  refine ⟨fun t ht => SignedTerm.fits (hvalid t ht), hmin, hmax, fun faces fallback hfaces => ?_⟩
  obtain ⟨shares, hshares, rfl⟩ := fits_iff_exists_shares.mp hfaces
  refine ⟨_, Formula.roll_scripted hshares fallback, fun share hshare => ?_,
    partialSums_contribution hshares hmin hmax⟩
  obtain ⟨t, ht, hshows⟩ := exists_of_mem_forall₂ hshares.flip hshare
  exact ⟨hshows.partialSums_values (hvalid t ht), hshows.fits_contribution (hvalid t ht)⟩

/-! ### Means -/

section Means

open Binary64

variable {ts : List SignedTerm}

/-- The mean of a term, **where every step is rounded**. -/
def Term.meanWith (rnd : ℚ → ℚ) : Term → ℚ
  | .dice count sides => rnd (rnd (count * rnd (1 + sides)) / 2)
  | .constant value => value

/-- The same with a sign in front, which needs no rounding. -/
def SignedTerm.meanWith (rnd : ℚ → ℚ) (t : SignedTerm) : ℚ :=
  match t.sign with
  | .plus => t.term.meanWith rnd
  | .minus => -t.term.meanWith rnd

/-- The means of terms, **added up from the left**, where every sum is rounded. -/
def meansWith (rnd : ℚ → ℚ) (ts : List SignedTerm) : ℚ :=
  ts.foldl (fun sum t => rnd (sum + t.meanWith rnd)) 0

/-- The mean of a formula rounded down, where every step before that is rounded. -/
def Formula.averageWith (rnd : ℚ → ℚ) (f : Formula) : ℤ :=
  ⌊meansWith rnd f.terms⌋

/-- One term more is **one addition more**, with its rounding. -/
theorem meansWith_concat (rnd : ℚ → ℚ) (ts : List SignedTerm) (t : SignedTerm) :
    meansWith rnd (ts ++ [t]) = rnd (meansWith rnd ts + t.meanWith rnd) :=
  List.foldl_concat ..

/-- Twice the mean of a term within its bounds is so much for **each die**, and so much besides. -/
theorem SignedTerm.natAbs_doubledMean_le {t : SignedTerm} (h : t.term.Valid) :
    t.doubledMean.natAbs ≤ t.term.diceCount * 4294967296 + 8589934590 := by
  have hterm : t.term.doubledMean.natAbs ≤ t.term.diceCount * 4294967296 + 8589934590 := by
    cases hcase : t.term with
    | constant value =>
        rw [hcase] at h
        have hvalue : value ≤ 4294967295 := h
        simp only [Term.doubledMean, Term.diceCount]
        omega
    | dice count sides =>
        rw [hcase] at h
        obtain ⟨-, -, -, hsides⟩ := h
        have hproduct : count * (1 + sides) ≤ count * 4294967296 :=
          Nat.mul_le_mul_left count (by omega)
        have hcast : (count : Int) * (1 + sides) = (count * (1 + sides) : Nat) := by
          push_cast
          rfl
        simp only [Term.doubledMean, Term.diceCount, hcast, Int.natAbs_natCast]
        exact Nat.le_add_right_of_le hproduct
  cases hsign : t.sign <;> simpa only [doubledMean, hsign, Sign.apply, Int.natAbs_neg]

/-- The mean of a term within its bounds is **half an integer** of 53 bits. -/
theorem SignedTerm.isHalf_mean {t : SignedTerm} (h : t.term.Valid) : IsHalf t.mean := by
  have hdoubled := SignedTerm.natAbs_doubledMean_le h
  have hcount := Term.diceCount_le h
  exact ⟨t.doubledMean, t.cast_doubledMean.symm, by omega⟩

/-- Rounding does **nothing to the mean of a term** within its bounds. -/
theorem Term.meanWith_nearest {t : Term} (h : t.Valid) : t.meanWith nearest = t.mean := by
  cases t with
  | constant value => rfl
  | dice count sides =>
      have hmean : IsHalf (Term.dice count sides).mean := SignedTerm.isHalf_mean (t := ⟨.plus, _⟩) h
      obtain ⟨-, hcount, -, hsides⟩ := h
      have hproduct : count * (1 + sides) ≤ 1000 * 4294967296 :=
        Nat.mul_le_mul hcount (by omega)
      have hone : IsHalf (1 + sides : ℚ) :=
        ⟨(2 * (1 + sides) : Nat), by push_cast; rfl, by rw [Int.natAbs_natCast]; omega⟩
      have hall : IsHalf (count * (1 + sides) : ℚ) :=
        ⟨(2 * (count * (1 + sides)) : Nat), by push_cast; rfl,
          by rw [Int.natAbs_natCast]; omega⟩
      rw [mean] at hmean ⊢
      rw [meanWith, hone.nearest_eq, hall.nearest_eq, hmean.nearest_eq]

/-- The mean of a term is computed **exactly**, as its sign only changes that of the mean. -/
theorem SignedTerm.meanWith_nearest {t : SignedTerm} (h : t.term.Valid) :
    t.meanWith nearest = t.mean := by
  obtain ⟨sign, term⟩ := t
  cases sign with
  | plus => exact Term.meanWith_nearest h
  | minus => exact congrArg Neg.neg (Term.meanWith_nearest h)

/-- Where the exact sums are **halves of integers of 53 bits**, rounding does nothing to them. -/
theorem meansWith_nearest (hvalid : ∀ t ∈ ts, t.term.Valid)
    (hsums : ∀ front, front <+: ts → IsHalf (front.map SignedTerm.mean).sum) :
    meansWith nearest ts = (ts.map SignedTerm.mean).sum := by
  induction ts using List.reverseRecOn with
  | nil => rfl
  | append_singleton ts t ih =>
      obtain ⟨hothers, hlast⟩ := List.forall_mem_append.mp hvalid
      have hexact := ih hothers fun front hfront =>
        hsums front (hfront.trans (List.prefix_append ts [t]))
      have hhalf := hsums _ (List.prefix_refl _)
      rw [List.map_append, List.sum_append, List.map_singleton, List.sum_singleton] at hhalf ⊢
      rw [meansWith_concat, hexact, SignedTerm.meanWith_nearest (hlast t List.mem_cons_self),
        hhalf.nearest_eq]

end Means

/-- The **mean of a formula is exact** when it is computed in the format binary64: what is met on
the way are integers of 53 bits and their halves, and no step is changed by rounding. -/
structure Formula.MeansExact (f : Formula) : Prop where
  /-- The products fit into 53 bits. -/
  products : ∀ t ∈ f.terms, ∀ count sides, t.term = .dice count sides →
    count * (1 + sides) ≤ 2 ^ 53
  /-- So do the means of the terms, doubled. -/
  halves : ∀ t ∈ f.terms, Binary64.IsHalf t.term.mean
  /-- And so do their sums from the left. -/
  sums : ∀ front, front <+: f.terms → Binary64.IsHalf (front.map SignedTerm.mean).sum
  /-- Rounding does not change the mean of a term. -/
  exact_terms : ∀ t ∈ f.terms, t.term.meanWith Binary64.nearest = t.term.mean
  /-- Nor does it change a sum. -/
  exact_sums : ∀ front, front <+: f.terms →
    meansWith Binary64.nearest front = (front.map SignedTerm.mean).sum
  /-- The mean that is computed is that of the formula. -/
  average : f.averageWith Binary64.nearest = f.average

/-- For a text of a mebibyte or less, **the mean is exact**. -/
theorem Formula.meansExact_of_parse {text : String} {f : Formula} (h : Formula.parse text = .ok f)
    (hsize : text.utf8ByteSize ≤ 2 ^ 20) : f.MeansExact := by
  have hvalid := Formula.valid_of_parse h
  obtain ⟨-, hdice, -⟩ := Formula.sentence_of_parse h
  have hlength := Formula.two_mul_length_terms_le h
  have hsums : ∀ front, front <+: f.terms → Binary64.IsHalf (front.map SignedTerm.mean).sum := by
    intro front hfront
    have hsum : (sumOf SignedTerm.doubledMean front).natAbs ≤ _ := partialSums_natAbs_le
      (fun t ht => SignedTerm.natAbs_doubledMean_le (hvalid t ht)) front hfront
    exact ⟨sumOf SignedTerm.doubledMean front,
      (Formula.cast_sumOf_doubledMean ⟨f.source, front⟩).symm, by omega⟩
  have hexact : ∀ front, front <+: f.terms →
      meansWith Binary64.nearest front = (front.map SignedTerm.mean).sum := fun front hfront =>
    meansWith_nearest (fun t ht => hvalid t (hfront.subset ht)) fun part hpart =>
      hsums part (hpart.trans hfront)
  refine ⟨fun t ht count sides hterm => ?_, fun t ht => ?_, hsums,
    fun t ht => Term.meanWith_nearest (hvalid t ht), hexact, ?_⟩
  · have hbounds := hvalid t ht
    rw [hterm] at hbounds
    obtain ⟨-, hcount, -, hsides⟩ := hbounds
    exact (Nat.mul_le_mul hcount (Nat.add_le_add_left hsides 1)).trans (by decide)
  · exact SignedTerm.isHalf_mean (t := ⟨.plus, t.term⟩) (hvalid t ht)
  · rw [averageWith, hexact _ (List.prefix_refl _), average_eq_floor_mean, mean]

/-! ### All arithmetic -/

/-- **Arithmetic stays within its types.** For a text of two gibibytes or less that denotes a
formula, no sum of integers that is formed for the formula leaves 64 bits with sign. Wherever a term
begins in the reading of any text, the dice of the terms before it have been counted, and the dice
of this term, which are looked at only if they are not too many for a term, can be added to them
within 32 bits. And for a text of a mebibyte or less, the mean is exact. -/
theorem Formula.arithmetic_fits :
    (∀ text f, Formula.parse text = .ok f → text.utf8ByteSize ≤ 2 ^ 31 → f.SumsFit) ∧
    (∀ text ts s, Scan.AtTerm text ts s → s.dice = diceOf ts ∧
      (Text.numeralValue (s.run Char.isDigit) ≤ maxDicePerTerm →
        s.dice + Text.numeralValue (s.run Char.isDigit) < wordRange)) ∧
    ∀ text f, Formula.parse text = .ok f → text.utf8ByteSize ≤ 2 ^ 20 → f.MeansExact := by
  refine ⟨fun _ _ h hsize => sumsFit_of_parse h hsize, fun text ts s h => ?_,
    fun _ _ h hsize => meansExact_of_parse h hsize⟩
  obtain ⟨hdice, hle⟩ := h.dice
  refine ⟨hdice, fun hcount => ?_⟩
  rw [maxDicePerTerm] at hcount
  rw [wordRange]
  omega

/-- Two groups of as many dice as allowed and the largest number, and the second group in the
reading of a text that denotes nothing. -/
theorem Formula.arithmetic_fits_bounds :
    (∃ f, Formula.parse "1000d4294967295-1000d2+4294967295" = .ok f ∧ f.SumsFit ∧
      f.MeansExact ∧ f.averageWith Binary64.nearest = 2151778613795) ∧
    ∃ s, Scan.AtTerm "1000d6-1000d6+1d6" [⟨.plus, .dice 1000 6⟩, ⟨.minus, .dice 1000 6⟩] s ∧
      s.dice + Text.numeralValue (s.run Char.isDigit) = 2001 ∧
      s.dice + Text.numeralValue (s.run Char.isDigit) < wordRange := by
  obtain ⟨hsums, hcount, hmeans⟩ := Formula.arithmetic_fits
  constructor
  · have hparse : Formula.parse "1000d4294967295-1000d2+4294967295" =
        .ok ⟨"1000d4294967295-1000d2+4294967295", [⟨.plus, .dice 1000 4294967295⟩,
          ⟨.minus, .dice 1000 2⟩, ⟨.plus, .constant 4294967295⟩]⟩ := by
      decide +kernel
    have hexact := hmeans _ _ hparse (by decide +kernel)
    refine ⟨_, hparse, hsums _ _ hparse (by decide +kernel), hexact, ?_⟩
    rw [hexact.average]
    decide +kernel
  · have hfirst : Scan.AtRound "1000d6-1000d6+1d6" [⟨.plus, .dice 1000 6⟩]
        ⟨6, ['-', '1', '0', '0', '0', 'd', '6', '+', '1', 'd', '6'], 1000⟩ :=
      .first (by decide +kernel) rfl
    have hsecond : Scan.AtRound "1000d6-1000d6+1d6"
        [⟨.plus, .dice 1000 6⟩, ⟨.minus, .dice 1000 6⟩] ⟨13, ['+', '1', 'd', '6'], 2000⟩ :=
      hfirst.next rfl
    have hthird : Scan.AtTerm "1000d6-1000d6+1d6"
        [⟨.plus, .dice 1000 6⟩, ⟨.minus, .dice 1000 6⟩] ⟨14, ['1', 'd', '6'], 2000⟩ :=
      .behindSign hsecond (show _ = Sign.symbol .plus :: ['1', 'd', '6'] from rfl)
    exact ⟨_, hthird, rfl, (hcount _ _ _ hthird).2 (by decide)⟩

end Tabletop
