import Tabletop.Proofs.Dice.Shares
import Tabletop.Proofs.Formula.Acceptance

/-!
# The Totals of a Formula

The totals that a formula can show are **all the integers** from its minimum to its maximum,
and no others.

That no total lies outside holds of every share, since a minus sign swaps the lowest and
the highest value of its term. That none is missing goes the same way twice: an integer
between `a + c` and `b + d` is the sum of one between `a` and `b` and one between `c` and
`d`, so the dice of a term can be chosen one after another, and so can the shares of a
formula.

## Main results

* `SignedTerm.Shows.contribution_mem`, `Formula.contributions_mem`: what a term adds, and what
  all terms add, lies between the bounds.
* `SignedTerm.exists_shows`, `Formula.exists_shares`: every integer between the bounds is
  attained.
* `Formula.total_attainable_iff`: the totals of a formula.
-/

namespace Tabletop

/-- An integer between two sums of bounds is a sum of integers between the bounds. -/
theorem exists_add_eq {a b c d total : Int} (hab : a ≤ b) (hcd : c ≤ d)
    (hlow : a + c ≤ total) (hhigh : total ≤ b + d) :
    ∃ x y, (a ≤ x ∧ x ≤ b) ∧ (c ≤ y ∧ y ≤ d) ∧ x + y = total :=
  ⟨max a (total - d), total - max a (total - d), by omega, by omega, by omega⟩

/-- The sum of equal summands. -/
theorem sumOf_replicate {α : Type} (f : α → Int) (n : Nat) (a : α) :
    sumOf f (List.replicate n a) = n * f a := by
  induction n with
  | zero => simp
  | succ n ih =>
      rw [List.replicate_succ, sumOf_cons, ih, Int.natCast_succ, Int.add_mul, Int.one_mul,
        Int.add_comm]

/-- Sums are monotone in their summands. -/
theorem sumOf_le_sumOf {α : Type} {f g : α → Int} {as : List α} (h : ∀ a ∈ as, f a ≤ g a) :
    sumOf f as ≤ sumOf g as := by
  induction as with
  | nil => exact Int.le_refl 0
  | cons a as ih =>
      have hhead := h a (by simp)
      have htail := ih fun a' ha' => h a' (by simp [ha'])
      simp only [sumOf_cons]
      omega

section Ranges

variable {α β : Type} {R : α → β → Prop} {low high : α → Int} {value : β → Int}

/-- A sum lies between the sums of the bounds of its summands. -/
theorem sumOf_mem (h : ∀ a b, R a b → low a ≤ value b ∧ value b ≤ high a) {as : List α}
    {bs : List β} (hR : List.Forall₂ R as bs) :
    sumOf low as ≤ sumOf value bs ∧ sumOf value bs ≤ sumOf high as := by
  induction hR with
  | nil => exact ⟨Int.le_refl 0, Int.le_refl 0⟩
  | cons hab _ ih =>
      obtain ⟨hlow, hhigh⟩ := h _ _ hab
      simp only [sumOf_cons]
      omega

/-- **No sum is missing**: where every summand takes all the values between its bounds, the sum
takes all those between the sums of the bounds. -/
theorem exists_sumOf_eq {as : List α} (hle : ∀ a ∈ as, low a ≤ high a)
    (h : ∀ a ∈ as, ∀ x, low a ≤ x → x ≤ high a → ∃ b, R a b ∧ value b = x) {total : Int}
    (hlow : sumOf low as ≤ total) (hhigh : total ≤ sumOf high as) :
    ∃ bs, List.Forall₂ R as bs ∧ sumOf value bs = total := by
  induction as generalizing total with
  | nil => exact ⟨[], .nil, Int.le_antisymm hlow hhigh⟩
  | cons a as ih =>
      obtain ⟨hhead, htail⟩ := List.forall_mem_cons.mp hle
      obtain ⟨x, y, hx, hy, rfl⟩ := exists_add_eq hhead (sumOf_le_sumOf htail) hlow hhigh
      obtain ⟨b, hb, rfl⟩ := h a (by simp) x hx.1 hx.2
      obtain ⟨bs, hbs, rfl⟩ := ih htail (fun a' ha' => h a' (by simp [ha'])) hy.1 hy.2
      exact ⟨b :: bs, .cons hb hbs, rfl⟩

end Ranges

/-! ### One term -/

/-- The faces of a group of dice add up to no less than their number and no more than that
many times their sides. -/
theorem Fits.sum_mem {faces : List Nat} {count sides : Nat}
    (h : Fits faces (List.replicate count sides)) :
    (count : Int) ≤ sumOf Int.ofNat faces ∧ sumOf Int.ofNat faces ≤ count * sides := by
  have hsum : sumOf (fun _ => 1) (List.replicate count sides) ≤ sumOf Int.ofNat faces ∧
      sumOf Int.ofNat faces ≤ sumOf Int.ofNat (List.replicate count sides) := by
    refine sumOf_mem ?_ (List.Forall₂.flip h)
    intro sides face hface
    exact ⟨Int.ofNat_le.mpr hface.1, Int.ofNat_le.mpr hface.2⟩
  rw [sumOf_replicate, sumOf_replicate, Int.mul_one] at hsum
  exact hsum

/-- The faces of a group of dice add up to **everything** in between. -/
theorem exists_fits_sum {count sides : Nat} {x : Int} (hsides : 1 ≤ sides)
    (hlow : (count : Int) ≤ x) (hhigh : x ≤ count * sides) :
    ∃ faces, Fits faces (List.replicate count sides) ∧ sumOf Int.ofNat faces = x := by
  have hmem : ∀ n ∈ List.replicate count sides, n = sides := fun n => List.eq_of_mem_replicate
  have hlow' : sumOf (fun _ => 1) (List.replicate count sides) ≤ x := by
    rwa [sumOf_replicate, Int.mul_one]
  have hhigh' : x ≤ sumOf Int.ofNat (List.replicate count sides) := by
    rwa [sumOf_replicate]
  obtain ⟨faces, hfaces, hsum⟩ : ∃ faces, List.Forall₂ (fun n face => 1 ≤ face ∧ face ≤ n)
      (List.replicate count sides) faces ∧ sumOf Int.ofNat faces = x := by
    refine exists_sumOf_eq ?_ ?_ hlow' hhigh'
    · intro n hn
      rw [hmem n hn]
      exact Int.ofNat_le.mpr hsides
    · intro n _ y hy₁ hyn
      refine ⟨y.toNat, ?_, ?_⟩
      · simp only [Int.ofNat_eq_natCast] at hyn
        omega
      · exact Int.toNat_of_nonneg (by omega)
  exact ⟨faces, List.Forall₂.flip hfaces, hsum⟩

/-- What a term adds to the total lies **between its bounds**. -/
theorem SignedTerm.Shows.contribution_mem {t : SignedTerm} {share : Share}
    (h : t.Shows share) : t.min ≤ share.contribution ∧ share.contribution ≤ t.max := by
  cases h with
  | @constant sign value =>
      cases sign <;>
        simp [SignedTerm.min, SignedTerm.max, Term.min, Term.max, Share.contribution, Share.sign,
          Share.values, Sign.apply]
  | @dice sign count sides faces hfits =>
      have hsum := hfits.sum_mem
      cases sign <;>
        simp only [SignedTerm.min, SignedTerm.max, Term.min, Term.max, Share.contribution,
          Share.sign, Share.values, Sign.apply] <;>
        omega

/-- Every integer between the bounds of a term is something that it **may add**. -/
theorem SignedTerm.exists_shows {t : SignedTerm} (hvalid : t.term.Valid) {x : Int}
    (hlow : t.min ≤ x) (hhigh : x ≤ t.max) : ∃ share, t.Shows share ∧ share.contribution = x := by
  obtain ⟨sign, term⟩ := t
  cases term with
  | constant value =>
      refine ⟨.constant sign value, .constant, ?_⟩
      cases sign <;>
        simp only [SignedTerm.min, SignedTerm.max, Term.min, Term.max] at hlow hhigh <;>
        simp only [Share.contribution, Share.sign, Share.values, Sign.apply, sumOf_cons,
          sumOf_nil, Int.ofNat_eq_natCast] <;>
        omega
  | dice count sides =>
      obtain ⟨-, -, hsides, -⟩ := hvalid
      cases sign with
      | plus =>
          obtain ⟨faces, hfits, hsum⟩ := exists_fits_sum (by omega) hlow hhigh
          exact ⟨_, .dice hfits, hsum⟩
      | minus =>
          simp only [SignedTerm.min, SignedTerm.max, Term.min, Term.max] at hlow hhigh
          have hlow' : (count : Int) ≤ -x := by omega
          have hhigh' : -x ≤ count * sides := by omega
          obtain ⟨faces, hfits, hsum⟩ := exists_fits_sum (by omega) hlow' hhigh'
          refine ⟨_, .dice hfits, ?_⟩
          simp only [Share.contribution, Share.sign, Share.values, Sign.apply, hsum]
          omega

/-- The bounds of a term are in order. -/
theorem SignedTerm.min_le_max {t : SignedTerm} (hvalid : t.term.Valid) : t.min ≤ t.max := by
  obtain ⟨sign, term⟩ := t
  cases term with
  | constant value =>
      cases sign <;> simp [SignedTerm.min, SignedTerm.max, Term.min, Term.max]
  | dice count sides =>
      obtain ⟨-, -, hsides, -⟩ := hvalid
      have hle : (count : Int) ≤ count * sides := by
        exact_mod_cast Nat.le_mul_of_pos_right count (by omega)
      cases sign <;>
        simp only [SignedTerm.min, SignedTerm.max, Term.min, Term.max] <;>
        omega

/-! ### Formulas -/

/-- What the terms of a formula add lies **between its bounds**. -/
theorem Formula.contributions_mem {f : Formula} {shares : List Share}
    (h : List.Forall₂ SignedTerm.Shows f.terms shares) :
    f.min ≤ sumOf Share.contribution shares ∧ sumOf Share.contribution shares ≤ f.max :=
  sumOf_mem (fun _ _ hshows => hshows.contribution_mem) h

/-- Every integer between the bounds of a formula is something that its terms **may add**. -/
theorem Formula.exists_shares {f : Formula} (hvalid : ∀ t ∈ f.terms, t.term.Valid)
    {total : Int} (hlow : f.min ≤ total) (hhigh : total ≤ f.max) :
    ∃ shares, List.Forall₂ SignedTerm.Shows f.terms shares ∧
      sumOf Share.contribution shares = total :=
  exists_sumOf_eq (fun t ht => SignedTerm.min_le_max (hvalid t ht))
    (fun t ht _ => SignedTerm.exists_shows (hvalid t ht)) hlow hhigh

/-- **The totals of a formula are the integers from its minimum to its maximum**: an integer is
the total of a roll whose faces are scripted, one for each die and within its sides, exactly
when it lies between the two. -/
theorem Formula.total_attainable_iff {text : String} {f : Formula}
    (h : Formula.parse text = .ok f) (fallback : Source) (total : Int) :
    (∃ faces, Fits faces f.diceSides ∧
      ∃ roll, (f.roll (.scripted faces fallback)).1 = .ok roll ∧ roll.total = total) ↔
      f.min ≤ total ∧ total ≤ f.max := by
  constructor
  · rintro ⟨faces, hfits, roll, hroll, rfl⟩
    obtain ⟨shares, hshares, rfl⟩ := fits_iff_exists_shares.mp hfits
    rw [Formula.roll_scripted hshares] at hroll
    cases hroll
    exact Formula.contributions_mem hshares
  · rintro ⟨hlow, hhigh⟩
    obtain ⟨shares, hshares, hsum⟩ := Formula.exists_shares (Formula.valid_of_parse h) hlow hhigh
    refine ⟨_, fits_iff_exists_shares.mpr ⟨shares, hshares, rfl⟩, ⟨f.canonical, shares⟩, ?_, hsum⟩
    rw [Formula.roll_scripted hshares]

/-- The lowest total of `1d4 - 2d6 + 1` takes the highest faces of the dice that count
against it. -/
theorem Formula.total_attainable_lowest :
    ∃ f, Formula.parse "1d4 - 2d6 + 1" = .ok f ∧ f.diceSides = [4, 6, 6] ∧
      ∃ faces, Fits faces [4, 6, 6] ∧
        ∃ roll, (f.roll (.scripted faces (.seeded (.ofSeed 0)))).1 = .ok roll ∧
          roll.total = -10 := by
  have hparse : Formula.parse "1d4 - 2d6 + 1" = .ok ⟨"1d4 - 2d6 + 1",
      [⟨.plus, .dice 1 4⟩, ⟨.minus, .dice 2 6⟩, ⟨.plus, .constant 1⟩]⟩ := by
    decide +kernel
  exact ⟨_, hparse, rfl, (Formula.total_attainable_iff hparse _ (-10)).mpr (by decide)⟩

end Tabletop
