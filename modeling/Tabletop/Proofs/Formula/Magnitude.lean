import Tabletop.Proofs.Formula.FaultPosition
import Tabletop.Proofs.Formula.Surroundings

/-!
# How Large Totals Get

Every term of a formula but the first takes **two bytes of its text or more**, and each of them is
within bounds. So the totals of a formula are bounded by the size of its text, and with them every
sum that is met on the way when its terms are added up from the left.

## Main definitions

* `PartialSums`: what is met on the way when something is added up from the left.
* `Formula.Safe`: rolling the formula asks for nothing that a machine word of 64 bits refuses.

## Main results

* `Formula.two_mul_length_terms_le`: a text has two bytes for every term but one.
* `partialSums_natAbs_le`: what sums of bounded terms come to at most.
* `Formula.safe_of_parse`: every formula that is read is safe.
-/

open Tabletop.Text

namespace Tabletop

namespace Grammar

variable {text : List Char} {ts : List SignedTerm}

/-- A continuation has **two characters for every term**, a sign and a digit. -/
theorem Continuation.length_le (h : Continuation text ts) : 2 * ts.length ≤ text.length := by
  induction h with
  | done _ => exact Nat.zero_le _
  | more _ _ hw _ ih =>
      have hpos := List.length_pos_iff.mpr hw.ne_nil
      simp only [List.length_append, List.length_cons]
      omega

/-- A formula has **two characters for every term** but the first, which needs no sign. -/
theorem Sentence.length_le (h : Sentence text ts) : 2 * ts.length ≤ text.length + 1 := by
  cases h with
  | mk _ hw htext =>
      have hpos := List.length_pos_iff.mpr hw.ne_nil
      have hrest := htext.length_le
      simp only [List.length_append, List.length_cons]
      omega

end Grammar

/-! ### Sums and their summands -/

/-- What adding up from the left **meets on the way** satisfies a condition, from zero to the sum of
all. -/
def PartialSums {α : Type} (p : Int → Prop) (value : α → Int) (as : List α) : Prop :=
  ∀ front, front <+: as → p (sumOf value front)

/-- A sum is no larger than **the bounds of its summands** together, with either sign. -/
theorem natAbs_sumOf_le {α : Type} {value : α → Int} {bound : α → Nat} {as : List α}
    (h : ∀ a ∈ as, (value a).natAbs ≤ bound a) : (sumOf value as).natAbs ≤ countOf bound as := by
  induction as with
  | nil => exact Nat.zero_le _
  | cons a as ih =>
      obtain ⟨hfirst, hothers⟩ := List.forall_mem_cons.mp h
      rw [sumOf_cons, countOf_cons]
      exact (Int.natAbs_add_le _ _).trans (Nat.add_le_add hfirst (ih hothers))

/-- So much for **each die**, and so much for **each term**. -/
theorem countOf_diceCount_add (perDie perTerm : Nat) (ts : List SignedTerm) :
    countOf (fun t => t.term.diceCount * perDie + perTerm) ts =
      diceOf ts * perDie + ts.length * perTerm := by
  induction ts with
  | nil => simp
  | cons t ts ih =>
      rw [countOf_cons, ih, diceOf_cons, List.length_cons, Nat.add_mul, Nat.succ_mul]
      omega

/-- Where every term adds so much for each of its dice, and so much besides, **no partial sum** is
larger than this comes to for all terms. -/
theorem partialSums_natAbs_le {value : SignedTerm → Int} {perDie perTerm : Nat}
    {ts : List SignedTerm}
    (h : ∀ t ∈ ts, (value t).natAbs ≤ t.term.diceCount * perDie + perTerm) :
    PartialSums (fun n => n.natAbs ≤ diceOf ts * perDie + ts.length * perTerm) value ts := by
  rintro front ⟨back, rfl⟩
  have hfront := natAbs_sumOf_le fun t ht => h t (List.mem_append_left back ht)
  rw [countOf_diceCount_add] at hfront
  refine hfront.trans (Nat.add_le_add (Nat.mul_le_mul_right _ ?_) (Nat.mul_le_mul_right _ ?_))
  · rw [diceOf_append]
    exact Nat.le_add_right _ _
  · rw [List.length_append]
    exact Nat.le_add_right _ _

/-! ### Terms -/

/-- What a term within its bounds shows is not negative, and at most the largest number for each of
its dice, and once more. -/
theorem Term.within {t : Term} (h : t.Valid) :
    0 ≤ t.min ∧ t.min ≤ (t.diceCount + 1) * 4294967295 ∧
      0 ≤ t.max ∧ t.max ≤ (t.diceCount + 1) * 4294967295 := by
  cases t with
  | constant value =>
      have hvalue : value ≤ 4294967295 := h
      simp only [min, max, diceCount]
      omega
  | dice count sides =>
      obtain ⟨-, -, -, hsides⟩ := h
      have hproduct : count * sides ≤ count * 4294967295 := Nat.mul_le_mul_left count hsides
      simp only [min, max, diceCount, ← Int.natCast_mul]
      omega

/-- The same, **with a sign** in front. -/
theorem SignedTerm.within {t : SignedTerm} (h : t.term.Valid) :
    t.min.natAbs ≤ t.term.diceCount * 4294967295 + 4294967295 ∧
      t.max.natAbs ≤ t.term.diceCount * 4294967295 + 4294967295 := by
  have hwithin := Term.within h
  cases hsign : t.sign <;> simp only [min, max, hsign] <;> omega

/-! ### Formulas -/

/-- The text of a formula has **two bytes for every term** but the first. -/
theorem Formula.two_mul_length_terms_le {text : String} {f : Formula}
    (h : Formula.parse text = .ok f) : 2 * f.terms.length ≤ text.utf8ByteSize + 1 :=
  calc 2 * f.terms.length ≤ text.toList.length + 1 := (Formula.sentence_of_parse h).1.length_le
    _ ≤ byteSize text.toList + 1 := Nat.succ_le_succ (length_le_byteSize _)
    _ = text.utf8ByteSize + 1 := by rw [byteSize_toList]

/-- A formula is **safe** to roll if every one of its dice has a face to show, and if, unless its
text takes more than a gibibyte, no sum of its first terms leaves the signed integers of 64 bits,
however the dice fall. -/
structure Formula.Safe (f : Formula) : Prop where
  /-- Every die has two sides or more. -/
  two_le_sides : ∀ t ∈ f.terms, ∀ count sides, t.term = .dice count sides → 2 ≤ sides
  /-- The sums of the first terms fit. -/
  sums_fit : f.source.utf8ByteSize ≤ 1073741824 → ∀ front, front <+: f.terms →
    -9223372036854775808 ≤ sumOf SignedTerm.min front ∧
      sumOf SignedTerm.max front ≤ 9223372036854775807

/-- Every formula that is read is **safe**. -/
theorem Formula.safe_of_parse {text : String} {f : Formula} (h : Formula.parse text = .ok f) :
    f.Safe := by
  have hvalid := Formula.valid_of_parse h
  refine ⟨?_, ?_⟩
  · intro t ht count sides hterm
    have hsides := hvalid t ht
    rw [hterm] at hsides
    exact hsides.2.2.1
  · intro hsize front hfront
    have hsource := Formula.parse_source h
    obtain ⟨-, hdice, -⟩ := Formula.sentence_of_parse hsource
    have hlength := Formula.two_mul_length_terms_le hsource
    have hwithin := fun t ht => SignedTerm.within (hvalid t ht)
    have hmin := partialSums_natAbs_le (fun t ht => (hwithin t ht).1) front hfront
    have hmax := partialSums_natAbs_le (fun t ht => (hwithin t ht).2) front hfront
    omega

end Tabletop
