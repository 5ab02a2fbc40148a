import Tabletop.Proofs.Dice.Drawing
import Tabletop.Proofs.Formula.Canonical

/-!
# Rolls on One Line

A roll that is written on one line can be **read off** that line again: the formula up to the first
space, the total up to the next, and then the values of the terms, a bracketed group for each. A
group alone does not say whether it stands for dice or for a constant, since one die and a constant
are written alike. The formula says so, and it has been read before.

The line is cut from left to right, each time at the first mark of a kind that does not occur in
what stands in front of it: canonical spellings and totals have no spaces, numbers have no commas,
and groups have no brackets inside.

## Main results

* `Share.values_eq_of_append`: the values of a group, and what comes behind it.
* `eq_of_flatMap_share`: what the terms of a formula showed, from their groups.
* `Formula.terms_eq_of_canonical`: the terms of a formula, from its canonical spelling.
* `Roll.eq_of_display`: a roll, from its line.
-/

open Tabletop.Text

namespace Tabletop

/-- What is written between separators is the first text, and then each of the others **behind a
separator**. -/
theorem intercalate_cons (sep first : List Char) (others : List (List Char)) :
    List.intercalate sep (first :: others) = first ++ others.flatMap (sep ++ ·) := by
  induction others generalizing first with
  | nil => simp
  | cons second others ih =>
      rw [List.intercalate_cons_cons, ih, List.flatMap_cons, List.append_assoc, List.append_assoc]

/-! ### Groups of values -/

/-- A number is written with **digits only**. -/
theorem not_mem_numeral {c : Char} (hc : c.isDigit = false) (n : Nat) : c ∉ numeral n := by
  intro h
  rw [(numeral_numeral n).isDigit c h] at hc
  cases hc

/-- A number can be told from its digits, if **no further digit** comes behind them. -/
theorem eq_of_append_numeral_eq {n m : Nat} {text text' : List Char}
    (htext : Stops Char.isDigit text) (htext' : Stops Char.isDigit text')
    (h : numeral n ++ text = numeral m ++ text') : n = m ∧ text = text' := by
  have hdigits : ∀ k, ∀ c ∈ numeral k, c.isDigit = true := fun k => (numeral_numeral k).isDigit
  have hfront := congrArg (List.takeWhile Char.isDigit) h
  have hback := congrArg (List.dropWhile Char.isDigit) h
  rw [takeWhile_append_of_stops (hdigits n) htext,
    takeWhile_append_of_stops (hdigits m) htext'] at hfront
  rw [dropWhile_append_of_stops (hdigits n) htext,
    dropWhile_append_of_stops (hdigits m) htext'] at hback
  refine ⟨?_, hback⟩
  rw [← numeralValue_numeral n, hfront, numeralValue_numeral]

/-- Numbers, each **behind a comma** and a space. -/
def listed (ns : List Nat) : List Char :=
  (ns.map numeral).flatMap ([',', ' '] ++ ·)

/-- Each of the numbers is written behind **a comma and a space**. -/
theorem listed_cons (n : Nat) (ns : List Nat) :
    listed (n :: ns) = ',' :: ' ' :: (numeral n ++ listed ns) :=
  rfl

/-- The comma ends a number. -/
theorem stops_isDigit_listed (ns : List Nat) : Stops Char.isDigit (listed ns) := by
  cases ns with
  | nil => exact stops_nil _
  | cons n ns => exact stops_cons.mpr rfl

/-- Numbers behind commas are told **from their text**. -/
theorem listed_inj {ns ms : List Nat} (h : listed ns = listed ms) : ns = ms := by
  induction ns generalizing ms with
  | nil =>
      cases ms with
      | nil => rfl
      | cons m ms => cases h
  | cons n ns ih =>
      cases ms with
      | nil => cases h
      | cons m ms =>
          rw [listed_cons, listed_cons] at h
          obtain ⟨rfl, hothers⟩ := eq_of_append_numeral_eq (stops_isDigit_listed ns)
            (stops_isDigit_listed ms) (List.tail_eq_of_cons_eq (List.tail_eq_of_cons_eq h))
          rw [ih hothers]

/-- The values of a share, as they stand **between the brackets**. -/
def Share.inside (share : Share) : List Char :=
  List.intercalate [',', ' '] (share.values.map numeral)

namespace Share

variable {share share' : Share}

/-- A group is written between **brackets**. -/
theorem chars_eq (share : Share) : share.chars = '[' :: (share.inside ++ [']']) :=
  rfl

/-- Between the brackets the first number stands by itself. -/
theorem inside_eq {n : Nat} {ns : List Nat} (h : share.values = n :: ns) :
    share.inside = numeral n ++ listed ns := by
  rw [inside, h, List.map_cons, intercalate_cons]
  rfl

/-- There is **no bracket** between the brackets. -/
theorem bracket_not_mem_inside (share : Share) : ']' ∉ share.inside := by
  have hlisted : ∀ ns, ']' ∉ listed ns := by
    intro ns h
    obtain ⟨digits, hdigits, hmem⟩ := List.mem_flatMap.mp h
    obtain ⟨n, -, rfl⟩ := List.mem_map.mp hdigits
    rcases List.mem_append.mp hmem with hsep | hmem
    · simp at hsep
    · exact not_mem_numeral rfl n hmem
  cases hvalues : share.values with
  | nil => simp [inside, hvalues]
  | cons n ns =>
      rw [inside_eq hvalues, List.mem_append, not_or]
      exact ⟨not_mem_numeral rfl n, hlisted ns⟩

/-- What stands between the brackets tells **the values**. -/
theorem values_eq_of_inside (h : share.inside = share'.inside) : share.values = share'.values := by
  have hne : ∀ n text, numeral n ++ text ≠ [] := fun n text hnil =>
    (numeral_numeral n).ne_nil (List.append_eq_nil_iff.mp hnil).1
  cases hvalues : share.values with
  | nil =>
      have hnil : share.inside = [] := by rw [inside, hvalues]; rfl
      cases hvalues' : share'.values with
      | nil => rfl
      | cons m ms =>
          rw [hnil, inside_eq hvalues'] at h
          exact absurd h.symm (hne _ _)
  | cons n ns =>
      cases hvalues' : share'.values with
      | nil =>
          have hnil : share'.inside = [] := by rw [inside, hvalues']; rfl
          rw [hnil, inside_eq hvalues] at h
          exact absurd h (hne _ _)
      | cons m ms =>
          rw [inside_eq hvalues, inside_eq hvalues'] at h
          obtain ⟨rfl, hothers⟩ :=
            eq_of_append_numeral_eq (stops_isDigit_listed ns) (stops_isDigit_listed ms) h
          rw [listed_inj hothers]

/-- A group tells its values, **whatever comes behind it**. -/
theorem values_eq_of_append {text text' : List Char}
    (h : share.chars ++ text = share'.chars ++ text') :
    share.values = share'.values ∧ text = text' := by
  simp only [chars_eq, List.cons_append, List.append_assoc, List.nil_append] at h
  obtain ⟨hinside, htext⟩ := eq_of_append_mark_eq share.bracket_not_mem_inside
    share'.bracket_not_mem_inside (List.tail_eq_of_cons_eq h)
  exact ⟨values_eq_of_inside hinside, htext⟩

end Share

/-! ### The groups of a formula -/

/-- For **a given term**, the values that it showed tell its share. -/
theorem SignedTerm.share_eq_of_values {t : SignedTerm} {faces faces' : List Nat}
    (h : (t.share faces).values = (t.share faces').values) : t.share faces = t.share faces' := by
  obtain ⟨sign, term⟩ := t
  cases term with
  | constant value => rfl
  | dice count sides => exact congrArg (Share.dice sign count sides) h

/-- For **given terms**, their groups tell what they showed. -/
theorem eq_of_flatMap_share {ts : List SignedTerm} {faces faces' : List Nat}
    (h : ((sharesOf ts faces).map Share.chars).flatMap ([' '] ++ ·) =
      ((sharesOf ts faces').map Share.chars).flatMap ([' '] ++ ·)) :
    sharesOf ts faces = sharesOf ts faces' := by
  induction ts generalizing faces faces' with
  | nil => rfl
  | cons t ts ih =>
      simp only [sharesOf, List.map_cons, List.flatMap_cons, List.append_assoc] at h ⊢
      obtain ⟨hvalues, hothers⟩ := Share.values_eq_of_append (List.append_cancel_left h)
      rw [SignedTerm.share_eq_of_values hvalues, ih hothers]

/-- A formula that was read is told by **its canonical spelling**, but for the text that it was read
from. -/
theorem Formula.terms_eq_of_canonical {f f' : Formula} (hf : f.WellFormed) (hf' : f'.WellFormed)
    (h : f.canonical = f'.canonical) : f.terms = f'.terms := by
  have hread := hf.parse_canonical
  rw [h, hf'.parse_canonical] at hread
  exact (congrArg Formula.terms (Except.ok.inj hread)).symm

/-- A canonical spelling has no space. -/
theorem Formula.space_not_mem_canonical (f : Formula) : ' ' ∉ f.canonical.toList := by
  intro h
  rw [canonical, String.toList_ofList] at h
  have hblank := isBlank_of_mem_spellTerms h
  revert hblank
  decide

/-- A roll of a formula that was read shows something. -/
theorem Formula.WellFormed.breakdown_ne_nil {f : Formula} (h : f.WellFormed) (faces : List Nat) :
    (f.rollOf faces).breakdown ≠ [] := by
  obtain ⟨t, others, hterms⟩ := h.first_plus
  rw [rollOf, hterms]
  exact List.cons_ne_nil _ _

/-! ### Whole lines -/

/-- There is no space in a number. -/
theorem space_not_mem_intNumeral (n : Int) : ' ' ∉ intNumeral n := by
  cases n with
  | ofNat n => exact not_mem_numeral rfl n
  | negSucc n =>
      rw [intNumeral, List.mem_cons, not_or]
      exact ⟨by decide, not_mem_numeral rfl (n + 1)⟩

namespace Roll

/-- The line of a roll of at least one term: its formula, its total, and the groups **behind
spaces**. -/
theorem chars_eq {expression : String} {first : Share} {others : List Share} :
    chars ⟨expression, first :: others⟩ =
      expression.toList ++ ' ' :: '=' :: ' ' ::
        (Text.intNumeral (total ⟨expression, first :: others⟩) ++ ' ' ::
          (first.chars ++ (others.map Share.chars).flatMap ([' '] ++ ·))) := by
  rw [chars, List.map_cons, intercalate_cons, List.append_assoc, List.append_assoc]
  rfl

/-- The lines of two rolls are cut **at the same places**: before the equality sign, and behind the
total. -/
theorem eq_of_chars {r r' : Roll} (hspace : ' ' ∉ r.expression.toList)
    (hspace' : ' ' ∉ r'.expression.toList) (hne : r.breakdown ≠ []) (hne' : r'.breakdown ≠ [])
    (h : r.chars = r'.chars) :
    r.expression = r'.expression ∧
      (r.breakdown.map Share.chars).flatMap ([' '] ++ ·) =
        (r'.breakdown.map Share.chars).flatMap ([' '] ++ ·) := by
  obtain ⟨expression, breakdown⟩ := r
  obtain ⟨expression', breakdown'⟩ := r'
  obtain ⟨first, others, rfl⟩ := List.exists_cons_of_ne_nil hne
  obtain ⟨first', others', rfl⟩ := List.exists_cons_of_ne_nil hne'
  rw [chars_eq, chars_eq] at h
  obtain ⟨hexpression, hrest⟩ := eq_of_append_mark_eq hspace hspace' h
  have htotal := List.tail_eq_of_cons_eq (List.tail_eq_of_cons_eq hrest)
  obtain ⟨-, hgroups⟩ := eq_of_append_mark_eq (space_not_mem_intNumeral _)
    (space_not_mem_intNumeral _) htotal
  exact ⟨String.toList_inj.mp hexpression, congrArg ([' '] ++ ·) hgroups⟩

/-- **The line of a roll loses nothing.** Two rolls of formulas that were read from texts, with
faces from wherever they may come, that are written alike are one roll: they have the same formula,
the same total and the same breakdown. -/
theorem eq_of_display {text text' : String} {f f' : Formula}
    (hparse : Formula.parse text = .ok f) (hparse' : Formula.parse text' = .ok f')
    {ε σ δ τ : Type} {draw : Draw ε σ} {draw' : Draw δ τ} {s next : σ} {s' next' : τ}
    {r r' : Roll} (hroll : f.rollWith draw s = (.ok r, next))
    (hroll' : f'.rollWith draw' s' = (.ok r', next')) (h : r.display = r'.display) : r = r' := by
  have hformula := Formula.WellFormed.of_parse hparse
  have hformula' := Formula.WellFormed.of_parse hparse'
  obtain ⟨-, hr⟩ := Formula.each_of_rollWith hroll
  obtain ⟨-, hr'⟩ := Formula.each_of_rollWith hroll'
  have hspace : ' ' ∉ r.expression.toList := hr ▸ f.space_not_mem_canonical
  have hspace' : ' ' ∉ r'.expression.toList := hr' ▸ f'.space_not_mem_canonical
  have hne : r.breakdown ≠ [] := hr ▸ hformula.breakdown_ne_nil _
  have hne' : r'.breakdown ≠ [] := hr' ▸ hformula'.breakdown_ne_nil _
  obtain ⟨hexpression, hgroups⟩ := eq_of_chars hspace hspace' hne hne' (String.ofList_inj.mp h)
  rw [hr, hr'] at hexpression hgroups ⊢
  have hterms := Formula.terms_eq_of_canonical hformula hformula' hexpression
  -- The formula is known now, and it says how to read the groups.
  simp only [Formula.rollOf, ← hterms] at hexpression hgroups ⊢
  rw [hexpression, eq_of_flatMap_share hgroups]

/-- A negative total, and groups of one value for dice and for a constant: what one source was asked
for and another has shown by itself is written alike, and is one roll. -/
theorem eq_of_display_negative :
    ∃ f f' r r' next next', Formula.parse "1d6 - 9 - 1d2" = .ok f ∧
      Formula.parse "01D6-9-1d2" = .ok f' ∧
      f.rollWith Source.draw (.scripted [1, 1] .highest) = (.ok r, next) ∧
      f'.rollWith Source.draw .lowest = (.ok r', next') ∧
      r.display = "1d6-9-1d2 = -9 [1] [9] [1]" ∧ r'.display = "1d6-9-1d2 = -9 [1] [9] [1]" ∧
      r = r' := by
  have hparse : Formula.parse "1d6 - 9 - 1d2" = .ok ⟨"1d6 - 9 - 1d2",
      [⟨.plus, .dice 1 6⟩, ⟨.minus, .constant 9⟩, ⟨.minus, .dice 1 2⟩]⟩ := by
    decide +kernel
  have hparse' : Formula.parse "01D6-9-1d2" = .ok ⟨"01D6-9-1d2",
      [⟨.plus, .dice 1 6⟩, ⟨.minus, .constant 9⟩, ⟨.minus, .dice 1 2⟩]⟩ := by
    decide +kernel
  have hroll : Formula.rollWith Source.draw ⟨"1d6 - 9 - 1d2",
      [⟨.plus, .dice 1 6⟩, ⟨.minus, .constant 9⟩, ⟨.minus, .dice 1 2⟩]⟩
      (.scripted [1, 1] .highest) =
      (.ok ⟨"1d6-9-1d2", [.dice .plus 1 6 [1], .constant .minus 9, .dice .minus 1 2 [1]]⟩,
        .scripted [] .highest) := by
    decide +kernel
  have hroll' : Formula.rollWith Source.draw ⟨"01D6-9-1d2",
      [⟨.plus, .dice 1 6⟩, ⟨.minus, .constant 9⟩, ⟨.minus, .dice 1 2⟩]⟩ .lowest =
      (.ok ⟨"1d6-9-1d2", [.dice .plus 1 6 [1], .constant .minus 9, .dice .minus 1 2 [1]]⟩,
        .lowest) := by
    decide +kernel
  have hline : display ⟨"1d6-9-1d2",
      [.dice .plus 1 6 [1], .constant .minus 9, .dice .minus 1 2 [1]]⟩ =
      "1d6-9-1d2 = -9 [1] [9] [1]" := by
    decide +kernel
  exact ⟨_, _, _, _, _, _, hparse, hparse', hroll, hroll', hline, hline,
    eq_of_display hparse hparse' hroll hroll' rfl⟩

end Roll

end Tabletop
