import Tabletop.Proofs.Formula.Acceptance

/-!
# The States of a Reading

A reading comes to its terms one after another: to the first one behind the blanks at the start of
the text, and to the next one behind the sign of a round. `Scan.AtRound` and `Scan.AtTerm` are the
states in which rounds and terms begin, with the terms that have been read until then. They are
those of **any** text, whether or not it denotes a formula, up to the fault that ends the reading.

What one term or one round does to the dice that are counted is known from its steps, so that the
count is known in every state.

## Main definitions

* `Scan.AtRound`, `Scan.AtTerm`: the states in which rounds and terms begin.

## Main results

* `Scan.AtRound.dice`, `Scan.AtTerm.dice`: the dice that are counted in them.
* `Formula.visits_of_parse`: every reading is made of these states.
-/

open Tabletop.Text Tabletop.Grammar

namespace Tabletop

namespace Scan

variable {text : String} {ts : List SignedTerm} {s : Scan}

/-- In this state a **round** of the reading begins, after these terms. -/
inductive AtRound (text : String) : List SignedTerm → Scan → Prop
  /-- The first round begins behind the first term. -/
  | first {t : Term} {next : Scan} : (atFirst text.toList).rest ≠ [] →
      (atFirst text.toList).term = .ok (t, next) → AtRound text [⟨.plus, t⟩] next
  /-- The next round begins behind the term of this one. -/
  | next {ts : List SignedTerm} {s next : Scan} {t : SignedTerm} : AtRound text ts s →
      s.round = .ok (some (t, next)) → AtRound text (ts ++ [t]) next

/-- In this state a **term** of the text begins, after these terms. -/
inductive AtTerm (text : String) : List SignedTerm → Scan → Prop
  /-- The first term stands behind blanks. -/
  | first : (atFirst text.toList).rest ≠ [] → AtTerm text [] (atFirst text.toList)
  /-- The term of a round stands behind its sign. -/
  | behindSign {ts : List SignedTerm} {s : Scan} {sign : Sign} {rest : List Char} :
      AtRound text ts s → (s.skip isBlank).rest = sign.symbol :: rest →
      AtTerm text ts (s.behindSign sign rest)

/-- A reading goes **from round to round**: where it succeeds, the last round begins after all its
terms and finds none, and where it fails, a round fails. -/
theorem AtRound.exists_last (h : AtRound text ts s) :
    (∀ us, s.rounds = .ok us → ∃ last, AtRound text (ts ++ us) last ∧ last.round = .ok none) ∧
      ∀ e, s.rounds = .error e → ∃ us last, AtRound text us last ∧ last.round = .error e := by
  induction s using Scan.rounds.induct generalizing ts with
  | case1 s e hround =>
      rw [rounds_of_error hround]
      refine ⟨fun _ h => (by cases h), ?_⟩
      rintro _ ⟨⟩
      exact ⟨ts, s, h, hround⟩
  | case2 s hround =>
      rw [rounds_of_none hround]
      refine ⟨?_, fun _ h => (by cases h)⟩
      rintro _ ⟨⟩
      exact ⟨s, by rwa [List.append_nil], hround⟩
  | case3 s t next hround e hnext ih =>
      rw [rounds_of_some hround, hnext]
      refine ⟨fun _ h => (by cases h), ?_⟩
      rintro _ ⟨⟩
      exact (ih (h.next hround)).2 e hnext
  | case4 s t next hround others hnext ih =>
      rw [rounds_of_some hround, hnext]
      refine ⟨?_, fun _ h => (by cases h)⟩
      rintro _ ⟨⟩
      obtain ⟨last, hlast, hdone⟩ := (ih (h.next hround)).1 others hnext
      rw [List.append_assoc, List.singleton_append] at hlast
      exact ⟨last, hlast, hdone⟩

/-- Where a round begins, **the dice of the terms** have been counted, within the bound. -/
theorem AtRound.dice (h : AtRound text ts s) : s.dice = diceOf ts ∧ s.dice ≤ 2000 := by
  induction h with
  | first _ hterm =>
      obtain ⟨w, hw⟩ := term_eq_ok hterm
      have hstart : (atFirst text.toList).dice = 0 := rfl
      refine ⟨?_, hw.dice_le (by omega)⟩
      rw [hw.dice_eq, hstart, diceOf_cons, diceOf_nil, Nat.add_comm]
  | @next ts s next t _ hround ih =>
      obtain ⟨u, v, w, m, -, -, -, hm, hw⟩ := round_eq_some hround
      refine ⟨?_, hw.dice_le (hm ▸ ih.2)⟩
      rw [hw.dice_eq, hm, ih.1, diceOf_append, diceOf_cons, diceOf_nil, Nat.add_zero]

/-- Where a term begins, the dice of the terms **before it** have been counted. -/
theorem AtTerm.dice (h : AtTerm text ts s) : s.dice = diceOf ts ∧ s.dice ≤ 2000 := by
  cases h with
  | first _ => exact ⟨rfl, Nat.zero_le _⟩
  | behindSign hround _ => exact hround.dice

end Scan

/-- **Every reading is made of these states**: one that succeeds ends in a round after all terms of
the formula, and one that fails, unless the text is blank, does so in its first term or in a
round. -/
theorem Formula.visits_of_parse (text : String) :
    (∀ f, Formula.parse text = .ok f →
      ∃ last, Scan.AtRound text f.terms last ∧ last.round = .ok none) ∧
    ∀ e, Formula.parse text = .error e →
      Blanks text.toList ∨ (∃ s, Scan.AtTerm text [] s ∧ s.term = .error e) ∨
        ∃ ts s, Scan.AtRound text ts s ∧ s.round = .error e := by
  by_cases hrest : (Scan.atFirst text.toList).rest = []
  · rw [Formula.parse_of_nil hrest]
    exact ⟨fun _ h => (by cases h), fun _ _ => .inl (List.dropWhile_eq_nil_iff.mp hrest)⟩
  cases hterm : (Scan.atFirst text.toList).term with
  | error e =>
      rw [Formula.parse_of_error hrest hterm]
      refine ⟨fun _ h => (by cases h), ?_⟩
      rintro _ ⟨⟩
      exact .inr (.inl ⟨_, .first hrest, hterm⟩)
  | ok read =>
      obtain ⟨hgood, hbad⟩ := (Scan.AtRound.first hrest hterm).exists_last
      rw [Formula.parse_of_ok hrest hterm]
      cases hrounds : read.2.rounds with
      | error e =>
          refine ⟨fun _ h => (by cases h), ?_⟩
          rintro _ ⟨⟩
          exact .inr (.inr (hbad e hrounds))
      | ok others =>
          refine ⟨?_, fun _ h => (by cases h)⟩
          rintro _ ⟨⟩
          exact hgood others hrounds

end Tabletop
