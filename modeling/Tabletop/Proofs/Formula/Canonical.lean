import Tabletop.Proofs.Formula.Acceptance

/-!
# Canonical Spellings

A formula is written without blanks, without leading zeros and with a small `d`, and what is
written is read back as it was: **writing and reading are inverse** on the terms of a formula.
So the canonical spelling stands for the terms, and for nothing else in the text that they were
read from.

What is written is a formula of the grammar, since every production has a spelling without
blanks; that it is read back is then the completeness of the reading. The text that is kept
beside the terms is the spelling itself, because there are no blanks to be trimmed.

## Main definitions

* `Formula.WellFormed`: the terms are such as a text may denote.

## Main results

* `sentence_spellTerms`: a canonical spelling is a formula of the grammar.
* `Formula.WellFormed.parse_canonical`: it is read as the terms that were written.
* `Formula.WellFormed.of_parse`: what a text denotes is well-formed.
* `Formula.canonical_round_trip`: writing and reading are inverse.
-/

open Tabletop.Text Tabletop.Grammar

namespace Tabletop

/-- The terms of the formula are such as **a text may denote**: the first is positive, all of
them are within their bounds, and so are their dice. -/
structure Formula.WellFormed (f : Formula) : Prop where
  /-- There is a first term, and it is positive. -/
  first_plus : ∃ t others, f.terms = ⟨.plus, t⟩ :: others
  /-- The numbers of every term are within their bounds. -/
  valid : ∀ t ∈ f.terms, t.term.Valid
  /-- The terms do not roll more dice than a formula may. -/
  dice_le : diceOf f.terms ≤ 2000

/-! ### What is written is a formula -/

/-- What is written for a number is a numeral. -/
theorem numeral_numeral (n : Nat) : Numeral (numeral n) n := by
  refine numeral_iff.mpr ⟨?_, ?_, numeralValue_numeral n⟩
  · exact List.ne_nil_of_length_pos Nat.length_toDigits_pos
  · intro c hc
    exact Nat.isDigit_of_mem_toDigits (by decide) (by decide) hc

/-- What is written for a term is that term. -/
theorem Term.termText_chars {t : Term} (h : t.Valid) : TermText t.chars t := by
  cases t with
  | constant value => exact .constant (numeral_numeral value) h
  | dice count sides =>
      obtain ⟨hpos, hcount, htwo, hsides⟩ := h
      exact .dice (numeral_numeral count) hpos hcount (.inl rfl) (numeral_numeral sides) htwo
        hsides

/-- What is written for the terms behind the first continues a formula. -/
theorem continuation_chars {ts : List SignedTerm} (h : ∀ t ∈ ts, t.term.Valid) :
    Continuation (ts.flatMap SignedTerm.chars) ts := by
  induction ts with
  | nil => exact .done blanks_nil
  | cons t ts ih =>
      obtain ⟨hhead, htail⟩ := List.forall_mem_cons.mp h
      exact .more (u := []) (v := []) blanks_nil blanks_nil (Term.termText_chars hhead) (ih htail)

/-- **A canonical spelling is a formula**, and denotes the terms that it was written for. -/
theorem sentence_spellTerms {t : Term} {ts : List SignedTerm} (ht : t.Valid)
    (hts : ∀ t ∈ ts, t.term.Valid) :
    Sentence (spellTerms (⟨.plus, t⟩ :: ts)) (⟨.plus, t⟩ :: ts) :=
  .mk (u := []) blanks_nil (Term.termText_chars ht) (continuation_chars hts)

/-! ### What is written has no blanks -/

/-- The characters that a term is written with are digits and the mark between its numbers. -/
theorem Term.mem_chars {t : Term} {c : Char} (h : c ∈ t.chars) : c.isDigit = true ∨ c = 'd' := by
  have hnumeral : ∀ n, c ∈ numeral n → c.isDigit = true := fun n => (numeral_numeral n).isDigit c
  cases t with
  | constant value => exact .inl (hnumeral value h)
  | dice count sides =>
      rcases List.mem_append.mp h with h | h
      · exact .inl (hnumeral count h)
      · rcases List.mem_cons.mp h with rfl | h
        · exact .inr rfl
        · exact .inl (hnumeral sides h)

/-- The characters that terms are written with are digits, marks and signs. -/
theorem mem_spellTerms {ts : List SignedTerm} {c : Char} (h : c ∈ spellTerms ts) :
    c.isDigit = true ∨ c = 'd' ∨ ∃ sign : Sign, c = sign.symbol := by
  have hterm : ∀ t : Term, c ∈ t.chars →
      c.isDigit = true ∨ c = 'd' ∨ ∃ sign : Sign, c = sign.symbol :=
    fun t ht => (Term.mem_chars ht).imp_right .inl
  cases ts with
  | nil => cases h
  | cons first others =>
      rcases List.mem_append.mp h with h | h
      · exact hterm _ h
      · obtain ⟨t, -, ht⟩ := List.mem_flatMap.mp h
        rcases List.mem_cons.mp ht with rfl | ht
        · exact .inr (.inr ⟨t.sign, rfl⟩)
        · exact hterm _ ht

/-- **No blank** is written. -/
theorem isBlank_of_mem_spellTerms {ts : List SignedTerm} {c : Char} (h : c ∈ spellTerms ts) :
    isBlank c = false := by
  rcases mem_spellTerms h with h | rfl | ⟨sign, rfl⟩
  · exact isBlank_eq_false_of_isDigit h
  · decide
  · exact isBlank_symbol sign

/-- Trimming leaves a text alone that has no blanks. -/
theorem trim_eq_self {text : List Char} (h : ∀ c ∈ text, isBlank c = false) :
    trim text = text := by
  have hstops : ∀ w : List Char, (∀ c ∈ w, c ∈ text) → Stops isBlank w :=
    fun w hw c hc => h c (hw c (List.mem_of_mem_head? hc))
  have htrimmed : Trimmed text text :=
    ⟨[], [], blanks_nil, blanks_nil, by simp, hstops _ fun _ => id,
      hstops _ fun _ => List.mem_reverse.mp⟩
  exact htrimmed.eq_trim.symm

/-! ### Writing and reading -/

/-- What a text denotes is **well-formed**. -/
theorem Formula.WellFormed.of_parse {text : String} {f : Formula}
    (h : Formula.parse text = .ok f) : f.WellFormed := by
  obtain ⟨hsentence, hdice, -⟩ := Formula.sentence_of_parse h
  refine ⟨?_, Formula.valid_of_parse h, hdice⟩
  generalize text.toList = chars, f.terms = ts at hsentence
  cases hsentence with
  | mk _ _ _ => exact ⟨_, _, rfl⟩

/-- **What is written is read back**: the canonical spelling of a well-formed formula denotes its
terms, and is kept as it stands. -/
theorem Formula.WellFormed.parse_canonical {f : Formula} (h : f.WellFormed) :
    Formula.parse f.canonical = .ok ⟨f.canonical, f.terms⟩ := by
  obtain ⟨t, others, hterms⟩ := h.first_plus
  have hvalid := h.valid
  rw [hterms] at hvalid
  obtain ⟨ht, hothers⟩ := List.forall_mem_cons.mp hvalid
  have hchars : f.canonical.toList = spellTerms f.terms := String.toList_ofList
  have hsentence : Sentence f.canonical.toList f.terms := by
    rw [hchars, hterms]
    exact sentence_spellTerms ht hothers
  have hstrip : strip f.canonical = f.canonical := by
    rw [strip, hchars, trim_eq_self fun _ => isBlank_of_mem_spellTerms]
    rfl
  rw [Formula.parse_of_sentence hsentence h.dice_le, hstrip]

/-- **Writing and reading are inverse.** The canonical spelling of well-formed terms is read as
these terms, and is kept as it stands. So is that of a formula that was read from any text; and
two formulas that were read have one spelling exactly when they have the same terms. -/
theorem Formula.canonical_round_trip :
    (∀ f : Formula, f.WellFormed → Formula.parse f.canonical = .ok ⟨f.canonical, f.terms⟩) ∧
    (∀ text f, Formula.parse text = .ok f →
      ∃ g, Formula.parse f.canonical = .ok g ∧ g.terms = f.terms ∧ g.canonical = f.canonical) ∧
    (∀ text f text' f', Formula.parse text = .ok f → Formula.parse text' = .ok f' →
      (f.canonical = f'.canonical ↔ f.terms = f'.terms)) := by
  refine ⟨fun f h => h.parse_canonical, ?_, ?_⟩
  · intro text f h
    exact ⟨_, (WellFormed.of_parse h).parse_canonical, rfl, rfl⟩
  · intro text f text' f' h h'
    constructor
    · intro hcanonical
      have hread := (WellFormed.of_parse h).parse_canonical
      rw [hcanonical, (WellFormed.of_parse h').parse_canonical] at hread
      injection hread with hformula
      injection hformula with _ hterms
      exact hterms.symm
    · intro hterms
      rw [canonical, canonical, hterms]

/-- Two groups of as many dice as allowed use up the dice of a formula, and the largest number
may still follow; two texts for the same terms have one canonical spelling. -/
theorem Formula.canonical_round_trip_bounds :
    (∃ f : Formula, f.WellFormed ∧ f.canonical = "1000d4294967295-1000d2+4294967295" ∧
      Formula.parse f.canonical = .ok ⟨f.canonical, f.terms⟩) ∧
    ∃ f f', Formula.parse " 02D6\u2003+ 007" = .ok f ∧ Formula.parse "2d06 +7" = .ok f' ∧
      (∃ g, Formula.parse f.canonical = .ok g ∧ g.terms = f.terms ∧ g.canonical = f.canonical) ∧
      f.canonical = f'.canonical := by
  have hwellFormed : WellFormed ⟨"", [⟨.plus, .dice 1000 4294967295⟩, ⟨.minus, .dice 1000 2⟩,
      ⟨.plus, .constant 4294967295⟩]⟩ :=
    ⟨⟨_, _, rfl⟩, by simp [Term.Valid], by decide⟩
  have hparse : Formula.parse " 02D6\u2003+ 007" =
      .ok ⟨"02D6\u2003+ 007", [⟨.plus, .dice 2 6⟩, ⟨.plus, .constant 7⟩]⟩ := by
    decide +kernel
  have hparse' : Formula.parse "2d06 +7" =
      .ok ⟨"2d06 +7", [⟨.plus, .dice 2 6⟩, ⟨.plus, .constant 7⟩]⟩ := by
    decide +kernel
  obtain ⟨hwritten, hread, hspelling⟩ := Formula.canonical_round_trip
  exact ⟨⟨_, hwellFormed, by decide +kernel, hwritten _ hwellFormed⟩, _, _, hparse, hparse',
    hread _ _ hparse, (hspelling _ _ _ _ hparse hparse').mpr rfl⟩

end Tabletop
