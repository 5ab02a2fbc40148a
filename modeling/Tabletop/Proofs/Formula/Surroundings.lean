import Tabletop.Proofs.Formula.Acceptance

/-!
# Blanks Around a Formula

Whether a text is a formula, and which, **does not depend on the blanks around it**. Reading skips
blanks in its own way, and what is kept as the source is stripped in another; this module shows by
the grammar that the two ways agree. What reading keeps of a text is therefore read as the same
formula again.

## Main results

* `Grammar.sentence_trim_iff`: a text is a formula of the grammar just when its trimmed form is,
  and both denote the same.
* `Formula.parse_strip`: a text and its stripped form are read as the same formula.
* `Formula.parse_source`: the source of a formula is read as this formula.
-/

open Tabletop.Text

namespace Tabletop

namespace Grammar

variable {text core u v w : List Char} {t : Term} {ts : List SignedTerm}

/-- Blanks may stand **around a formula**. -/
theorem Sentence.surround (h : Sentence core ts) (hu : Blanks u) (hv : Blanks v) :
    Sentence (u ++ core ++ v) ts := by
  cases h with
  | mk hu' hw htext =>
      have hsentence := Sentence.mk (hu.append hu') hw (htext.append (.done hv))
      simpa only [List.append_assoc, List.append_nil] using hsentence

/-- A text ends as **its last part** does, if that has characters. -/
theorem stops_reverse_append (front : List Char) (hw : Stops isBlank w.reverse) (hne : w ≠ []) :
    Stops isBlank (front ++ w).reverse := by
  rw [List.reverse_append]
  exact hw.append_of_ne_nil (mt List.reverse_eq_nil_iff.mp hne) front.reverse

/-- A numeral ends in a digit, so no blank stands at its end. -/
theorem Numeral.stops_reverse {digits : List Char} {n : Nat} (h : Numeral digits n) :
    Stops isBlank digits.reverse := by
  intro c hc
  exact isBlank_eq_false_of_isDigit
    (h.isDigit c (List.mem_reverse.mp (List.mem_of_mem_head? hc)))

/-- A term ends in a numeral, so no blank stands at its end. -/
theorem TermText.stops_reverse (h : TermText w t) : Stops isBlank w.reverse := by
  cases h with
  | constant hvalue _ => exact hvalue.stops_reverse
  | @dice countDigits _ _ _ mark _ _ _ _ hsides _ _ =>
      have hstops := stops_reverse_append (countDigits ++ [mark]) hsides.stops_reverse hsides.ne_nil
      rwa [List.append_assoc] at hstops

/-- A term and what follows it end in no blank, if what follows does not. -/
theorem TermText.stops_reverse_append (hw : TermText w t) (hcore : Stops isBlank core.reverse) :
    Stops isBlank (w ++ core).reverse := by
  rcases eq_or_ne core [] with rfl | hne
  · rw [List.append_nil]
    exact hw.stops_reverse
  · exact Grammar.stops_reverse_append w hcore hne

/-- A continuation is one **without blanks at its end**, and blanks. -/
theorem Continuation.exists_core (h : Continuation text ts) :
    ∃ core v, text = core ++ v ∧ Blanks v ∧ Continuation core ts ∧ Stops isBlank core.reverse := by
  induction h with
  | done hw => exact ⟨[], _, rfl, hw, .done blanks_nil, stops_nil _⟩
  | @more u v w text sign t ts hu hv hw _ ih =>
      obtain ⟨core, last, rfl, hlast, hcore, hstops⟩ := ih
      refine ⟨u ++ sign.symbol :: (v ++ (w ++ core)), last, ?_, hlast, .more hu hv hw hcore, ?_⟩
      · simp only [List.append_assoc, List.cons_append]
      · have hterm := Grammar.stops_reverse_append (u ++ sign.symbol :: v)
          (hw.stops_reverse_append hstops) (by simp [hw.ne_nil])
        simpa only [List.append_assoc, List.cons_append] using hterm

/-- A formula is one **without blanks around it**, between blanks. -/
theorem Sentence.exists_trimmed (h : Sentence text ts) :
    ∃ core, Trimmed text core ∧ Sentence core ts := by
  cases h with
  | @mk u w text t ts hu hw htext =>
      obtain ⟨core, v, rfl, hv, hcore, hstops⟩ := htext.exists_core
      refine ⟨w ++ core, ⟨u, v, hu, hv, ?_, hw.stops_isBlank core,
        hw.stops_reverse_append hstops⟩, .mk blanks_nil hw hcore⟩
      simp only [List.append_assoc]

/-- **Blanks around a text do not matter** to the grammar. -/
theorem sentence_trim_iff : Sentence (trim text) ts ↔ Sentence text ts := by
  constructor
  · intro h
    obtain ⟨u, v, hu, hv, htext, -⟩ := trimmed_trim text
    rw [htext]
    exact h.surround hu hv
  · intro h
    obtain ⟨core, htrimmed, hcore⟩ := h.exists_trimmed
    rwa [← trimmed_iff.mp htrimmed]

end Grammar

/-- Stripping a second time changes nothing. -/
theorem strip_strip (text : String) : strip (strip text) = strip text := by
  obtain ⟨-, -, -, -, -, hfront, hback⟩ := Grammar.trimmed_trim text.toList
  have htrimmed : Grammar.Trimmed (trim text.toList) (trim text.toList) :=
    ⟨[], [], blanks_nil, blanks_nil, by simp, hfront, hback⟩
  rw [strip, toList_strip, ← Grammar.trimmed_iff.mp htrimmed, strip]

/-- A text and **its stripped form** are read as the same formula. -/
theorem Formula.parse_strip {text : String} {f : Formula} :
    Formula.parse (strip text) = .ok f ↔ Formula.parse text = .ok f := by
  have hread : ∀ {one other : String}, strip one = strip other →
      (∀ ts, Grammar.Sentence one.toList ts → Grammar.Sentence other.toList ts) →
      Formula.parse one = .ok f → Formula.parse other = .ok f := by
    intro one other hstrip hsentence h
    obtain ⟨hone, hdice, hsource⟩ := Formula.sentence_of_parse h
    rw [Formula.parse_of_sentence (hsentence _ hone) hdice, ← hstrip, ← hsource]
  constructor
  · refine hread (strip_strip text) fun ts h => ?_
    rw [toList_strip] at h
    exact Grammar.sentence_trim_iff.mp h
  · refine hread (strip_strip text).symm fun ts h => ?_
    rw [toList_strip]
    exact Grammar.sentence_trim_iff.mpr h

/-- What reading keeps of a text **is read again** as the same formula. -/
theorem Formula.parse_source {text : String} {f : Formula} (h : Formula.parse text = .ok f) :
    Formula.parse f.source = .ok f := by
  obtain ⟨-, -, hsource⟩ := Formula.sentence_of_parse h
  rw [hsource]
  exact Formula.parse_strip.mpr h

end Tabletop
