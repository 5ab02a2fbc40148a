import Tabletop.Proofs.Formula.Scanning

/-!
# What Is Read as a Formula

The texts that `Formula.parse` accepts are the formulas of the grammar whose dice stay
within the bound, and the outcome is what the grammar says: the terms in order with their
signs, and the text without its surrounding blanks.

Both directions go along the reading. A reading that succeeds leaves a derivation behind,
one round for each signed term (`Scan.continuation_of_rounds`); and a derivation tells the
reading what to do, since nothing that may follow a term can be taken for a part of it
(`Scan.rounds_append`). The bound on the dice is carried along as the number of
dice that the state has counted.

## Main results

* `Scan.continuation_of_rounds`, `Scan.rounds_append`: what a reading has read, and what it does
  behind a continuation.
* `Formula.parse_of_nil`, `Formula.parse_of_ne_nil`: what becomes of a text, by what becomes of its
  first term.
* `Formula.parse_cases`: what can become of a text.
* `Formula.sentence_of_parse`, `Formula.parse_of_sentence`: the two directions.
* `Formula.parse_accepts_grammar`: the two packaged as an equivalence.
* `Formula.valid_of_parse`: every term that is read is within its bounds.
-/

open Tabletop.Text Tabletop.Grammar

namespace Tabletop

/-! ### Readings and continuations -/

/-- A reading that succeeds has read a **continuation**, and its dice stay within the bound. -/
theorem Scan.continuation_of_rounds {s : Scan} {ts : List SignedTerm} (h : s.rounds = .ok ts) :
    Continuation s.rest ts ∧ (s.dice ≤ 2000 → s.dice + diceOf ts ≤ 2000) := by
  induction s using Scan.rounds.induct generalizing ts with
  | case1 s e hround =>
      rw [rounds_of_error hround] at h
      cases h
  | case2 s hround =>
      rw [rounds_of_none hround] at h
      cases h
      exact ⟨.done (round_eq_none_iff.mp hround), id⟩
  | case3 s t next hround e hnext _ =>
      rw [rounds_of_some hround, hnext] at h
      cases h
  | case4 s t next hround others hnext ih =>
      rw [rounds_of_some hround, hnext] at h
      cases h
      obtain ⟨htext, hdice⟩ := ih hnext
      obtain ⟨u, v, w, m, hu, hv, hsign, hm, hterm⟩ := round_eq_some hround
      refine ⟨?_, ?_⟩
      · have hrest : s.rest = u ++ t.sign.symbol :: (v ++ (w ++ next.rest)) := by
          rw [hsign.rest_eq, hterm.rest_eq, List.append_assoc]
          rfl
        rw [hrest]
        exact .more hu hv hterm.termText htext
      · intro hle
        have hnext_le := hdice (hterm.dice_le (hm ▸ hle))
        rw [hterm.dice_eq, hm] at hnext_le
        rw [diceOf_cons]
        omega

/-- A reading that comes **behind a continuation** whose dice stay within the bound goes on with
what follows it. -/
theorem Scan.rounds_append {text more : List Char} {ts us : List SignedTerm}
    (h : Continuation text ts) (hmore : Continuation more us) :
    ∀ s : Scan, s.rest = text ++ more → s.dice + diceOf ts ≤ 2000 →
      s.rounds = (rounds ⟨s.position + byteSize text, more, s.dice + diceOf ts⟩).map (ts ++ ·) := by
  induction h with
  | done hw =>
      intro s hrest _
      rw [rounds_of_blanks hrest hw]
      cases hrounds : rounds ⟨s.position + byteSize _, more, s.dice⟩ <;> simp [hrounds, Except.map]
  | @more u v w text sign t ts hu hv hw htext ih =>
      intro s hrest hdice
      have hfollow := htext.append hmore
      simp only [List.append_assoc, List.cons_append] at hrest
      rw [diceOf_cons] at hdice
      obtain ⟨next, hround, hreads, hnext, hcount⟩ := round_of_termText hrest hu hv hw
        hfollow.stops_isWordChar (by dsimp only at hdice; omega)
      have hposition : next.position + byteSize text =
          s.position + byteSize (u ++ sign.symbol :: (v ++ (w ++ text))) := by
        rw [hreads.position_eq]
        simp [Nat.add_assoc]
      have hsum : next.dice + diceOf ts = s.dice + diceOf (⟨sign, t⟩ :: ts) := by
        rw [hcount, diceOf_cons, Nat.add_assoc]
      rw [rounds_of_some hround, ih next hnext (by dsimp only at hdice; omega), hposition, hsum]
      cases rounds ⟨_, more, s.dice + diceOf (⟨sign, t⟩ :: ts)⟩ <;> rfl

/-- A **continuation** whose dice stay within the bound is read to its end. -/
theorem Scan.rounds_of_continuation {text : List Char} {ts : List SignedTerm}
    (h : Continuation text ts) (s : Scan) (hrest : s.rest = text)
    (hdice : s.dice + diceOf ts ≤ 2000) : s.rounds = .ok ts := by
  have hend : Continuation [] [] := .done blanks_nil
  rw [rounds_append h hend s (by rw [hrest, List.append_nil]) hdice,
    rounds_of_none (round_eq_none_iff.mpr blanks_nil)]
  exact congrArg Except.ok (List.append_nil ts)

/-! ### Formulas -/

/-- The state in which a reading comes to the **first term** of a text. -/
def Scan.atFirst (text : List Char) : Scan :=
  (start text).skip isBlank

section Parsing

variable {text : String}

/-- A text of blanks is refused. -/
theorem Formula.parse_of_nil (hrest : (Scan.atFirst text.toList).rest = []) :
    Formula.parse text = .error ⟨.emptyInput, 0, ""⟩ := by
  rw [Formula.parse, Formula.ofChars]
  exact if_pos (List.isEmpty_iff.mpr hrest)

/-- The reading of a text that is not blank begins with **its first term**. -/
theorem Formula.parse_of_ne_nil (hrest : (Scan.atFirst text.toList).rest ≠ []) :
    Formula.parse text = (Scan.atFirst text.toList).term.bind fun read =>
      read.2.rounds.map fun others => ⟨strip text, ⟨.plus, read.1⟩ :: others⟩ := by
  rw [Scan.atFirst] at hrest ⊢
  rw [Formula.parse, Formula.ofChars]
  refine (if_neg (mt List.isEmpty_iff.mp hrest)).trans ?_
  cases ((Scan.start text.toList).skip isBlank).term with
  | error e => rfl
  | ok read => cases hrounds : read.2.rounds <;> simp [Except.bind, Except.map, hrounds, strip]

/-- A text is refused **in its first term**. -/
theorem Formula.parse_of_error {e : Fault} (hrest : (Scan.atFirst text.toList).rest ≠ [])
    (hterm : (Scan.atFirst text.toList).term = .error e) : Formula.parse text = .error e := by
  rw [Formula.parse_of_ne_nil hrest, hterm]
  rfl

/-- **Behind the first term** of a text, the reading decides. -/
theorem Formula.parse_of_ok {first : Term} {next : Scan}
    (hrest : (Scan.atFirst text.toList).rest ≠ [])
    (hterm : (Scan.atFirst text.toList).term = .ok (first, next)) :
    Formula.parse text = next.rounds.map fun others => ⟨strip text, ⟨.plus, first⟩ :: others⟩ := by
  rw [Formula.parse_of_ne_nil hrest, hterm]
  rfl

/-- **What becomes of a text**: it is blank; or, behind the blanks at its start, it is refused in
its first term, refused behind it, or read. -/
theorem Formula.parse_cases (text : String) :
    Formula.parse text = .error ⟨.emptyInput, 0, ""⟩ ∨
    ∃ u s, Blanks u ∧ (Scan.start text.toList).Reads u s ∧ s.dice = 0 ∧
      ((∃ e, s.term = .error e ∧ Formula.parse text = .error e) ∨
        ∃ first next, s.term = .ok (first, next) ∧
          ((∃ e, next.rounds = .error e ∧ Formula.parse text = .error e) ∨
            ∃ others, next.rounds = .ok others ∧
              Formula.parse text = .ok ⟨strip text, ⟨.plus, first⟩ :: others⟩)) := by
  rcases eq_or_ne (Scan.atFirst text.toList).rest [] with hrest | hrest
  · exact .inl (Formula.parse_of_nil hrest)
  refine .inr ⟨_, _, Scan.blanks_run _, Scan.reads_skip isBlank (Scan.start text.toList), rfl, ?_⟩
  cases hterm : (Scan.atFirst text.toList).term with
  | error e => exact .inl ⟨e, hterm, Formula.parse_of_error hrest hterm⟩
  | ok read =>
      refine .inr ⟨read.1, read.2, hterm, ?_⟩
      have hparse := Formula.parse_of_ok hrest hterm
      cases hrounds : read.2.rounds with
      | error e =>
          rw [hrounds] at hparse
          exact .inl ⟨e, rfl, hparse⟩
      | ok others =>
          rw [hrounds] at hparse
          exact .inr ⟨others, rfl, hparse⟩

end Parsing

/-- A text that is read is a **formula of the grammar**, its dice stay within the bound, and
what is kept of it is the text without its surrounding blanks. -/
theorem Formula.sentence_of_parse {text : String} {f : Formula}
    (h : Formula.parse text = .ok f) :
    Sentence text.toList f.terms ∧ diceOf f.terms ≤ 2000 ∧ f.source = strip text := by
  rcases Formula.parse_cases text with hblank |
    ⟨u, s, hu, hreads, hzero, ⟨_, -, herror⟩ | ⟨first, next, hterm, ⟨_, -, herror⟩ |
      ⟨others, hrounds, hok⟩⟩⟩
  · rw [h] at hblank
    cases hblank
  · rw [h] at herror
    cases herror
  · rw [h] at herror
    cases herror
  · rw [h] at hok
    cases hok
    obtain ⟨w, hw⟩ := Scan.term_eq_ok hterm
    obtain ⟨htext, hdice⟩ := Scan.continuation_of_rounds hrounds
    refine ⟨?_, ?_, rfl⟩
    · have hrest : text.toList = u ++ (w ++ next.rest) := by
        rw [← hw.rest_eq]
        exact hreads.rest_eq
      rw [hrest]
      exact .mk hu hw.termText htext
    · have hle := hdice (hw.dice_le (by omega))
      rw [hw.dice_eq, hzero] at hle
      rwa [diceOf_cons, ← Nat.zero_add (Term.diceCount _)]

/-- A text that begins with a term of the grammar is read **from that term on**. -/
theorem Formula.parse_of_termText {text : String} {u w rest : List Char} {t : Term}
    (htext : text.toList = u ++ (w ++ rest)) (hu : Blanks u) (hw : TermText w t)
    (hstop : Stops Scan.isWordChar rest) (hdice : t.diceCount ≤ 2000) :
    Formula.parse text =
      (Scan.rounds ⟨byteSize (u ++ w), rest, t.diceCount⟩).map fun others =>
        ⟨strip text, ⟨.plus, t⟩ :: others⟩ := by
  have hfirst : Scan.atFirst text.toList = ⟨byteSize u, w ++ rest, 0⟩ := by
    rw [Scan.atFirst, htext, Scan.skip_eq rfl hu (hw.stops_isBlank rest)]
    simp [Scan.start]
  have hterm : (Scan.atFirst text.toList).term =
      .ok (t, ⟨byteSize (u ++ w), rest, t.diceCount⟩) := by
    rw [hfirst, Scan.term_of_termText rfl hw hstop (by simpa using hdice)]
    simp
  exact Formula.parse_of_ok (by simp [hfirst, hw.ne_nil]) hterm

/-- A **formula of the grammar** whose dice stay within the bound is read as what it denotes. -/
theorem Formula.parse_of_sentence {text : String} {ts : List SignedTerm}
    (h : Sentence text.toList ts) (hdice : diceOf ts ≤ 2000) :
    Formula.parse text = .ok ⟨strip text, ts⟩ := by
  generalize htext : text.toList = chars at h
  cases h with
  | @mk u w rest t ts hu hw hrest =>
      rw [diceOf_cons] at hdice
      dsimp only at hdice
      have hrounds := Scan.rounds_of_continuation hrest ⟨byteSize (u ++ w), rest, t.diceCount⟩ rfl
        hdice
      rw [Formula.parse_of_termText htext hu hw hrest.stops_isWordChar (by omega), hrounds]
      rfl

/-- **`Formula.parse` accepts exactly the grammar**: a text is read just when it is a formula
whose dice stay within the bound, and what it is read as are the terms that the grammar
gives it, beside the text without its surrounding blanks. -/
theorem Formula.parse_accepts_grammar (text : String) :
    ((∃ f, Formula.parse text = .ok f) ↔
      ∃ ts, Sentence text.toList ts ∧ diceOf ts ≤ 2000) ∧
    ∀ f, Formula.parse text = .ok f ↔
      Sentence text.toList f.terms ∧ diceOf f.terms ≤ 2000 ∧
        Trimmed text.toList f.source.toList := by
  have hiff : ∀ f, Formula.parse text = .ok f ↔
      Sentence text.toList f.terms ∧ diceOf f.terms ≤ 2000 ∧
        Trimmed text.toList f.source.toList := by
    intro f
    rw [trimmed_iff, ← toList_strip, String.toList_inj]
    constructor
    · exact Formula.sentence_of_parse
    · rintro ⟨hsentence, hdice, hsource⟩
      rw [Formula.parse_of_sentence hsentence hdice, ← hsource]
  refine ⟨⟨?_, ?_⟩, hiff⟩
  · rintro ⟨f, hf⟩
    obtain ⟨hsentence, hdice, -⟩ := (hiff f).mp hf
    exact ⟨f.terms, hsentence, hdice⟩
  · rintro ⟨ts, hsentence, hdice⟩
    exact ⟨_, Formula.parse_of_sentence hsentence hdice⟩

/-- Every term of a continuation is within its **bounds**. -/
theorem Grammar.Continuation.valid {text : List Char} {ts : List SignedTerm}
    (h : Continuation text ts) : ∀ t ∈ ts, t.term.Valid := by
  induction h with
  | done _ => exact List.forall_mem_nil _
  | more _ _ hw _ ih => exact List.forall_mem_cons.mpr ⟨hw.valid, ih⟩

/-- Every term of a formula that is read is within its **bounds**. -/
theorem Formula.valid_of_parse {text : String} {f : Formula}
    (h : Formula.parse text = .ok f) : ∀ t ∈ f.terms, t.term.Valid := by
  obtain ⟨hsentence, -, -⟩ := Formula.sentence_of_parse h
  generalize text.toList = chars, f.terms = ts at hsentence
  cases hsentence with
  | mk _ hw htext => exact List.forall_mem_cons.mpr ⟨hw.valid, htext.valid⟩

end Tabletop
