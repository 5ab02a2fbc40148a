import Tabletop.Proofs.Formula.FaultPosition
import Tabletop.Proofs.Formula.Surroundings

/-!
# Two Formulas Around a Sign

Two texts that are read as formulas can be joined by a sign. The joined text is read as the terms
of the first and then those of the second, of which the leading one takes the sign in between; the
blanks around either make no difference. The only thing that can go wrong is the number of dice,
since the two formulas now share **one budget**.

Where the budget does not suffice, the reading stops at the first term with which it is exceeded.
`Grammar.Overruns` says which term that is without any reference to the reading: it is cut out of
the second formula by what is in front of it, a `Grammar.Lead`. A lead stays one when a formula and
a sign are put in front of it, so the fault of a joined text is that of a single formula
(`Formula.parse_of_excess`), further to the right.

## Main definitions

* `leadWith`: the terms of a formula behind a sign.
* `Grammar.Lead`: the part of a formula in front of one of its terms.
* `Grammar.Overruns`: the first term with which the dice of a formula are too many.

## Main results

* `Grammar.Sentence.join`: two formulas around a sign are one.
* `Grammar.Sentence.exists_overruns`: a formula with too many dice has a first term with which they
  are.
* `Formula.parse_of_excess`: such a term is blamed.
* `Formula.parse_join`: what becomes of two formulas around a sign.
-/

open Tabletop.Text

namespace Tabletop

/-- The terms of a formula **behind a sign**: the leading one takes the sign, in place of its
own. -/
def leadWith (sign : Sign) : List SignedTerm → List SignedTerm
  | [] => []
  | t :: ts => ⟨sign, t.term⟩ :: ts

/-- A sign takes no dice. -/
@[simp]
theorem diceOf_leadWith (sign : Sign) (ts : List SignedTerm) :
    diceOf (leadWith sign ts) = diceOf ts := by
  cases ts <;> rfl

/-- A sign is one byte wide. -/
theorem utf8Size_symbol (sign : Sign) : sign.symbol.utf8Size = 1 := by
  cases sign <;> rfl

namespace Grammar

/-- `Lead text ts sign`: the text is what stands **in front of a term** of a formula. It denotes the
signed terms `ts`, and the term behind it has the sign `sign`. -/
inductive Lead : List Char → List SignedTerm → Sign → Prop
  | first {u : List Char} : Blanks u → Lead u [] .plus
  | next {text v : List Char} {ts : List SignedTerm} {sign : Sign} :
      Sentence text ts → Blanks v → Lead (text ++ sign.symbol :: v) ts sign

/-- `Overruns dice text ts before w`: where `dice` dice have been counted already, `w` is the
**first term** of the formula `text` with which there are more than 2000, and it stands behind the
text `before`. The formula denotes `ts`. -/
inductive Overruns (dice : Nat) :
    List Char → List SignedTerm → List Char → List Char → Prop
  | mk {before w after : List Char} {t : SignedTerm} {ts us : List SignedTerm} :
      Lead before ts t.sign → TermText w t.term → Continuation after us →
      dice + diceOf ts ≤ 2000 → 2000 < dice + diceOf ts + t.term.diceCount →
      Overruns dice (before ++ (w ++ after)) (ts ++ t :: us) before w

/-! ### Formulas behind a sign -/

/-- A formula **behind a sign** continues a formula. -/
theorem Sentence.behind {text : List Char} {ts : List SignedTerm} (h : Sentence text ts)
    (sign : Sign) : Continuation (sign.symbol :: text) (leadWith sign ts) := by
  cases h with
  | mk hu hw htext => exact .more blanks_nil hu hw htext

/-- Two formulas **around a sign** are a formula. -/
theorem Sentence.join {one other : List Char} {ts us : List SignedTerm} (hone : Sentence one ts)
    (hother : Sentence other us) (sign : Sign) :
    Sentence (one ++ sign.symbol :: other) (ts ++ leadWith sign us) :=
  hone.append (hother.behind sign)

/-- With a formula and a sign **in front of it**, what stands in front of a term of a formula stands
in front of a term of both. -/
theorem Lead.join {one before : List Char} {ts us : List SignedTerm} {sign' : Sign}
    (hone : Sentence one ts) (h : Lead before us sign') (sign : Sign) :
    ∃ sign'', Lead (one ++ sign.symbol :: before) (ts ++ leadWith sign us) sign'' := by
  cases h with
  | first hu =>
      rw [leadWith, List.append_nil]
      exact ⟨sign, .next hone hu⟩
  | @next text v us sign' htext hv =>
      have hlead : Lead (one ++ sign.symbol :: text ++ sign'.symbol :: v)
          (ts ++ leadWith sign us) sign' := .next (hone.join htext sign) hv
      rw [List.append_assoc, List.cons_append] at hlead
      exact ⟨sign', hlead⟩

/-! ### The first term too many -/

/-- A continuation with which the dice are too many has **a first term** with which they are. -/
theorem Continuation.exists_overruns {dice : Nat} {text : List Char} {ts : List SignedTerm}
    (h : Continuation text ts) :
    ∀ {front : List Char} {fs : List SignedTerm}, Sentence front fs → dice + diceOf fs ≤ 2000 →
      2000 < dice + diceOf (fs ++ ts) →
        ∃ before w, Overruns dice (front ++ text) (fs ++ ts) before w := by
  induction h with
  | done _ =>
      intro front fs _ hle hlt
      rw [List.append_nil] at hlt
      omega
  | @more u v w text sign t ts hu hv hw htext ih =>
      intro front fs hfront hle hlt
      have hlead : Sentence (front ++ u) fs := by
        have hsentence := hfront.append (.done hu)
        rwa [List.append_nil] at hsentence
      by_cases hterm : 2000 < dice + diceOf fs + t.diceCount
      · have hoverruns := Overruns.mk (.next hlead hv) hw htext hle hterm (t := ⟨sign, t⟩)
        simp only [List.append_assoc, List.cons_append] at hoverruns
        exact ⟨_, _, hoverruns⟩
      · have hmore :
            Sentence (front ++ (u ++ sign.symbol :: (v ++ (w ++ [])))) (fs ++ [⟨sign, t⟩]) :=
          hfront.append (.more hu hv hw (.done blanks_nil))
        obtain ⟨before, w', hoverruns⟩ := ih hmore (by simp; omega) (by simpa using hlt)
        exact ⟨before, w', by simpa using hoverruns⟩

/-- A formula with which the dice are too many has **a first term** with which they are. -/
theorem Sentence.exists_overruns {dice : Nat} {text : List Char} {ts : List SignedTerm}
    (h : Sentence text ts) (hle : dice ≤ 2000) (hlt : 2000 < dice + diceOf ts) :
    ∃ before w, Overruns dice text ts before w := by
  cases h with
  | @mk u w text t ts hu hw htext =>
      by_cases hterm : 2000 < dice + t.diceCount
      · exact ⟨u, w, .mk (.first hu) hw htext (t := ⟨.plus, t⟩) hle hterm⟩
      · have hfirst : Sentence (u ++ (w ++ [])) [⟨.plus, t⟩] := .mk hu hw (.done blanks_nil)
        obtain ⟨before, w', hoverruns⟩ := htext.exists_overruns hfirst (by simp; omega) hlt
        exact ⟨before, w', by simpa using hoverruns⟩

end Grammar

open Grammar

/-! ### Readings -/

/-- Behind a sign, a term with which the dice are **too many** is refused. -/
theorem Scan.rounds_of_excess {s : Scan} {v w after : List Char} {sign : Sign} {t : Term}
    (hrest : s.rest = sign.symbol :: (v ++ (w ++ after))) (hv : Blanks v) (hw : TermText w t)
    (hstop : Stops isWordChar after) (hle : s.dice ≤ 2000) (hlt : 2000 < s.dice + t.diceCount) :
    s.rounds =
      .error ⟨.tooManyDice, s.position + byteSize (sign.symbol :: v), String.ofList w⟩ := by
  obtain ⟨hsign, hbehind⟩ := behindSign_eq (u := []) hrest blanks_nil hv (hw.stops_isBlank after)
  have hterm := term_of_excess
    (s := ⟨s.position + byteSize (sign.symbol :: v), w ++ after, s.dice⟩) rfl hw hstop hle hlt
  refine rounds_of_error ((round_of_sign hsign).trans ?_)
  rw [hbehind, List.nil_append, hterm]
  rfl

/-- The term of a formula with which the dice are **too many** is blamed, where it begins and as it
stands. -/
theorem Formula.parse_of_excess {text : String} {before w after : List Char} {t : Term}
    {ts us : List SignedTerm} {sign : Sign} (htext : text.toList = before ++ (w ++ after))
    (hbefore : Lead before ts sign) (hw : TermText w t) (hafter : Continuation after us)
    (hle : diceOf ts ≤ 2000) (hlt : 2000 < diceOf ts + t.diceCount) :
    Formula.parse text = .error ⟨.tooManyDice, byteSize before, String.ofList w⟩ := by
  cases hbefore with
  | first hu =>
      -- One term alone has no more than 1000 dice.
      have hvalid := hw.valid
      cases t with
      | dice count sides => exact absurd hvalid.2.1 (by simp [Term.diceCount] at hlt; omega)
      | constant value => simp [Term.diceCount] at hlt
  | @next front v ts sign hfront hv =>
      cases hfront with
      | @mk u w' rest t' ts hu hw' hrest =>
          have hmore : Continuation (sign.symbol :: (v ++ (w ++ after))) (⟨sign, t⟩ :: us) :=
            .more blanks_nil hv hw hafter
          have hfollow := hrest.append hmore
          simp only [List.append_assoc, List.cons_append] at htext
          rw [diceOf_cons] at hle hlt
          rw [Formula.parse_of_termText htext hu hw' hfollow.stops_isWordChar
              (Nat.le_of_add_right_le hle),
            Scan.rounds_append hrest hmore ⟨_, _, t'.diceCount⟩ rfl hle,
            Scan.rounds_of_excess rfl hv hw hafter.stops_isWordChar hle hlt]
          simp [Except.map, Nat.add_assoc]

/-! ### Joined texts -/

/-- **Reading goes through joining**. If the dice of two formulas suffice for one, the texts around
a sign are read as the terms of both, the second ones behind the sign. If they do not, some term of
the second is the first with which they are too many, and it is blamed where it stands in the joined
text. -/
theorem Formula.parse_join {one other : String} {f g : Formula} (hone : Formula.parse one = .ok f)
    (hother : Formula.parse other = .ok g) (sign : Sign) :
    (diceOf f.terms + diceOf g.terms ≤ 2000 →
      ∃ joined, Formula.parse (one ++ String.singleton sign.symbol ++ other) = .ok joined ∧
        joined.terms = f.terms ++ leadWith sign g.terms) ∧
    (2000 < diceOf f.terms + diceOf g.terms →
      (∃ before w, Overruns (diceOf f.terms) other.toList g.terms before w) ∧
      ∀ before w, Overruns (diceOf f.terms) other.toList g.terms before w →
        Formula.parse (one ++ String.singleton sign.symbol ++ other) =
          .error ⟨.tooManyDice, one.utf8ByteSize + 1 + byteSize before, String.ofList w⟩) := by
  obtain ⟨hone, hle, -⟩ := Formula.sentence_of_parse hone
  obtain ⟨hother, -, -⟩ := Formula.sentence_of_parse hother
  have htext : (one ++ String.singleton sign.symbol ++ other).toList =
      one.toList ++ sign.symbol :: other.toList := by simp
  refine ⟨?_, ?_⟩
  · intro hdice
    have hsentence := hone.join hother sign
    rw [← htext] at hsentence
    have hsum : diceOf (f.terms ++ leadWith sign g.terms) ≤ 2000 := by
      simpa using hdice
    exact ⟨_, Formula.parse_of_sentence hsentence hsum, rfl⟩
  · intro hdice
    refine ⟨hother.exists_overruns hle hdice, ?_⟩
    intro before w hoverruns
    generalize hchars : other.toList = chars, g.terms = terms at hoverruns
    cases hoverruns with
    | mk hbefore hw hafter hle hlt =>
        obtain ⟨sign', hlead⟩ := hbefore.join hone sign
        rw [hchars] at htext
        rw [Formula.parse_of_excess (htext.trans (by simp)) hlead hw hafter
          (by simpa using hle) (by simpa using hlt),
          byteSize_append, byteSize_cons, byteSize_toList, utf8Size_symbol, Nat.add_assoc]

/-- Of `1d4 + 1000d2`, with 1000 dice in front of it, `1d4` still fits and `1000d2` does not: it
stands at byte 6 of its own text, and at byte 13 of the joined one. -/
theorem Formula.parse_join_budget :
    (∃ joined, Formula.parse "2d6 - 3 + 1d4" = .ok joined ∧
      joined.terms = [⟨.plus, .dice 2 6⟩, ⟨.minus, .constant 3⟩, ⟨.plus, .dice 1 4⟩]) ∧
    Formula.parse "1000d6-1d4 + 1000d2" = .error ⟨.tooManyDice, 13, "1000d2"⟩ := by
  have hnumeral : Numeral "1000".toList 1000 :=
    numeral_iff.mpr ⟨by decide, List.all_eq_true.mp (by decide), by decide⟩
  have hfront : Formula.parse "1d4 " = .ok ⟨"1d4", [⟨.plus, .dice 1 4⟩]⟩ := by decide +kernel
  have hlead : Lead ("1d4 ".toList ++ Sign.plus.symbol :: [' ']) [⟨.plus, .dice 1 4⟩] .plus :=
    .next (Formula.sentence_of_parse hfront).1 (List.forall_mem_singleton.mpr (by decide))
  have hterm : TermText ("1000".toList ++ 'd' :: ['2']) (.dice 1000 2) :=
    .dice hnumeral (by decide) (by decide) (.inl rfl) numeral_two (by decide) (by decide)
  have hoverruns : Overruns 1000 "1d4 + 1000d2".toList
      [⟨.plus, .dice 1 4⟩, ⟨.plus, .dice 1000 2⟩] "1d4 + ".toList "1000d2".toList :=
    .mk (t := ⟨.plus, .dice 1000 2⟩) hlead hterm (.done blanks_nil) (by decide) (by decide)
  refine ⟨?_, ?_⟩
  · have hone : Formula.parse "2d6 " = .ok ⟨"2d6", [⟨.plus, .dice 2 6⟩]⟩ := by decide +kernel
    have hother : Formula.parse " 3 + 1d4" =
        .ok ⟨"3 + 1d4", [⟨.plus, .constant 3⟩, ⟨.plus, .dice 1 4⟩]⟩ := by decide +kernel
    exact (Formula.parse_join hone hother .minus).1 (by decide)
  · have hone : Formula.parse "1000d6" = .ok ⟨"1000d6", [⟨.plus, .dice 1000 6⟩]⟩ := by
      decide +kernel
    have hother : Formula.parse "1d4 + 1000d2" =
        .ok ⟨"1d4 + 1000d2", [⟨.plus, .dice 1 4⟩, ⟨.plus, .dice 1000 2⟩]⟩ := by decide +kernel
    exact ((Formula.parse_join hone hother .minus).2 (by decide)).2 _ _ hoverruns

end Tabletop
