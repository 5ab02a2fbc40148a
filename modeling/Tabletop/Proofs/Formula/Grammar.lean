import Mathlib.Data.List.DropRight
import Tabletop.Formula.Reader
import Tabletop.Proofs.Text.Runs

/-!
# The Grammar of Formulas

What a formula looks like, said without any reference to how it is read. With `W` for a
blank, `O` for a plus or minus sign and `T` for a term,

* a **formula** is `W* T (W* O W* T)* W*`;
* a **term** `T` is a numeral, or two numerals around a `d` of either case with nothing in
  between;
* a **numeral** is a non-empty run of ASCII digits, read in base ten with any number of
  leading zeros.

Every production carries what it denotes and the bounds of the numbers in it. The bound on
the dice of a whole formula is not a production: it is stated beside the grammar.

## Main definitions

* `Grammar.Numeral`, `Grammar.TermText`: the numerals and the terms.
* `Grammar.Continuation`: `(W* O W* T)* W*`, what follows the first term.
* `Grammar.Sentence`: the formulas.
* `Grammar.Trimmed`: a text and what is left of it without its surrounding blanks.

## Main results

* `Grammar.numeral_iff`: the numerals are the non-empty runs of digits, and their value is
  the one that `Text.numeralValue` works out.
* `Grammar.TermText.valid`: the terms of the grammar are within the bounds.
* `Grammar.Continuation.stops_isWordChar`: what follows a term cannot be taken for a part of it.
* `Grammar.Continuation.append`, `Grammar.Sentence.append`: what follows a formula continues it.
-/

open Tabletop.Text

namespace Tabletop

/-- The characters of `w` are all **blank**. -/
def Blanks (w : List Char) : Prop :=
  ∀ c ∈ w, isBlank c = true

/-- The number of dice that the terms roll together. -/
def diceOf (ts : List SignedTerm) : Nat :=
  countOf (fun t => t.term.diceCount) ts

/-- The bounds on the numbers of a term. -/
def Term.Valid : Term → Prop
  | .dice count sides => 1 ≤ count ∧ count ≤ 1000 ∧ 2 ≤ sides ∧ sides ≤ 4294967295
  | .constant value => value ≤ 4294967295

namespace Grammar

/-! ### The productions -/

/-- `Numeral digits n`: the digits denote `n` in base ten. -/
inductive Numeral : List Char → Nat → Prop
  | digit {c : Char} : c.isDigit = true → Numeral [c] (c.toNat - '0'.toNat)
  | snoc {digits : List Char} {n : Nat} {c : Char} :
      Numeral digits n → c.isDigit = true →
      Numeral (digits ++ [c]) (10 * n + (c.toNat - '0'.toNat))

/-- `TermText w t`: the text `w` is a term and denotes `t`. -/
inductive TermText : List Char → Term → Prop
  | constant {digits : List Char} {value : Nat} :
      Numeral digits value → value ≤ 4294967295 → TermText digits (.constant value)
  | dice {countDigits sidesDigits : List Char} {count sides : Nat} {mark : Char} :
      Numeral countDigits count → 1 ≤ count → count ≤ 1000 →
      mark = 'd' ∨ mark = 'D' →
      Numeral sidesDigits sides → 2 ≤ sides → sides ≤ 4294967295 →
      TermText (countDigits ++ mark :: sidesDigits) (.dice count sides)

/-- `Continuation text ts`: the text is `(W* O W* T)* W*` and denotes the signed terms
`ts`, each with the sign in front of it. -/
inductive Continuation : List Char → List SignedTerm → Prop
  | done {w : List Char} : Blanks w → Continuation w []
  | more {u v w text : List Char} {sign : Sign} {t : Term} {ts : List SignedTerm} :
      Blanks u → Blanks v → TermText w t → Continuation text ts →
      Continuation (u ++ sign.symbol :: (v ++ (w ++ text))) (⟨sign, t⟩ :: ts)

/-- `Sentence text ts`: the text is a **formula** and denotes the signed terms `ts`, of
which the first is positive. -/
inductive Sentence : List Char → List SignedTerm → Prop
  | mk {u w text : List Char} {t : Term} {ts : List SignedTerm} :
      Blanks u → TermText w t → Continuation text ts →
      Sentence (u ++ (w ++ text)) (⟨.plus, t⟩ :: ts)

/-- `Trimmed text core`: the text is `core` between blanks, and `core` neither begins nor
ends with a blank. -/
def Trimmed (text core : List Char) : Prop :=
  ∃ u v, Blanks u ∧ Blanks v ∧ text = u ++ core ++ v ∧
    Stops isBlank core ∧ Stops isBlank core.reverse

end Grammar

@[simp]
theorem diceOf_nil : diceOf [] = 0 :=
  rfl

@[simp]
theorem diceOf_cons (t : SignedTerm) (ts : List SignedTerm) :
    diceOf (t :: ts) = t.term.diceCount + diceOf ts :=
  rfl

/-- The dice of two lists of terms are rolled together. -/
@[simp]
theorem diceOf_append (ts us : List SignedTerm) : diceOf (ts ++ us) = diceOf ts + diceOf us := by
  induction ts with
  | nil => simp
  | cons t ts ih => rw [List.cons_append, diceOf_cons, diceOf_cons, ih, Nat.add_assoc]

/-! ### Classes of characters -/

/-- No digit is blank. -/
theorem isBlank_eq_false_of_isDigit {c : Char} (h : c.isDigit = true) : isBlank c = false := by
  have hdigit : 48 ≤ c.toNat ∧ c.toNat ≤ 57 := by
    simpa [Char.isDigit, UInt32.le_iff_toNat_le] using h
  simp only [isBlank, blankRanges, List.any_cons, List.any_nil, Bool.or_false,
    Bool.or_eq_false_iff, Bool.and_eq_false_iff, decide_eq_false_iff_not]
  omega

/-- No blank is a digit. -/
theorem isDigit_eq_false_of_isBlank {c : Char} (h : isBlank c = true) : c.isDigit = false := by
  rw [← Bool.not_eq_true]
  intro hc
  rw [isBlank_eq_false_of_isDigit hc] at h
  cases h

/-- A dice mark is a `d` of either case. -/
theorem isDiceMark_iff {c : Char} : Scan.isDiceMark c = true ↔ c = 'd' ∨ c = 'D' := by
  simp [Scan.isDiceMark]

/-- No dice mark is blank. -/
theorem isDiceMark_eq_false_of_isBlank {c : Char} (h : isBlank c = true) :
    Scan.isDiceMark c = false := by
  rw [← Bool.not_eq_true, isDiceMark_iff]
  rintro (rfl | rfl) <;> exact absurd h (by decide)

/-- No dice mark is a digit. -/
theorem isDigit_eq_false_of_isDiceMark {c : Char} (h : Scan.isDiceMark c = true) :
    c.isDigit = false := by
  obtain rfl | rfl := isDiceMark_iff.mp h <;> rfl

/-- A sign is not blank. -/
theorem isBlank_symbol (sign : Sign) : isBlank sign.symbol = false := by
  cases sign <;> rfl

/-- A sign is not a digit. -/
theorem isDigit_symbol (sign : Sign) : sign.symbol.isDigit = false := by
  cases sign <;> rfl

/-- A sign is not a dice mark. -/
theorem isDiceMark_symbol (sign : Sign) : Scan.isDiceMark sign.symbol = false := by
  cases sign <;> rfl

/-- The characters that stand for a sign are the two symbols. -/
theorem Sign.ofSymbol?_eq_some_iff {c : Char} {sign : Sign} :
    Sign.ofSymbol? c = some sign ↔ c = sign.symbol := by
  constructor
  · intro h
    rw [Sign.ofSymbol?] at h
    split at h
    · cases h
      assumption
    · split at h
      · cases h
        assumption
      · cases h
  · rintro rfl
    exact Sign.ofSymbol?_symbol sign

/-! ### Runs of characters -/

/-- What ends a word: the end of the text, a blank or a sign. -/
theorem stops_isWordChar_iff {text : List Char} :
    Stops Scan.isWordChar text ↔
      ∀ c ∈ text.head?, isBlank c = true ∨ c = '+' ∨ c = '-' := by
  refine forall₂_congr fun c _ => ?_
  by_cases hplus : c = '+'
  · simp [Scan.isWordChar, Sign.ofSymbol?, hplus]
  · by_cases hminus : c = '-' <;> simp [Scan.isWordChar, Sign.ofSymbol?, hplus, hminus]

/-- What ends a word ends every run in which blanks and signs **have no place**. -/
theorem Stops.of_isWordChar {text : List Char} (h : Stops Scan.isWordChar text) {p : Char → Bool}
    (hblank : ∀ c, isBlank c = true → p c = false) (hsign : ∀ sign : Sign, p sign.symbol = false) :
    Stops p text := by
  intro c hc
  rcases stops_isWordChar_iff.mp h c hc with hc | rfl | rfl
  · exact hblank c hc
  · exact hsign .plus
  · exact hsign .minus

/-- What ends a word ends a run of digits. -/
theorem Stops.isDigit {text : List Char} (h : Stops Scan.isWordChar text) :
    Stops Char.isDigit text :=
  h.of_isWordChar (fun _ => isDigit_eq_false_of_isBlank) isDigit_symbol

/-- What ends a word does not begin with a dice mark. -/
theorem Stops.isDiceMark {text : List Char} (h : Stops Scan.isWordChar text) :
    Stops Scan.isDiceMark text :=
  h.of_isWordChar (fun _ => isDiceMark_eq_false_of_isBlank) isDiceMark_symbol

/-- No characters are blank ones. -/
@[simp]
theorem blanks_nil : Blanks [] := by
  intro c hc
  cases hc

/-- Blanks behind blanks are blanks. -/
theorem Blanks.append {u v : List Char} (hu : Blanks u) (hv : Blanks v) : Blanks (u ++ v) := by
  intro c hc
  exact (List.mem_append.mp hc).elim (hu c) (hv c)

/-- Blanks end a word. -/
theorem Blanks.stops_isWordChar {w : List Char} (h : Blanks w) : Stops Scan.isWordChar w := by
  intro c hc
  simp [Scan.isWordChar, h c (List.mem_of_mem_head? hc)]

namespace Grammar

/-! ### Numerals -/

/-- Reading one more digit on the right. -/
theorem numeralValue_concat (digits : List Char) (c : Char) :
    numeralValue (digits ++ [c]) = 10 * numeralValue digits + (c.toNat - '0'.toNat) := by
  simp [numeralValue, Nat.ofDigitChars_append, Nat.ofDigitChars_cons]

/-- The numerals are the **non-empty runs of digits**, with the value that the reading of
numerals works out. -/
theorem numeral_iff {digits : List Char} {n : Nat} :
    Numeral digits n ↔
      digits ≠ [] ∧ (∀ c ∈ digits, c.isDigit = true) ∧ numeralValue digits = n := by
  constructor
  · intro h
    induction h with
    | digit hc => simp [hc, numeralValue, Nat.ofDigitChars_cons]
    | snoc _ hc ih =>
        obtain ⟨-, hall, hvalue⟩ := ih
        refine ⟨by simp, ?_, by rw [numeralValue_concat, hvalue]⟩
        intro c' hc'
        rcases List.mem_append.mp hc' with h' | h'
        · exact hall c' h'
        · rw [List.mem_singleton.mp h']
          exact hc
  · rintro ⟨hne, hall, rfl⟩
    induction digits using List.reverseRecOn with
    | nil => exact absurd rfl hne
    | append_singleton digits c ih =>
        have hc : c.isDigit = true := hall c (by simp)
        rcases eq_or_ne digits [] with rfl | hdigits
        · have h : Numeral [c] (c.toNat - '0'.toNat) := .digit hc
          simpa [numeralValue, Nat.ofDigitChars_cons] using h
        · rw [numeralValue_concat]
          exact .snoc (ih hdigits fun c' h' => hall c' (by simp [h'])) hc

/-- A numeral has **a digit**. -/
theorem Numeral.ne_nil {digits : List Char} {n : Nat} (h : Numeral digits n) : digits ≠ [] :=
  (numeral_iff.mp h).1

/-- A numeral has digits **only**. -/
theorem Numeral.isDigit {digits : List Char} {n : Nat} (h : Numeral digits n) :
    ∀ c ∈ digits, c.isDigit = true :=
  (numeral_iff.mp h).2.1

/-- A numeral denotes **the value of its digits**. -/
theorem Numeral.value {digits : List Char} {n : Nat} (h : Numeral digits n) :
    numeralValue digits = n :=
  (numeral_iff.mp h).2.2

/-- A numeral begins with a digit, so no blank stands in front of it. -/
theorem Numeral.stops_isBlank {digits : List Char} {n : Nat} (h : Numeral digits n)
    (text : List Char) : Stops isBlank (digits ++ text) := by
  cases digits with
  | nil => exact absurd rfl h.ne_nil
  | cons c digits =>
      exact stops_cons.mpr (isBlank_eq_false_of_isDigit (h.isDigit c (by simp)))

/-- The numeral that any good beginning can be finished with. -/
theorem numeral_two : Numeral ['2'] 2 :=
  .digit rfl

/-! ### Terms -/

/-- The terms of the grammar are within the **bounds**. -/
theorem TermText.valid {w : List Char} {t : Term} (h : TermText w t) : t.Valid := by
  cases h with
  | constant _ hvalue => exact hvalue
  | dice _ hpos hcount _ _ htwo hsides => exact ⟨hpos, hcount, htwo, hsides⟩

/-- A term begins with a digit, so no blank stands in front of it. -/
theorem TermText.stops_isBlank {w : List Char} {t : Term} (h : TermText w t)
    (text : List Char) : Stops isBlank (w ++ text) := by
  cases h with
  | constant hdigits _ => exact hdigits.stops_isBlank text
  | dice hcount _ _ _ _ _ _ =>
      rw [List.append_assoc]
      exact hcount.stops_isBlank _

/-- A term is not empty. -/
theorem TermText.ne_nil {w : List Char} {t : Term} (h : TermText w t) : w ≠ [] := by
  cases h with
  | constant hdigits _ => exact hdigits.ne_nil
  | dice _ _ _ _ _ _ _ => simp

/-! ### Continuations -/

/-- A continuation ends a word: it is empty, or begins with a blank or a sign. So **nothing in it
can be taken for a part of the term in front of it**. -/
theorem Continuation.stops_isWordChar {text : List Char} {ts : List SignedTerm}
    (h : Continuation text ts) : Stops Scan.isWordChar text := by
  cases h with
  | done hw => exact hw.stops_isWordChar
  | more hu _ _ _ => exact hu.stops_isWordChar.append (stops_cons.mpr (by simp [Scan.isWordChar]))

/-- Blanks may stand in front of a continuation. -/
theorem Continuation.blanks_append {u text : List Char} {ts : List SignedTerm} (hu : Blanks u)
    (h : Continuation text ts) : Continuation (u ++ text) ts := by
  cases h with
  | done hw => exact .done (hu.append hw)
  | more hu' hv hw htext =>
      rw [← List.append_assoc]
      exact .more (hu.append hu') hv hw htext

/-- A continuation behind another is one, and denotes the terms of **both**. -/
theorem Continuation.append {text more : List Char} {ts us : List SignedTerm}
    (h : Continuation text ts) (hmore : Continuation more us) :
    Continuation (text ++ more) (ts ++ us) := by
  induction h with
  | done hw => exact hmore.blanks_append hw
  | more hu hv hw _ ih =>
      simp only [List.append_assoc, List.cons_append]
      exact .more hu hv hw ih

/-- A continuation behind a formula makes **a formula** of both. -/
theorem Sentence.append {text more : List Char} {ts us : List SignedTerm}
    (h : Sentence text ts) (hmore : Continuation more us) :
    Sentence (text ++ more) (ts ++ us) := by
  cases h with
  | mk hu hw htext =>
      simp only [List.append_assoc, List.cons_append]
      exact .mk hu hw (htext.append hmore)

/-! ### Trimming -/

/-- Blanks around a text that begins and ends with something else are what trimming
removes. -/
theorem Trimmed.eq_trim {text core : List Char} (h : Trimmed text core) : core = trim text := by
  obtain ⟨u, v, hu, hv, rfl, hfront, hback⟩ := h
  have hv' : ∀ c ∈ v.reverse, isBlank c = true := fun c hc => hv c (List.mem_reverse.mp hc)
  rcases eq_or_ne core [] with rfl | hne
  · have hall : Blanks (u ++ [] ++ v) := by
      rw [List.append_nil]
      exact hu.append hv
    rw [trim, dropBlanks, List.dropWhile_eq_nil_iff.mpr hall]
    rfl
  · have hstop : Stops isBlank (core ++ v) := hfront.append_of_ne_nil hne v
    rw [trim, dropBlanks, List.append_assoc, dropWhile_append_of_stops hu hstop, dropEndBlanks,
      List.reverse_append, dropWhile_append_of_stops hv' hback, List.reverse_reverse]

/-- Trimming removes blanks only, and leaves none at either end. -/
theorem trimmed_trim (text : List Char) : Trimmed text (trim text) := by
  have hend : trim text ++ (dropBlanks text).rtakeWhile isBlank = dropBlanks text :=
    List.rdropWhile_append_rtakeWhile
  refine ⟨text.takeWhile isBlank, (dropBlanks text).rtakeWhile isBlank,
    fun _ => List.mem_takeWhile_imp, fun _ => List.mem_rtakeWhile_imp, ?_, ?_, ?_⟩
  · rw [List.append_assoc, hend]
    exact List.takeWhile_append_dropWhile.symm
  · have hstop : Stops isBlank (dropBlanks text) := stops_dropWhile isBlank text
    rw [← hend] at hstop
    generalize trim text = core at hstop ⊢
    cases core with
    | nil => exact stops_nil _
    | cons c core => exact stops_cons.mpr (stops_cons.mp hstop)
  · have hstop := stops_dropWhile isBlank (dropBlanks text).reverse
    rwa [trim, dropEndBlanks, List.reverse_reverse]

/-- A text has **one** trimmed form. -/
theorem trimmed_iff {text core : List Char} : Trimmed text core ↔ core = trim text :=
  ⟨Trimmed.eq_trim, fun h => h ▸ trimmed_trim text⟩

end Grammar

end Tabletop
