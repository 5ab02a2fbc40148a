import Mathlib.Tactic.SplitIfs
import Tabletop.Json.Lexeme
import Tabletop.Json.Writer
import Tabletop.Proofs.Text.Runs

/-!
# Written Numbers

A numeral is read up to the first character that cannot be a part of it. So a number that is read
back from its own text is read back from every text that begins with it, where something else
comes after it. **Integers are read back** whenever they fit into 64 bits. Of floats this is not
true in general, because a numeral is not read exactly.

## Main definitions

* `Json.isNumeralChar`: the characters that a numeral may go on with.
* `Number.Fits`, `Number.ReadsBack`: numbers that a numeral may denote, and those that the text
  written for them denotes.

## Main results

* `Json.readNumeral_append`: what comes after a numeral makes no difference.
* `Number.fits_of_value?`: what a numeral denotes fits into 64 bits.
* `Number.Fits.readsBack`: integers that do are read back.
-/

open Tabletop.Text

namespace Tabletop

namespace Json

variable {text after rest digits : List Char} {numeral : Numeral}

/-! ### Numerals and what comes after them -/

/-- A character that a numeral **may go on with**. -/
def isNumeralChar (c : Char) : Bool :=
  c.isDigit || c == '.' || c == 'e' || c == 'E'

/-- Where no character of a numeral comes next, **no digit** does. -/
theorem stops_isDigit (h : Stops isNumeralChar rest) : Stops Char.isDigit rest := by
  intro c hc
  have hchar := h c hc
  simp only [isNumeralChar, Bool.or_eq_false_iff] at hchar
  exact hchar.1.1.1

/-- Digits are read alike **with more text behind it**, where that does not go on with a numeral. -/
theorem readDigits_append (h : Stops isNumeralChar rest)
    (hread : readDigits text = some (digits, after)) :
    readDigits (text ++ rest) = some (digits, after ++ rest) := by
  simp only [readDigits] at hread ⊢
  rw [takeWhile_append (stops_isDigit h), dropWhile_append (stops_isDigit h)]
  split at hread
  · cases hread
  · rename_i hne
    cases hread
    rw [if_neg hne]

/-- So is the whole part of a numeral. -/
theorem readWhole_append (h : Stops isNumeralChar rest)
    (hread : readWhole text = some (digits, after)) :
    readWhole (text ++ rest) = some (digits, after ++ rest) := by
  obtain ⟨⟨found, left⟩, hdigits, hzero⟩ := Option.bind_eq_some_iff.mp hread
  rw [readWhole, readDigits_append h hdigits]
  dsimp only [Option.bind_eq_bind, Option.bind_some] at hzero ⊢
  split at hzero
  · cases hzero
  · rename_i hlead
    cases hzero
    rw [if_neg hlead]

/-- So is its fraction, which might otherwise begin in the text behind it. -/
theorem readFraction_append {fraction : Option (List Char)} (h : Stops isNumeralChar rest)
    (hread : readFraction text = some (fraction, after)) :
    readFraction (text ++ rest) = some (fraction, after ++ rest) := by
  unfold readFraction at hread
  split at hread
  · obtain ⟨⟨found, left⟩, hdigits, heq⟩ := Option.map_eq_some_iff.mp hread
    cases heq
    rw [List.cons_append, readFraction, readDigits_append h hdigits]
    rfl
  · rename_i hpoint
    cases hread
    have hnext : ∀ more, text ++ rest ≠ '.' :: more := by
      intro more heq
      cases text with
      | nil =>
          rw [List.nil_append] at heq
          exact absurd (stops_cons.mp (heq ▸ h)) (by decide)
      | cons c text => exact hpoint text (by rw [(List.cons.inj heq).1])
    rw [readFraction]
    exact hnext

/-- So is a power of ten. -/
theorem readPower_append {power : Int} (h : Stops isNumeralChar rest)
    (hread : readPower text = some (power, after)) :
    readPower (text ++ rest) = some (power, after ++ rest) := by
  unfold readPower at hread
  split at hread
  · obtain ⟨⟨found, left⟩, hdigits, heq⟩ := Option.map_eq_some_iff.mp hread
    cases heq
    rw [List.cons_append, readPower, readDigits_append h hdigits]
    rfl
  · obtain ⟨⟨found, left⟩, hdigits, heq⟩ := Option.map_eq_some_iff.mp hread
    cases heq
    rw [List.cons_append, readPower, readDigits_append h hdigits]
    rfl
  · rename_i hplus hminus
    obtain ⟨⟨found, left⟩, hdigits, heq⟩ := Option.map_eq_some_iff.mp hread
    cases heq
    cases text with
    | nil => cases hdigits
    | cons c text =>
        rw [readPower, readDigits_append h hdigits]
        · rfl
        · exact fun more heq => hplus text (by rw [(List.cons.inj heq).1])
        · exact fun more heq => hminus text (by rw [(List.cons.inj heq).1])

/-- So is an exponent, which might begin in the text behind it as well. -/
theorem readExponent_append {exponent : Option Int} (h : Stops isNumeralChar rest)
    (hread : readExponent text = some (exponent, after)) :
    readExponent (text ++ rest) = some (exponent, after ++ rest) := by
  cases text with
  | nil =>
      cases hread
      cases rest with
      | nil => rfl
      | cons c rest =>
          have hc : ¬ (c = 'e' ∨ c = 'E') := by
            rintro (rfl | rfl) <;> exact absurd (stops_cons.mp h) (by decide)
          exact if_neg hc
  | cons c text =>
      rw [readExponent] at hread
      rw [List.cons_append, readExponent]
      split at hread
      · rename_i hc
        obtain ⟨⟨found, left⟩, hpower, heq⟩ := Option.map_eq_some_iff.mp hread
        cases heq
        rw [if_pos hc, readPower_append h hpower]
        rfl
      · rename_i hc
        cases hread
        rw [if_neg hc]
        rfl

/-- So is the numeral **as a whole**, apart from its sign. -/
theorem readUnsigned_append {negative : Bool} (h : Stops isNumeralChar rest)
    (hread : readUnsigned negative text = some (numeral, after)) :
    readUnsigned negative (text ++ rest) = some (numeral, after ++ rest) := by
  obtain ⟨⟨whole, left⟩, hwhole, hread⟩ := Option.bind_eq_some_iff.mp hread
  obtain ⟨⟨fraction, left⟩, hfraction, hread⟩ := Option.bind_eq_some_iff.mp hread
  obtain ⟨⟨exponent, left⟩, hexponent, hread⟩ := Option.bind_eq_some_iff.mp hread
  cases hread
  simp only [readUnsigned, readWhole_append h hwhole, readFraction_append h hfraction,
    readExponent_append h hexponent, Option.bind_eq_bind, Option.bind_some]
  rfl

/-- A numeral is read **whatever comes after it**, if that is no part of it. -/
theorem readNumeral_append (h : Stops isNumeralChar rest)
    (hread : readNumeral text = some (numeral, after)) :
    readNumeral (text ++ rest) = some (numeral, after ++ rest) := by
  unfold readNumeral at hread
  split at hread
  · exact readUnsigned_append h hread
  · rename_i hminus
    cases text with
    | nil => cases hread
    | cons c text =>
        rw [readNumeral]
        · exact readUnsigned_append h hread
        · exact fun more heq => hminus text (by rw [(List.cons.inj heq).1])

/-- A numeral begins with a minus sign or a digit, and so **with no other character**. -/
theorem readNumeral_head (hread : readNumeral text = some (numeral, after)) :
    ∃ c tail, text = c :: tail ∧ ∀ d : Char, d ≠ '-' → d.isDigit = false → c ≠ d := by
  unfold readNumeral at hread
  split at hread
  · exact ⟨'-', _, rfl, fun d hminus _ => hminus.symm⟩
  · obtain ⟨⟨whole, left⟩, hwhole, -⟩ := Option.bind_eq_some_iff.mp hread
    obtain ⟨⟨found, left⟩, hdigits, -⟩ := Option.bind_eq_some_iff.mp hwhole
    cases text with
    | nil => cases hdigits
    | cons c text =>
        refine ⟨c, text, rfl, ?_⟩
        rintro d - hdigit rfl
        simp [readDigits, hdigit] at hdigits

end Json

/-! ### Integers -/

/-- The number fits into **64 bits**, if it is an integer. -/
def Number.Fits : Number → Prop
  | .integer value => fitsSigned value = true ∨ (0 ≤ value ∧ value ≤ maxUnsigned)
  | .float _ => True

/-- What is written for the number **denotes it**. -/
def Number.ReadsBack (n : Number) : Prop :=
  ∃ numeral, Json.readNumeral n.chars = some (numeral, []) ∧ numeral.value? = some n

/-- What a numeral denotes **fits** into 64 bits. -/
theorem Number.fits_of_value? {numeral : Json.Numeral} {n : Number}
    (h : numeral.value? = some n) : n.Fits := by
  rw [Json.Numeral.value?] at h
  split at h
  · rename_i value hinteger
    cases h
    simp only [Json.Numeral.integer?] at hinteger
    split_ifs at hinteger with hfloat hsign hneg hpos
    · cases hinteger
      exact .inl hneg.2
    · cases hinteger
      exact .inr ⟨Int.natCast_nonneg _, Int.ofNat_le.mpr hpos⟩
  · obtain ⟨x, -, rfl⟩ := Option.map_eq_some_iff.mp h
    trivial

/-- No zero stands **in front** of other digits. -/
theorem head?_numeral (n : Nat) : ¬ ((numeral n).head? = some '0' ∧ (numeral n).length > 1) := by
  induction n using Nat.strongRecOn with
  | ind n ih =>
      by_cases hsmall : n < 10
      · rw [numeral, Nat.toDigits_of_lt_base hsmall]
        exact fun h => absurd h.2 (Nat.lt_irrefl 1)
      · have hlarge : 10 ≤ n := Nat.not_lt.mp hsmall
        have hsplit : numeral n = numeral (n / 10) ++ [(n % 10).digitChar] :=
          Nat.toDigits_of_base_le (by decide) hlarge
        have hfront := ih (n / 10) (Nat.div_lt_self (by omega) (by decide))
        have hvalue : numeralValue (numeral (n / 10)) = n / 10 := numeralValue_numeral _
        rintro ⟨hhead, -⟩
        rw [hsplit] at hhead
        -- In front of the last digit stands a number that is not zero.
        match hdigits : numeral (n / 10) with
        | [] => exact Nat.toDigits_ne_nil hdigits
        | [c] =>
            rw [hdigits] at hhead hvalue
            cases hhead
            have hzero : n / 10 = 0 := hvalue.symm
            omega
        | c :: d :: digits =>
            rw [hdigits] at hhead hfront
            exact hfront ⟨hhead, Nat.succ_lt_succ (Nat.succ_pos _)⟩

/-- The digits that are written for a number **are read** as its numeral. -/
theorem readUnsigned_numeral (negative : Bool) (n : Nat) :
    Json.readUnsigned negative (numeral n) = some (⟨negative, numeral n, none, none⟩, []) := by
  have hdigits : ∀ c ∈ numeral n, c.isDigit = true := fun c hc =>
    Nat.isDigit_of_mem_toDigits (by decide) (by decide) hc
  have htake : (numeral n).takeWhile Char.isDigit = numeral n := by
    simpa using takeWhile_append_of_stops hdigits (stops_nil _)
  have hdrop : (numeral n).dropWhile Char.isDigit = [] := by
    simpa using dropWhile_append_of_stops hdigits (stops_nil _)
  have hread : Json.readDigits (numeral n) = some (numeral n, []) := by
    rw [Json.readDigits, htake, hdrop, if_neg]
    rw [List.isEmpty_iff]
    exact Nat.toDigits_ne_nil
  have hwhole : Json.readWhole (numeral n) = some (numeral n, []) := by
    rw [Json.readWhole, hread]
    exact if_neg (head?_numeral n)
  rw [Json.readUnsigned, hwhole]
  rfl

/-- What is written for a number does not begin with a minus sign. -/
theorem numeral_ne_minus (n : Nat) (rest : List Char) : numeral n ≠ '-' :: rest := by
  intro heq
  have hmem : '-' ∈ numeral n := heq ▸ List.mem_cons_self
  exact absurd (Nat.isDigit_of_mem_toDigits (by decide) (by decide) hmem) (by decide)

/-- Integers that fit into 64 bits **are read back**. -/
theorem Number.Fits.readsBack {value : Int} (h : (Number.integer value).Fits) :
    (Number.integer value).ReadsBack := by
  cases value with
  | ofNat n =>
      have hle : n ≤ maxUnsigned := by
        rcases h with hsigned | ⟨-, hle⟩
        · have hle : Int.ofNat n ≤ maxSigned := by
            simp only [fitsSigned, Bool.and_eq_true, decide_eq_true_eq] at hsigned
            exact hsigned.2
          have hmax : maxSigned ≤ Int.ofNat maxUnsigned := by decide
          exact Int.ofNat_le.mp (Int.le_trans hle hmax)
        · exact Int.ofNat_le.mp hle
      refine ⟨⟨false, numeral n, none, none⟩, ?_, ?_⟩
      · rw [Number.chars, intNumeral, Json.readNumeral]
        · exact readUnsigned_numeral false n
        · exact numeral_ne_minus n
      · have hinteger : Json.Numeral.integer? ⟨false, numeral n, none, none⟩ = some (n : Int) := by
          simp only [Json.Numeral.integer?, numeralValue_numeral]
          exact if_pos hle
        rw [Json.Numeral.value?, hinteger]
        rfl
  | negSucc n =>
      have hsigned : fitsSigned (Int.negSucc n) = true :=
        h.resolve_right fun hunsigned => absurd hunsigned.1 (by omega)
      refine ⟨⟨true, numeral (n + 1), none, none⟩, ?_, ?_⟩
      · rw [Number.chars, intNumeral, Json.readNumeral]
        exact readUnsigned_numeral true (n + 1)
      · have hinteger : Json.Numeral.integer? ⟨true, numeral (n + 1), none, none⟩ =
            some (Int.negSucc n) := by
          have hvalue : -((n : Int) + 1) = Int.negSucc n := (Int.negSucc_eq n).symm
          simp [Json.Numeral.integer?, numeralValue_numeral, hvalue, hsigned]
        rw [Json.Numeral.value?, hinteger]

/-- Some floats are read back, such as one half. -/
example : (Number.float ⟨false, Nat.pow 2 1073⟩).ReadsBack :=
  ⟨⟨false, ['0'], some ['5'], none⟩, by decide +kernel, by decide +kernel⟩

/-- Others are written with digits that are read as a neighbour. -/
example :
    ((Json.readNumeral "1E-25".toList).bind fun n => n.1.value?).map Number.chars =
        some "9.999999999999999e-26".toList ∧
      ((Json.readNumeral "9.999999999999999e-26".toList).bind fun n => n.1.value?).map
        Number.chars = some "1e-25".toList := by
  decide +kernel

end Tabletop
