/-!
# Decimal Numerals

Numbers as runs of ASCII digits. A numeral is read in base ten, with any number of leading
zeros; a number is written without leading zeros, and zero as a single `0`.

## Main definitions

* `numeral`, `intNumeral`: the digits of a number; an integer has a minus sign in front if
  it is negative.
* `numeralValue`: the number that a run of digits denotes.
* `parseNumeral?`: the value of a text that is one non-empty run of digits.

## Main results

* `numeralValue_numeral`: reading what was written gives the number back.
-/

namespace Tabletop.Text

/-- The decimal digits of a number, without leading zeros. -/
def numeral (n : Nat) : List Char :=
  Nat.toDigits 10 n

/-- The number that a run of decimal digits denotes. -/
def numeralValue (digits : List Char) : Nat :=
  Nat.ofDigitChars 10 digits 0

/-- The decimal digits of an integer, after a minus sign if it is negative. -/
def intNumeral : Int → List Char
  | .ofNat n => numeral n
  | .negSucc n => '-' :: numeral (n + 1)

/-- The number that the whole text denotes, if it is a non-empty run of digits. -/
def parseNumeral? (text : List Char) : Option Nat :=
  if !text.isEmpty && text.all Char.isDigit then some (numeralValue text) else none

/-- The numeral of a number **denotes** this number. -/
@[simp]
theorem numeralValue_numeral (n : Nat) : numeralValue (numeral n) = n :=
  Nat.ofDigitChars_toDigits (by decide) (by decide)

end Tabletop.Text
