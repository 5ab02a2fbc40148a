import Tabletop.Number.Bounds
import Tabletop.Number.Sum
import Tabletop.Text.Numeral

/-!
# Dice Formulas

A formula is a sum of **terms**, each a group of equal dice such as `2d6` or a constant
such as `3`, joined by plus and minus signs. It remembers the text it was read from and
has one canonical spelling: a lower-case `d`, no blanks, no leading zeros.

A die with `s` sides shows each face from `1` to `s` equally often, so the totals of a
formula range from `min` to `max`, and their mean lies halfway between the two. Means are
kept doubled, so that all arithmetic stays in the integers.

## Main definitions

* `Sign`, `Term`, `SignedTerm`, `Formula`.
* `Formula.canonical`: the canonical spelling.
* `Formula.min`, `Formula.max`, `Formula.average`: the lowest and the highest total, and
  the mean total rounded down.
-/

namespace Tabletop

/-- The most dice that one term may roll. -/
def maxDicePerTerm : Nat := 1000

/-- The most dice that one formula may roll. -/
def maxDicePerFormula : Nat := 2000

/-- The largest number that may stand in a formula. -/
def maxNumeral : Nat := wordRange - 1

/-! ### Signs -/

/-- Whether a term is added to the total or taken from it. -/
inductive Sign where
  | plus
  | minus
  deriving DecidableEq, Repr, Inhabited

namespace Sign

/-- The character that stands for the sign in a formula. -/
def symbol : Sign → Char
  | plus => '+'
  | minus => '-'

/-- The sign that a character stands for. -/
def ofSymbol? (c : Char) : Option Sign :=
  if c = '+' then some plus else if c = '-' then some minus else none

/-- The value with this sign in front. -/
def apply : Sign → Int → Int
  | plus, value => value
  | minus, value => -value

/-- The character of a sign stands for **this sign**. -/
@[simp]
theorem ofSymbol?_symbol (sign : Sign) : ofSymbol? sign.symbol = some sign := by
  cases sign <;> rfl

end Sign

/-! ### Terms -/

/-- One unsigned summand of a formula: `count` dice with `sides` sides each, or a constant. -/
inductive Term where
  | dice (count sides : Nat)
  | constant (value : Nat)
  deriving DecidableEq, Repr, Inhabited

namespace Term

/-- The number of dice that the term rolls. -/
def diceCount : Term → Nat
  | dice count _ => count
  | constant _ => 0

/-- The lowest value of the term. -/
def min : Term → Int
  | dice count _ => count
  | constant value => value

/-- The highest value of the term. -/
def max : Term → Int
  | dice count sides => count * sides
  | constant value => value

/-- **Twice** the mean value of the term. A die with `s` sides has the mean `(1 + s) / 2`. -/
def doubledMean : Term → Int
  | dice count sides => count * (1 + sides)
  | constant value => 2 * value

/-- The canonical spelling of the term. -/
def chars : Term → List Char
  | dice count sides => Text.numeral count ++ 'd' :: Text.numeral sides
  | constant value => Text.numeral value

end Term

/-- A term with the sign in front of it. -/
structure SignedTerm where
  /-- Whether the term is added or taken away. -/
  sign : Sign
  /-- The summand itself. -/
  term : Term
  deriving DecidableEq, Repr, Inhabited

namespace SignedTerm

/-- The lowest contribution of the term to the total. -/
def min (t : SignedTerm) : Int :=
  match t.sign with
  | .plus => t.term.min
  | .minus => -t.term.max

/-- The highest contribution of the term to the total. -/
def max (t : SignedTerm) : Int :=
  match t.sign with
  | .plus => t.term.max
  | .minus => -t.term.min

/-- Twice the mean contribution of the term to the total. -/
def doubledMean (t : SignedTerm) : Int :=
  t.sign.apply t.term.doubledMean

/-- The spelling of a term inside a formula: its sign, then the term. -/
def chars (t : SignedTerm) : List Char :=
  t.sign.symbol :: t.term.chars

end SignedTerm

/-! ### Formulas -/

/-- The canonical spelling of a sum: the first term is written without its sign. -/
def spellTerms : List SignedTerm → List Char
  | [] => []
  | first :: others => first.term.chars ++ others.flatMap SignedTerm.chars

/-- A dice formula: its terms in order, and the text that they were read from. -/
structure Formula where
  /-- The text of the formula as it was given, without surrounding blanks. -/
  source : String
  /-- The terms in the order of the text. -/
  terms : List SignedTerm
  deriving DecidableEq, Repr, Inhabited

namespace Formula

/-- The canonical spelling of the formula. -/
def canonical (f : Formula) : String :=
  String.ofList (spellTerms f.terms)

/-- The lowest total of the formula. -/
def min (f : Formula) : Int :=
  sumOf SignedTerm.min f.terms

/-- The highest total of the formula. -/
def max (f : Formula) : Int :=
  sumOf SignedTerm.max f.terms

/-- The mean total of the formula, **rounded down**. The divisor is positive, so the integer
quotient is the floor of the exact one, below zero too. -/
def average (f : Formula) : Int :=
  sumOf SignedTerm.doubledMean f.terms / 2

/-- The mean of `1 - 2d2` is `-2`, that of `0 - 1d2` is `-3/2`. -/
example : average ⟨"", [⟨.plus, .constant 0⟩, ⟨.minus, .dice 1 2⟩]⟩ = -2 := rfl

end Formula

end Tabletop
