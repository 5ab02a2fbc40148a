/-!
# Faults in Formulas

What can be wrong with the text of a formula. A fault says what **kind** of thing is wrong,
at which byte of the text it begins, and which part of the text is to blame.

## Main definitions

* `Fault.Kind`, `Fault`.
* `Fault.Kind.name`: the stable identifier of a kind.
* `Fault.message`: the fault in words.
-/

namespace Tabletop

/-- What kind of thing is wrong with a formula. -/
inductive Fault.Kind where
  /-- The text is blank. -/
  | emptyInput
  /-- A term is neither a group of dice nor a constant, or holds too large a number. -/
  | malformedTerm
  /-- A group has no dice. -/
  | nonPositiveCount
  /-- A die has fewer than two sides. -/
  | invalidSides
  /-- Something other than a sign follows a term. -/
  | trailingGarbage
  /-- A term or the whole formula rolls more dice than allowed. -/
  | tooManyDice
  deriving DecidableEq, Repr, Inhabited

namespace Fault.Kind

/-- The identifier of the kind. -/
def name : Kind → String
  | emptyInput => "empty_input"
  | malformedTerm => "malformed_term"
  | nonPositiveCount => "non_positive_count"
  | invalidSides => "invalid_sides"
  | trailingGarbage => "trailing_garbage"
  | tooManyDice => "too_many_dice"

/-- The kind in words. -/
def text : Kind → String
  | emptyInput => "empty dice expression"
  | malformedTerm => "malformed term"
  | nonPositiveCount => "dice count must be at least 1"
  | invalidSides => "dice must have at least 2 sides"
  | trailingGarbage => "unexpected input"
  | tooManyDice => "too many dice"

end Fault.Kind

/-- A fault in the text of a formula. -/
structure Fault where
  /-- What is wrong. -/
  kind : Fault.Kind
  /-- The number of bytes in front of the fault. -/
  position : Nat
  /-- The part of the text, from `position` on, that is to blame. -/
  fragment : String
  deriving DecidableEq, Repr, Inhabited

/-- The fault in words: its kind, its position, and the fragment between quotes as it is. -/
def Fault.message (f : Fault) : String :=
  f.kind.text ++ " at position " ++ toString f.position ++ ": '" ++ f.fragment ++ "'"

end Tabletop
