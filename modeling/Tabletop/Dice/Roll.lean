import Tabletop.Dice.Source
import Tabletop.Formula.Basic

/-!
# Rolls

Rolling a formula draws one face for each of its dice, term by term from left to right,
and no other faces. The outcome keeps every face: each term's **share** says what the term
showed, and the total is the sum of the signed shares.

A roll is abandoned at the first face that its source refuses; the faces drawn until then
are gone.

## Main definitions

* `Share`, `Roll`: what one term showed, and what the whole formula showed.
* `Formula.rollWith`, `Formula.roll`: rolling a formula, in any way of drawing faces and from a
  source.
* `Roll.display`: a roll on one line, such as `2d6+3 = 12 [4, 5] [3]`.
-/

namespace Tabletop

/-! ### Shares -/

/-- What one term of a rolled formula showed. -/
inductive Share where
  | dice (sign : Sign) (count sides : Nat) (faces : List Nat)
  | constant (sign : Sign) (value : Nat)
  deriving DecidableEq, Repr, Inhabited

namespace Share

/-- The values of the term before its sign is applied: its faces, or its one value. -/
def values : Share → List Nat
  | dice _ _ _ faces => faces
  | constant _ value => [value]

/-- The sign of the term. -/
def sign : Share → Sign
  | dice sign _ _ _ => sign
  | constant sign _ => sign

/-- What the term adds to the total. -/
def contribution (share : Share) : Int :=
  share.sign.apply (sumOf Int.ofNat share.values)

/-- The values between brackets. -/
def chars (share : Share) : List Char :=
  '[' :: List.intercalate [',', ' '] (share.values.map Text.numeral) ++ [']']

end Share

/-! ### Rolls -/

/-- The outcome of rolling a formula. -/
structure Roll where
  /-- The canonical spelling of the formula. -/
  expression : String
  /-- What each term showed, in the order of the formula. -/
  breakdown : List Share
  deriving DecidableEq, Repr, Inhabited

namespace Roll

/-- The **total**: the sum of what the terms contribute. -/
def total (r : Roll) : Int :=
  sumOf Share.contribution r.breakdown

/-- The roll on one line: formula, total, and the values of each term. -/
def chars (r : Roll) : List Char :=
  r.expression.toList ++ " = ".toList ++ Text.intNumeral r.total ++
    ' ' :: List.intercalate [' '] (r.breakdown.map Share.chars)

/-- The roll on one line, as a string. -/
def display (r : Roll) : String :=
  String.ofList r.chars

end Roll

/-! ### Rolling -/

section Rolling

variable {ε σ : Type} (draw : Draw ε σ)

/-- Rolls one term. -/
def SignedTerm.rollWith (t : SignedTerm) (s : σ) : Drawn ε σ Share :=
  match t.term with
  | .constant value => (.ok (.constant t.sign value), s)
  | .dice count sides =>
    (draw.many sides count s).andThen fun faces s => (.ok (.dice t.sign count sides faces), s)

/-- Rolls terms one after another, up to the first face that is refused. -/
def rollTermsWith : List SignedTerm → σ → Drawn ε σ (List Share)
  | [], s => (.ok [], s)
  | t :: terms, s =>
    (t.rollWith draw s).andThen fun share s =>
      (rollTermsWith terms s).andThen fun shares s => (.ok (share :: shares), s)

/-- Rolls a formula with faces that are drawn in the given way. -/
def Formula.rollWith (f : Formula) (s : σ) : Drawn ε σ Roll :=
  (rollTermsWith draw f.terms s).andThen fun shares s => (.ok ⟨f.canonical, shares⟩, s)

end Rolling

/-- Rolls a formula with the faces of a source. -/
def Formula.roll (f : Formula) (source : Source) : Except BadFace Roll × Source :=
  f.rollWith Source.draw source

/-- A roll on one line. -/
example : Roll.chars ⟨"2d6+3", [.dice .plus 2 6 [4, 5], .constant .plus 3]⟩ =
    "2d6+3 = 12 [4, 5] [3]".toList := by
  decide

end Tabletop
