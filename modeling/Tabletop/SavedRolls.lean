import Tabletop.Formula.Reader
import Tabletop.Lists.Keyed

/-!
# Saved Rolls

Formulas kept under names. A name begins with an ASCII letter or digit and goes on with
letters, digits, underscores, points and hyphens, so it can stand in a path as it is. Names
are compared exactly, and the last formula saved under a name is the one that counts.

The rolls are kept in ascending order of their names, code point by code point, which is
the order of the UTF-8 bytes too.

## Main definitions

* `isRollName`: whether a text may be a name.
* `SavedRolls`: the saved rolls; `save`, `resolve`, `toList`, `size`.
* `SavedRollError`: why a roll is not saved or not found.
-/

namespace Tabletop

/-! ### Names -/

/-- A character that may stand in a name after the first. -/
def isRollNameChar (c : Char) : Bool :=
  c.isAlphanum || c == '_' || c == '.' || c == '-'

/-- Whether a text may be the name of a saved roll. -/
def isRollName (name : String) : Bool :=
  match name.toList with
  | [] => false
  | first :: others => first.isAlphanum && others.all isRollNameChar

/-! ### Errors -/

/-- Why a roll is not saved, or not found. -/
inductive SavedRollError where
  /-- The text may not be a name. -/
  | invalidName (name : String)
  /-- There is a fault in the formula. -/
  | invalidExpression (name : String) (fault : Fault)
  /-- No roll is saved under the name. -/
  | notFound (name : String)
  deriving DecidableEq, Repr, Inhabited

/-- The error in words. -/
def SavedRollError.message : SavedRollError → String
  | invalidName name => "invalid saved roll name: '" ++ name ++ "'"
  | invalidExpression name fault =>
    "invalid expression for saved roll '" ++ name ++ "': " ++ fault.message
  | notFound name => "saved roll not found: " ++ name

/-! ### The saved rolls -/

/-- A formula under its name. -/
structure SavedRoll where
  /-- The name. -/
  name : String
  /-- The formula. -/
  formula : Formula
  deriving DecidableEq, Repr, Inhabited

/-- The formulas saved so far. -/
structure SavedRolls where
  /-- The saved rolls in ascending order of their names. -/
  toList : List SavedRoll
  deriving DecidableEq, Repr, Inhabited

namespace SavedRolls

/-- No rolls. -/
def empty : SavedRolls :=
  ⟨[]⟩

/-- Saves the formula that a text denotes. The name is checked before the formula. -/
def save (rolls : SavedRolls) (name text : String) :
    Except SavedRollError (SavedRoll × SavedRolls) :=
  if isRollName name then
    match Formula.parse text with
    | .error fault => .error (.invalidExpression name fault)
    | .ok formula => .ok (⟨name, formula⟩, ⟨setKey SavedRoll.name ⟨name, formula⟩ rolls.toList⟩)
  else .error (.invalidName name)

/-- The formula saved under a name, if there is one. -/
def find? (rolls : SavedRolls) (name : String) : Option Formula :=
  (rolls.toList.find? fun roll => roll.name == name).map SavedRoll.formula

/-- The formula saved under a name. -/
def resolve (rolls : SavedRolls) (name : String) : Except SavedRollError Formula :=
  match rolls.find? name with
  | some formula => .ok formula
  | none => .error (.notFound name)

/-- The number of saved rolls. -/
def size (rolls : SavedRolls) : Nat :=
  rolls.toList.length

/-- Whether no rolls are saved. -/
def isEmpty (rolls : SavedRolls) : Bool :=
  rolls.toList.isEmpty

end SavedRolls

end Tabletop
