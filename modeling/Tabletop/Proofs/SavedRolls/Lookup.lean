import Mathlib.Logic.Function.Basic
import Tabletop.Proofs.SavedRolls.Reachable

/-!
# Looking Up Saved Rolls

To whoever asks by name, the saved rolls are a **function** from names to formulas, and saving sets
it at one name. That needs nothing of the order in which the rolls are kept.

## Main results

* `SavedRolls.find?_of_save`: what is found after a roll was saved.
-/

namespace Tabletop.SavedRolls

/-- **Saving sets one name** to the formula of the text, and no other name. -/
theorem find?_of_save {rolls next : SavedRolls} {name text : String} {roll : SavedRoll}
    (h : rolls.save name text = .ok (roll, next)) :
    next.find? = Function.update rolls.find? name (some roll.formula) := by
  obtain ⟨-, rfl, -, hnext⟩ := save_eq_ok h
  funext other
  rw [find?, hnext, find?_setKey]
  by_cases hother : other = roll.name
  · rw [if_pos hother, hother, Function.update_self]
    rfl
  · rw [if_neg hother, Function.update_of_ne hother]
    rfl

/-- What was saved is what the name **resolves** to. -/
theorem resolve_of_save {rolls next : SavedRolls} {name text : String} {roll : SavedRoll}
    (h : rolls.save name text = .ok (roll, next)) : next.resolve name = .ok roll.formula := by
  rw [resolve, find?_of_save h, Function.update_self]

end Tabletop.SavedRolls
