import Tabletop.Proofs.Lists.Keyed
import Tabletop.SavedRolls

/-!
# What Saved Rolls Hold

Rolls are saved one after another, and nothing else puts a formula under a name. So whatever is
found was read from some text, and has the bounds that reading sees to.

## Main definitions

* `SavedRolls.Reachable`: the saved rolls that saving leads to.

## Main results

* `SavedRolls.Reachable.parsed`: every saved formula was read from a text.
* `SavedRolls.Reachable.parsed_of_resolve`: so was every formula that is found under a name.
-/

namespace Tabletop

namespace SavedRolls

/-- The saved rolls that **saving leads to**, one after another and from none. -/
inductive Reachable : SavedRolls → Prop
  | empty : Reachable .empty
  | save {rolls next : SavedRolls} {name text : String} {roll : SavedRoll} :
      Reachable rolls → rolls.save name text = .ok (roll, next) → Reachable next

/-- What is saved was **read from the text**, and is set under the name. -/
theorem save_eq_ok {rolls next : SavedRolls} {name text : String} {roll : SavedRoll}
    (h : rolls.save name text = .ok (roll, next)) :
    isRollName name = true ∧ roll.name = name ∧ Formula.parse text = .ok roll.formula ∧
      next.toList = setKey SavedRoll.name roll rolls.toList := by
  rw [save] at h
  split at h
  · rename_i hname
    split at h
    · cases h
    · rename_i formula hparse
      cases h
      exact ⟨hname, rfl, hparse, rfl⟩
  · cases h

/-- Every saved formula was **read from a text**. -/
theorem Reachable.parsed {rolls : SavedRolls} (h : rolls.Reachable) :
    ∀ roll ∈ rolls.toList, ∃ text, Formula.parse text = .ok roll.formula := by
  induction h with
  | empty => exact fun _ hmem => nomatch hmem
  | save _ hsave ih =>
      obtain ⟨-, -, hparse, hnext⟩ := save_eq_ok hsave
      intro other hother
      rw [hnext] at hother
      rcases mem_of_mem_setKey hother with rfl | hother
      · exact ⟨_, hparse⟩
      · exact ih other hother

/-- Every formula that is found under a name was **read from a text**. -/
theorem Reachable.parsed_of_resolve {rolls : SavedRolls} (h : rolls.Reachable) {name : String}
    {f : Formula} (hresolve : rolls.resolve name = .ok f) :
    ∃ text, Formula.parse text = .ok f := by
  rw [resolve] at hresolve
  split at hresolve
  · rename_i formula hfind
    cases hresolve
    obtain ⟨roll, hroll, rfl⟩ := Option.map_eq_some_iff.mp hfind
    exact h.parsed roll (List.mem_of_find?_eq_some hroll)
  · cases hresolve

end SavedRolls

end Tabletop
