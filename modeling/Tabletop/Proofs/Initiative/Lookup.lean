import Tabletop.Proofs.Initiative.TurnOrder

/-!
# Looking Up Entities

To whoever asks by name, the tracker is a function from names to entries. A newcomer is found under
its own name, if nobody was before, and an entity that was dismissed is not; under all other names
the same is found as before.

## Main results

* `Tracker.find?_enrol_self`, `Tracker.find?_enrol_of_ne`: what is found after an entity was added.
* `Tracker.find?_dismiss`: what is found after an entity was removed.
-/

namespace Tabletop.Tracker

variable {t : Tracker} {name other : String} {value : Int} {entry : Entry}

/-- Under a new name **the newcomer** is found. -/
theorem find?_enrol_self (h : t.find? name = none) :
    (t.enrol name value).find? name = some (t.newcomer name value) := by
  rw [find?, enrol, List.find?_append]
  rw [find?] at h
  rw [h, Option.none_or, List.find?_cons_of_pos (by simp [newcomer])]

/-- What is found already **is found afterwards**, whoever is added. -/
theorem find?_enrol_of_some (h : t.find? other = some entry) :
    (t.enrol name value).find? other = some entry := by
  rw [find?, enrol, List.find?_append]
  rw [find?] at h
  rw [h, Option.some_or]

/-- Under **another name** the same is found as before, whoever is added. -/
theorem find?_enrol_of_ne (h : other ≠ name) :
    (t.enrol name value).find? other = t.find? other := by
  rw [find?, enrol, List.find?_append, List.find?_cons_of_neg (by simpa [newcomer] using h.symm),
    List.find?_nil, Option.or_none, find?]

/-- Under the name of an entity that was removed **nothing** is found, and under any other what was
found before. -/
theorem find?_dismiss (t : Tracker) (name other : String) :
    (t.dismiss name).find? other = if other = name then none else t.find? other := by
  rw [find?, dismiss]
  split
  · rename_i hname
    refine List.find?_eq_none.mpr fun entry hentry => ?_
    have hne := (List.mem_filter.mp hentry).2
    simpa [hname] using hne
  · rename_i hname
    rw [List.find?_filter, find?]
    refine congrArg (List.find? · t.entries) (funext fun entry => ?_)
    by_cases hother : entry.name = other
    · simp [hother, hname]
    · simp [hother]

end Tabletop.Tracker
