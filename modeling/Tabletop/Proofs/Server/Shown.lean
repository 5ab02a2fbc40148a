import Mathlib.Data.List.Forall2
import Tabletop.Proofs.Formula.Acceptance
import Tabletop.Report

/-!
# What Is Shown

What clients see of an entry, of a roll and of a saved roll, **member by member**: the keys in their
order, and for each the value it has. None of this is said by way of the functions that write
values down, so that a statement about a reply pins the reply, and not only what it was written
from.

## Main definitions

* `Entry.ShownAs`, `Share.ShownAs`, `Roll.ShownAs`: the members of entries and of rolls.
* `SavedRoll.Shows`: the members of a saved roll, by its name and its text.

## Main results

* `Entry.shownAs_toJson`, `Roll.shownAs_toJson`, `SavedRoll.shows_toJson`: what is written down.
-/

namespace Tabletop

/-- What is shown of **an entry**: the name of the entity, its initiative value, and its number. -/
def Entry.ShownAs (entry : Entry) (value : Json) : Prop :=
  value = .object [("entityName", .string entry.name),
    ("initiativeValue", .number (.integer entry.value)),
    ("insertionSequence", .number (.integer entry.sequence))]

/-- What is shown of **what one term showed**: of dice their number, their sides and all faces in
the order in which they were drawn, of a constant its value. -/
inductive Share.ShownAs : Share → Json → Prop
  | dice {sign : Sign} {count sides : Nat} {faces : List Nat} :
      ShownAs (.dice sign count sides faces) (.object [("type", .string "dice"),
        ("sign", .string (String.singleton sign.symbol)), ("count", .number (.integer count)),
        ("sides", .number (.integer sides)),
        ("faces", .array (faces.map fun face : Nat => .number (.integer face)))])
  | constant {sign : Sign} {value : Nat} :
      ShownAs (.constant sign value) (.object [("type", .string "constant"),
        ("sign", .string (String.singleton sign.symbol)), ("value", .number (.integer value))])

/-- What is shown of **a roll**: the spelling of its formula, its total, and what each term showed,
in the order of the terms. -/
def Roll.ShownAs (roll : Roll) (value : Json) : Prop :=
  ∃ terms, List.Forall₂ Share.ShownAs roll.breakdown terms ∧
    value = .object [("expression", .string roll.expression),
      ("total", .number (.integer roll.total)), ("breakdown", .array terms)]

/-- What is **listed of an entry**: its name, its text without the blanks around it, and of the
formula that the text denotes the canonical text, the bounds and the average. -/
def SavedRoll.Shows (entry : String × String) (item : Json) : Prop :=
  ∃ f, Formula.parse entry.2 = .ok f ∧
    item = .object [("name", .string entry.1), ("expression", .string (Text.strip entry.2)),
      ("canonical", .string f.canonical), ("min", .number (.integer f.min)),
      ("max", .number (.integer f.max)), ("average", .number (.integer f.average))]

/-- An entry is written down with **the members that are shown** of it. -/
theorem Entry.shownAs_toJson (entry : Entry) : entry.ShownAs entry.toJson :=
  rfl

/-- What a term showed is written down with the members that belong to **its kind**. -/
theorem Share.shownAs_toJson (share : Share) : share.ShownAs share.toJson := by
  cases share with
  | dice sign count sides faces => exact .dice
  | constant sign value => exact .constant

/-- A roll is written down **term by term**. -/
theorem Roll.shownAs_toJson (roll : Roll) : roll.ShownAs roll.toJson :=
  ⟨_, List.forall₂_map_right_iff.mpr (List.forall₂_same.mpr fun share _ => share.shownAs_toJson),
    rfl⟩

/-- A saved roll is written down with **the text that it was read from**, without the blanks around
it. -/
theorem SavedRoll.shows_toJson {name text : String} {f : Formula}
    (h : Formula.parse text = .ok f) : Shows (name, text) (toJson ⟨name, f⟩) := by
  refine ⟨f, h, ?_⟩
  rw [toJson, (Formula.sentence_of_parse h).2.2]
  rfl

end Tabletop
