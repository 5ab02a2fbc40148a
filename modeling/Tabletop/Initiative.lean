import Tabletop.Text.Blank

/-!
# Initiative

The turn order of an encounter. Entities are added under names, each with an **initiative
value**; higher values act first, and of equal values the one that was added first. The
order is worked out when it is asked for: the tracker itself keeps its entries in the order
in which they were added, and numbers them.

Names are stripped of surrounding blanks wherever they are given, and may not be blank. An
entity keeps its place until it is removed; clearing the tracker starts the numbers anew.

## Main definitions

* `Entry`, `Tracker`: an entity's place, and the places of all entities.
* `Tracker.add`, `Tracker.get`, `Tracker.remove`, `Tracker.clear`: the operations.
* `Tracker.turnOrder`: the entries in the order of their turns.
* `InitiativeError`: why an operation fails.
-/

namespace Tabletop

/-- Why an operation on the tracker fails. -/
inductive InitiativeError where
  /-- The name is blank. -/
  | emptyName
  /-- An entity of that name is there already. -/
  | duplicateName (name : String)
  /-- No entity of that name is there. -/
  | notFound (name : String)
  deriving DecidableEq, Repr, Inhabited

/-- The error in words. -/
def InitiativeError.message : InitiativeError → String
  | emptyName => "entity name must not be empty"
  | duplicateName name => "entity already in initiative order: " ++ name
  | notFound name => "entity not found: " ++ name

/-- The place of an entity in the turn order. -/
structure Entry where
  /-- The name of the entity, without surrounding blanks. -/
  name : String
  /-- The initiative value. -/
  value : Int
  /-- How many entities had been added before it. -/
  sequence : Nat
  deriving DecidableEq, Repr, Inhabited

/-- Whether an entry acts no later than another: its value is higher, or the values are equal
and it was added no later. -/
def Entry.actsBy (a b : Entry) : Bool :=
  b.value < a.value || (a.value == b.value && a.sequence ≤ b.sequence)

/-- The entities of an encounter. -/
structure Tracker where
  /-- The entries in the order in which they were added. -/
  entries : List Entry
  /-- The number of the next entry. It is counted **without a bound**: a counter of 64 bits gives
  the same numbers as long as fewer than `2 ^ 64` entities are added before the tracker is
  cleared. -/
  nextSequence : Nat
  deriving DecidableEq, Repr, Inhabited

namespace Tracker

/-- No entities. -/
def empty : Tracker :=
  ⟨[], 0⟩

/-- The entry with exactly this name. -/
def find? (t : Tracker) (name : String) : Option Entry :=
  t.entries.find? fun entry => entry.name == name

/-- Adds an entity. -/
def add (t : Tracker) (name : String) (value : Int) :
    Except InitiativeError (Entry × Tracker) :=
  let name := Text.strip name
  if name.isEmpty then .error .emptyName
  else
    match t.find? name with
    | some _ => .error (.duplicateName name)
    | none =>
      let entry : Entry := ⟨name, value, t.nextSequence⟩
      .ok (entry, ⟨t.entries ++ [entry], t.nextSequence + 1⟩)

/-- The entry of an entity. -/
def get (t : Tracker) (name : String) : Except InitiativeError Entry :=
  let name := Text.strip name
  match t.find? name with
  | some entry => .ok entry
  | none => .error (.notFound name)

/-- Removes an entity. The others keep their numbers. -/
def remove (t : Tracker) (name : String) : Except InitiativeError (Entry × Tracker) :=
  let name := Text.strip name
  match t.find? name with
  | some entry =>
    .ok (entry, { t with entries := t.entries.filter fun other => other.name != name })
  | none => .error (.notFound name)

/-- The entries in the order of their turns. -/
def turnOrder (t : Tracker) : List Entry :=
  t.entries.mergeSort Entry.actsBy

/-- The number of entities. -/
def size (t : Tracker) : Nat :=
  t.entries.length

/-- Whether there are no entities. -/
def isEmpty (t : Tracker) : Bool :=
  t.entries.isEmpty

/-- Removes all entities and starts the numbers anew; answers how many there were. -/
def clear (t : Tracker) : Nat × Tracker :=
  (t.size, empty)

end Tracker

end Tabletop
