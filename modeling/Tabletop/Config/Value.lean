import Tabletop.Lists.Keyed

/-!
# Configuration Values

The values that settings are read from, whatever they are written in. A table keeps its keys
in ascending order, each with the value set last.

Layers of settings are merged table by table: where both layers have a table under a key the
two are merged, and otherwise the later layer wins.

Inside a file a table may be a **wrapper**: under one certain key it holds a value, and it
stands for that value, whatever else it holds. A second key, which would name the origin of
a value, is refused. The table of the whole file is no wrapper.

## Main definitions

* `ConfigValue`, `ConfigTable`.
* `ConfigTable.set`, `ConfigTable.merge`.
* `ConfigTable.unwrap?`: a table of a file without its wrappers.
-/

namespace Tabletop

/-- A value in a configuration. No setting takes a fraction, so a fraction is kept without its
value. -/
inductive ConfigValue where
  | bool (value : Bool)
  | integer (value : Int)
  | fraction
  | text (value : String)
  | list (items : List ConfigValue)
  | table (members : List (String × ConfigValue))
  deriving Repr, Inhabited

/-- The values of a table under their keys, in ascending order of the keys. -/
abbrev ConfigTable := List (String × ConfigValue)

namespace ConfigTable

/-- The table with the value of a key set. -/
def set (key : String) (value : ConfigValue) (table : ConfigTable) : ConfigTable :=
  setKey Prod.fst (key, value) table

/-- The table with the values of several keys set, one after another. -/
def setAll (table : ConfigTable) (members : List (String × ConfigValue)) : ConfigTable :=
  members.foldl (fun table member => table.set member.1 member.2) table

mutual

/-- What a later layer makes of an earlier value. -/
def mergeValue (earlier : Option ConfigValue) : ConfigValue → ConfigValue
  | .table members =>
    match earlier with
    | some (.table base) => .table (mergeMembers base members)
    | _ => .table members
  | later => later

/-- What a later layer makes of an earlier table, its members taken one after another. -/
def mergeMembers (base : List (String × ConfigValue)) :
    List (String × ConfigValue) → List (String × ConfigValue)
  | [] => base
  | (key, value) :: members =>
    mergeMembers (set key (mergeValue (base.lookup key) value) base) members

end

/-- The table of two layers, of which the second is the later one. -/
def merge (earlier later : ConfigTable) : ConfigTable :=
  mergeMembers earlier later

/-! ### Wrappers -/

/-- The key of the value that a wrapper stands for. -/
def wrappedKey : String := "___figment_value_value"

/-- The key that would name the origin of a value. -/
def originKey : String := "___figment_value_id"

/-- What a table stands for, given its members without wrappers. -/
def unwrapTable? (members : ConfigTable) : Option ConfigValue :=
  if (members.lookup originKey).isSome then none
  else some ((members.lookup wrappedKey).getD (.table members))

mutual

/-- The value that a value of a file stands for. -/
def unwrapValue? : ConfigValue → Option ConfigValue
  | .list items => (unwrapItems? items).map .list
  | .table members => (unwrap? members).bind unwrapTable?
  | other => some other

/-- The values that the items of a list stand for. -/
def unwrapItems? : List ConfigValue → Option (List ConfigValue)
  | [] => some []
  | item :: items =>
    match unwrapValue? item, unwrapItems? items with
    | some item, some items => some (item :: items)
    | _, _ => none

/-- The members of a table with the values that they stand for. -/
def unwrap? : List (String × ConfigValue) → Option ConfigTable
  | [] => some []
  | (key, value) :: members =>
    match unwrapValue? value, unwrap? members with
    | some value, some members => some ((key, value) :: members)
    | _, _ => none

end

/-- A wrapper stands for its value alone, but the table of the file is none. -/
example : unwrap? [(wrappedKey, .table [("a", .bool true), (wrappedKey, .integer 7)])] =
    some [(wrappedKey, .integer 7)] := by
  rfl

end ConfigTable

end Tabletop
