/-!
# Setting Members under Keys

Saved rolls have names, and members of objects and of tables have keys. Where the keys **ascend**,
code point by code point, a member that is set goes to the place of its key, and takes the place of
a member that had this key before. So each key has one member, the one set last.

## Main definitions

* `setKey`: the list with one member set under its key.
-/

namespace Tabletop

/-- The list with a member set **under its key**, where the keys ascend. -/
def setKey {α : Type} (key : α → String) (a : α) : List α → List α
  | [] => [a]
  | b :: as =>
    if key a < key b then a :: b :: as
    else if key a = key b then a :: as
    else b :: setKey key a as

/-- A key that is there already has its member replaced, and a new key finds its place. -/
example : setKey Prod.fst ("b", 2) [("a", 0), ("b", 1)] = [("a", 0), ("b", 2)] ∧
    setKey Prod.fst ("b", 2) [("a", 0), ("c", 1)] = [("a", 0), ("b", 2), ("c", 1)] := by
  decide

end Tabletop
