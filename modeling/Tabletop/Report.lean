import Tabletop.Batch
import Tabletop.Initiative

/-!
# Reports

The JSON forms of rolls, saved rolls and entries of the turn order, as clients see them.

## Main definitions

* `Roll.toJson`, `SavedRoll.toJson`, `Entry.toJson`.
-/

namespace Tabletop

/-- The sign of a term. -/
def Sign.toJson (sign : Sign) : Json :=
  .string (String.singleton sign.symbol)

/-- What one term of a roll showed. -/
def Share.toJson : Share → Json
  | dice sign count sides faces =>
    .object [("type", .string "dice"), ("sign", sign.toJson), ("count", .ofNat count),
      ("sides", .ofNat sides), ("faces", .array (faces.map .ofNat))]
  | constant sign value =>
    .object [("type", .string "constant"), ("sign", sign.toJson), ("value", .ofNat value)]

/-- A roll: its formula, its total, and what each term showed. -/
def Roll.toJson (r : Roll) : Json :=
  .object [("expression", .string r.expression), ("total", .ofInt r.total),
    ("breakdown", .array (r.breakdown.map Share.toJson))]

/-- A saved roll: its name, the text and the canonical spelling of its formula, and the
totals to expect. -/
def SavedRoll.toJson (r : SavedRoll) : Json :=
  .object [("name", .string r.name), ("expression", .string r.formula.source),
    ("canonical", .string r.formula.canonical), ("min", .ofInt r.formula.min),
    ("max", .ofInt r.formula.max), ("average", .ofInt r.formula.average)]

/-- A place in the turn order. -/
def Entry.toJson (e : Entry) : Json :=
  .object [("entityName", .string e.name), ("initiativeValue", .ofInt e.value),
    ("insertionSequence", .ofNat e.sequence)]

end Tabletop
