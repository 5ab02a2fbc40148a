/-!
# Help

The texts that explain the interface to people.

## Main definitions

* `Help.roll`: help on rolling dice.
* `Help.initiative`: help on the turn order.
-/

namespace Tabletop.Help

/-- The lines of a text, each ended by a line feed. -/
def lines (text : List String) : String :=
  String.join (text.map (· ++ "\n"))

/-- Help on rolling dice. -/
def roll : String :=
  lines [
    "Dice roller",
    "",
    "  GET  /roll                       this help text",
    "  POST /roll                       roll a batch: " ++
      "\x7b\"rolls\": [\"1d20+5\", \x7b\"saved_roll\": \"fireball\"\x7d]\x7d",
    "  GET  /roll/\x7bexpression\x7d          roll one expression, e.g. /roll/2d6+3",
    "  GET  /roll/savedroll             list saved rolls",
    "  GET  /roll/savedroll/\x7brollname\x7d  roll a saved roll",
    "  PUT  /roll/savedroll/\x7brollname\x7d  save a roll: \x7b\"expression\": \"8d6\"\x7d",
    "",
    "Notation: terms like 2d6 or 3 joined by + or -, e.g. 1d20 + 1d4 - 1.",
    "Dice need at least 2 sides; a term may roll at most 1000 dice and a whole",
    "expression at most 2000. A batch holds at most 50 rolls; its items are",
    "rolled in order and fail independently."]

/-- Help on the turn order. -/
def initiative : String :=
  lines [
    "Initiative tracker",
    "",
    "  GET    /init                  this help text",
    "  POST   /init                  add an entity: " ++
      "\x7b\"entityName\": \"Goblin\", \"initiativeValue\": 12\x7d",
    "  GET    /init/entity/\x7bentity\x7d  describe an entity",
    "  DELETE /init/entity/\x7bentity\x7d  remove an entity",
    "  GET    /init/list             the current turn order",
    "  DELETE /init/clear            remove every entity",
    "",
    "Higher initiative acts first; on a tie, the entity added first acts first.",
    "Entity names are unique; remove an entity before re-adding it with a new value."]

end Tabletop.Help
