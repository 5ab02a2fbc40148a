import Tabletop.Json.Basic

/-!
# The Description of the Interface

A machine-readable description of the server's operations, in the form of a Swagger 2.0
document. It is put together from a table of operations and a table of definitions; the only
part that varies is the host it names.

## Main definitions

* `Operation`, `operations`: the documented operations.
* `definitions`: the shapes of bodies and answers.
* `document`: the description for a host.
-/

namespace Tabletop

/-- The name under which the server answers. -/
def serverName : String := "dungeonbot"

/-- The version of the server. -/
def serverVersion : String := "0.1.0"

namespace Document

/-- A name together with what it stands for. -/
structure Named where
  /-- The name. -/
  name : String
  /-- What it stands for. -/
  description : String
  deriving DecidableEq, Repr

/-- A documented operation. -/
structure Operation where
  /-- The path, with its parameter in braces. -/
  path : String
  /-- The method, in lower case. -/
  method : String
  /-- The group that the operation belongs to. -/
  tag : String
  /-- What the operation does. -/
  summary : String
  /-- The parameter in the path. -/
  parameter : Option Named
  /-- The definition that the body of a request follows. -/
  body : Option Named
  /-- The status code of success. -/
  status : String
  /-- What the answer holds. -/
  response : String
  /-- The definition that the body of the answer follows. -/
  schema : Option String
  deriving DecidableEq, Repr

/-- The tag of the operations on the turn order. -/
def initiativeTag : String := "Initiative"

/-- The tag of the operations on rolls. -/
def rollTag : String := "Roll"

/-- All operations, in the order of the document. -/
def operations : List Operation := [
  ⟨"/init", "get", initiativeTag, "Print help text", none, none, "200", "The help text",
    none⟩,
  ⟨"/init", "post", initiativeTag, "Add an entity to the initiative order", none,
    some ⟨"InitiativeAddEntityRequest", "Entity to add"⟩, "202", "The added entity",
    some "InitiativeEntry"⟩,
  ⟨"/init/entity/\x7bentity\x7d", "get", initiativeTag, "Describe an initiative entity",
    some ⟨"entity", "Entity to describe"⟩, none, "200", "The desired entity",
    some "InitiativeEntry"⟩,
  ⟨"/init/entity/\x7bentity\x7d", "delete", initiativeTag,
    "Remove an entity from the initiative order", some ⟨"entity", "Entity to remove"⟩, none,
    "202", "The deleted entity", some "InitiativeEntry"⟩,
  ⟨"/init/list", "get", initiativeTag, "Get the entire current initiative order", none, none,
    "200", "The current initiative order", some "InitiativeListEntitiesResponse"⟩,
  ⟨"/init/clear", "delete", initiativeTag, "Clear the current initiative order", none, none,
    "202", "Success", some "InitiativeClearResponse"⟩,
  ⟨"/roll", "get", rollTag, "Prints help text", none, none, "200", "Help text", none⟩,
  ⟨"/roll", "post", rollTag, "Make the roll(s) contained in the request's body", none,
    some ⟨"RollBatchRequest", "Roll(s) to make"⟩, "202", "Roll results",
    some "RollBatchResponse"⟩,
  ⟨"/roll/\x7broll\x7d", "get", rollTag, "Make a single roll contained in the request's URI",
    some ⟨"roll", "Dice expression, e.g. 2d6+3"⟩, none, "200", "Roll results",
    some "RollResult"⟩,
  ⟨"/roll/savedroll", "get", rollTag, "List saved rolls", none, none, "200",
    "Saved rolls sorted by name", some "SavedRollListResponse"⟩,
  ⟨"/roll/savedroll/\x7brollname\x7d", "get", rollTag, "Make a saved roll",
    some ⟨"rollname", "Name of the saved roll"⟩, none, "200", "Roll results",
    some "RollResult"⟩,
  ⟨"/roll/savedroll/\x7brollname\x7d", "put", rollTag,
    "Save a named roll, replacing any previous one",
    some ⟨"rollname", "Name of the saved roll"⟩,
    some ⟨"SaveRollRequest", "Expression to save"⟩, "202", "The saved roll",
    some "SavedRoll"⟩]

/-! ### Shapes -/

/-- A reference to a definition. -/
def reference (definition : String) : Json :=
  .object [("$ref", .string ("#/definitions/" ++ definition))]

/-- A shape of the given type. -/
def typed (type : String) : Json :=
  .object [("type", .string type)]

/-- A string out of a few. -/
def oneOf (values : List String) : Json :=
  .object [("type", .string "string"), ("enum", .array (values.map .string))]

/-- A list of items of one shape. -/
def listOf (items : Json) : Json :=
  .object [("type", .string "array"), ("items", items)]

/-- An object with the given properties. -/
def record (properties : List (String × Json)) : Json :=
  .object [("type", .string "object"), ("properties", .object properties)]

/-- An object with the given properties, some of which are required. -/
def recordWith (required : List String) (properties : List (String × Json)) : Json :=
  .object [("type", .string "object"), ("required", .array (required.map .string)),
    ("properties", .object properties)]

/-- The shapes of bodies and answers. -/
def definitions : List (String × Json) := [
  ("InitiativeAddEntityRequest", recordWith ["entityName", "initiativeValue"]
    [("entityName", typed "string"), ("initiativeValue", typed "integer")]),
  ("InitiativeEntry", record
    [("entityName", typed "string"), ("initiativeValue", typed "integer"),
      ("insertionSequence", typed "integer")]),
  ("InitiativeListEntitiesResponse", record
    [("entities", listOf (reference "InitiativeEntry"))]),
  ("InitiativeClearResponse", record [("removed", typed "integer")]),
  ("RollRequest", .object
    [("description", .string ("A dice expression string, \x7b\"expression\": ...\x7d or " ++
        "\x7b\"saved_roll\": ...\x7d")),
      ("type", .string "object"),
      ("properties", .object
        [("expression", typed "string"), ("saved_roll", typed "string")])]),
  ("RollBatchRequest", recordWith ["rolls"] [("rolls", listOf (reference "RollRequest"))]),
  ("TermBreakdown", record
    [("type", oneOf ["dice", "constant"]), ("sign", oneOf ["+", "-"]),
      ("count", typed "integer"), ("sides", typed "integer"),
      ("faces", listOf (typed "integer")), ("value", typed "integer")]),
  ("RollResult", record
    [("expression", typed "string"), ("total", typed "integer"),
      ("breakdown", listOf (reference "TermBreakdown"))]),
  ("Error", record
    [("error", typed "string"), ("message", typed "string"), ("position", typed "integer"),
      ("fragment", typed "string")]),
  ("RollBatchResponse", record
    [("results", listOf (record
      [("request", reference "RollRequest"), ("result", reference "RollResult"),
        ("error", reference "Error")]))]),
  ("SaveRollRequest", recordWith ["expression"] [("expression", typed "string")]),
  ("SavedRoll", record
    [("name", typed "string"), ("expression", typed "string"), ("canonical", typed "string"),
      ("min", typed "integer"), ("max", typed "integer"), ("average", typed "integer")]),
  ("SavedRollListResponse", record [("saved_rolls", listOf (reference "SavedRoll"))])]

/-! ### Operations -/

/-- The parameters of an operation: the one in its path, then its body. -/
def Operation.parameters (o : Operation) : List Json :=
  (o.parameter.toList.map fun p =>
    .object [("name", .string p.name), ("in", .string "path"),
      ("description", .string p.description), ("required", .bool true),
      ("type", .string "string")]) ++
  (o.body.toList.map fun b =>
    .object [("name", .string "body"), ("in", .string "body"),
      ("description", .string b.description), ("required", .bool true),
      ("schema", reference b.name)])

/-- The answer of an operation. -/
def Operation.answer (o : Operation) : Json :=
  .object (("description", .string o.response) ::
    o.schema.toList.map fun schema => ("schema", reference schema))

/-- The description of an operation. -/
def Operation.toJson (o : Operation) : Json :=
  .object ([("summary", .string o.summary), ("tags", .array [.string o.tag]),
      ("responses", .object [(o.status, o.answer)])] ++
    if o.parameters.isEmpty then [] else [("parameters", .array o.parameters)])

/-- The descriptions of the operations of a path, under their methods. -/
def pathJson (path : String) : Json :=
  .object ((operations.filter fun o => o.path == path).map fun o => (o.method, o.toJson))

/-- The documented paths, in the order of the operations. -/
def paths : List String :=
  (operations.map Operation.path).eraseDups

/-- A group of operations. -/
def tagJson (name description : String) : Json :=
  .object [("name", .string name), ("description", .string description)]

end Document

open Document in
/-- The description of the interface, as found on a host. -/
def document (host : String) : Json :=
  .object [
    ("swagger", .string "2.0"),
    ("host", .string host),
    ("schemes", .array [.string "http"]),
    ("info", .object [("title", .string "DungeonBot"), ("version", .string serverVersion)]),
    ("tags", .array
      [tagJson initiativeTag "Methods related to the initiative tracker",
        tagJson rollTag "Methods related to rolling dice"]),
    ("paths", .object (paths.map fun path => (path, pathJson path))),
    ("definitions", .object definitions)]

/-- Every definition that the operations refer to is among the definitions. -/
example :
    (Document.operations.all fun o =>
      (o.schema.toList ++ o.body.toList.map Document.Named.name).all fun name =>
        (Document.definitions.lookup name).isSome) = true := by
  decide +kernel

end Tabletop
