import Tabletop.Server.Message

/-!
# Endpoints

The places that requests can be sent to. A path is matched as it was sent, segment by
segment and without regard to its query; nothing is decoded before an endpoint is found. A
segment that is a parameter may be anything but empty, and gives way to the fixed segments
of the same place.

A request may also name its target in full, with a scheme and a host, which make no
difference.

## Main definitions

* `Endpoint`, `Endpoint.ofPath?`: the endpoints, and the endpoint of a target.
* `Endpoint.methods`, `Endpoint.allow`: the methods that an endpoint answers.
-/

namespace Tabletop

/-- A place that requests can be sent to. Parameters are kept as they were sent. -/
inductive Endpoint where
  /-- Who the server is. -/
  | root
  /-- Whether the server is well. -/
  | health
  /-- Help on the turn order, and adding an entity. -/
  | initiative
  /-- One entity. -/
  | entity (name : List Char)
  /-- The turn order. -/
  | turnOrder
  /-- Removing all entities. -/
  | clear
  /-- Help on rolling, and rolling a batch. -/
  | roll
  /-- The saved rolls. -/
  | savedRolls
  /-- One saved roll. -/
  | savedRoll (name : List Char)
  /-- Rolling a formula given in the path. -/
  | formula (expression : List Char)
  /-- The description of the interface. -/
  | document
  deriving DecidableEq, Repr, Inhabited

namespace Endpoint

/-- The parts of a text between slashes. -/
def segments : List Char → List (List Char)
  | [] => [[]]
  | c :: rest =>
    if c = '/' then [] :: segments rest
    else
      match segments rest with
      | [] => [[c]]
      | segment :: others => (c :: segment) :: others

/-- A path without its query. -/
def withoutQuery (path : List Char) : List Char :=
  path.takeWhile fun c => c != '?' && c != '#'

/-- A character of a scheme. -/
def isSchemeChar (c : Char) : Bool :=
  c.isAlphanum || c == '+' || c == '-' || c == '.' || c == '~'

/-- The text after the scheme and the host, if a text begins with a scheme. -/
def dropHost? (target : List Char) : Option (List Char) :=
  match target.dropWhile isSchemeChar with
  | ':' :: '/' :: '/' :: rest => some (rest.dropWhile fun c => c != '/' && c != '?' && c != '#')
  | _ => none

/-- The path in the target of a request. A target with a host but no path means the root. -/
def pathOf (target : List Char) : List Char :=
  match dropHost? target with
  | none => withoutQuery target
  | some rest => if (withoutQuery rest).isEmpty then ['/'] else withoutQuery rest

/-- An endpoint with a parameter, which must not be empty. -/
def withParameter (endpoint : List Char → Endpoint) (parameter : List Char) :
    Option Endpoint :=
  if parameter.isEmpty then none else some (endpoint parameter)

/-- The endpoint of the segments of a path. -/
def ofSegments? (parts : List (List Char)) : Option Endpoint :=
  match parts with
  | [first] =>
    if first = [] then some root
    else if first = "health".toList then some health
    else if first = "init".toList then some initiative
    else if first = "roll".toList then some roll
    else if first = "swagger.json".toList then some document
    else none
  | [first, second] =>
    if first = "init".toList then
      if second = "list".toList then some turnOrder
      else if second = "clear".toList then some clear
      else none
    else if first = "roll".toList then
      if second = "savedroll".toList then some savedRolls
      else withParameter formula second
    else none
  | [first, second, third] =>
    if first = "init".toList ∧ second = "entity".toList then withParameter entity third
    else if first = "roll".toList ∧ second = "savedroll".toList then
      withParameter savedRoll third
    else none
  | _ => none

/-- The endpoint of the target of a request. -/
def ofPath? (target : String) : Option Endpoint :=
  match pathOf target.toList with
  | '/' :: rest => ofSegments? (segments rest)
  | _ => none

/-- The methods that an endpoint answers, in the order in which they are listed. -/
def methods : Endpoint → List Method
  | initiative | roll => [.get, .head, .post]
  | savedRoll _ => [.get, .head, .put]
  | entity _ => [.get, .head, .delete]
  | clear => [.delete]
  | _ => [.get, .head]

/-- The list of the methods that an endpoint answers, as a header. -/
def allow (endpoint : Endpoint) : String :=
  ",".intercalate (endpoint.methods.map Method.name)

end Endpoint

end Tabletop
