import Tabletop.Dice.Roll
import Tabletop.Json.Embedded
import Tabletop.Json.Writer
import Tabletop.SavedRolls

/-!
# Batches of Rolls

A batch is a list of requests, each for one roll: a formula given on the spot, or the name
of a saved roll. A request is read from a JSON value. A value of no known form gives an
**invalid** request, which keeps the plain form of the value, its embedded texts expanded.
Only a value that embeds something other than a JSON text gives no request at all.

The requests of a batch are rolled in order from one source. A request that fails draws no
faces and does not disturb the others.

## Main definitions

* `RollRequest`, `RollRequest.ofJson?`, `RollRequest.toJson`: requests, and their JSON forms.
* `RollFailure`: why a request fails.
* `rollText`, `rollSaved`: the roll of a text, and that of a saved roll.
* `BatchItem`, `rollBatchWith`, `rollBatch`: a request with its outcome, and the outcomes of a
  batch, in any way of drawing faces and from a source.
-/

namespace Tabletop

/-- The most requests that a batch may hold. -/
def maxBatchSize : Nat := 50

/-! ### Requests -/

/-- A request for one roll. -/
inductive RollRequest where
  /-- A formula given on the spot. -/
  | adhoc (expression : String)
  /-- The name of a saved roll. -/
  | named (savedRoll : String)
  /-- A value of no known form, in its plain form. -/
  | invalid (value : Json)
  deriving Repr, Inhabited

namespace RollRequest

/-- The key of a formula in a request. -/
def expressionKey : String := "expression"

/-- The key of a name in a request. -/
def savedRollKey : String := "saved_roll"

/-- The text of a key that occurs exactly once and holds a string. -/
def soleText? (key : String) (members : List (String × Json)) : Option String :=
  (Json.soleMember? key members).bind Json.text?

/-- The request of a value of no known form. -/
def ofUnknown? (value : Json) : Option RollRequest :=
  value.expand?.map fun expanded => invalid expanded.normal

/-- The request that a value stands for. A string is a formula. In an object the formula is
looked for before the name, and other keys do not matter. -/
def ofJson? : Json → Option RollRequest
  | .string expression => some (adhoc expression)
  | .object members =>
    match soleText? expressionKey members with
    | some expression => some (adhoc expression)
    | none =>
      match soleText? savedRollKey members with
      | some name => some (named name)
      | none => ofUnknown? (.object members)
  | value => ofUnknown? value

/-- The JSON form of a request. -/
def toJson : RollRequest → Json
  | adhoc expression => .object [(expressionKey, .string expression)]
  | named savedRoll => .object [(savedRollKey, .string savedRoll)]
  | invalid value => value

end RollRequest

/-! ### Outcomes -/

/-- Why a request fails. -/
inductive RollFailure where
  /-- There is a fault in the formula. -/
  | formula (fault : Fault)
  /-- The saved roll cannot be used. -/
  | savedRoll (error : SavedRollError)
  /-- The request has no known form. The text is the value of the request, written compactly. -/
  | invalidRequest (text : String)
  deriving Repr, Inhabited

/-- The failure in words. -/
def RollFailure.message : RollFailure → String
  | formula fault => fault.message
  | savedRoll error => error.message
  | invalidRequest text => "invalid roll request: " ++ text

/-- The formula that a request asks to be rolled. -/
def RollRequest.formula (rolls : SavedRolls) : RollRequest → Except RollFailure Formula
  | adhoc expression => (Formula.parse expression).mapError .formula
  | named savedRoll => (rolls.resolve savedRoll).mapError .savedRoll
  | invalid value => .error (.invalidRequest value.compact)

/-- A request together with what came of it. -/
structure BatchItem where
  /-- The request. -/
  request : RollRequest
  /-- The roll, or why there is none. -/
  outcome : Except RollFailure Roll
  deriving Inhabited

section Rolling

variable {ε σ : Type} (draw : Draw ε σ)

/-- Rolls a formula, if there is one. Where there is none, no face is drawn. -/
def rollIfGood {φ : Type} (formula : Except φ Formula) (s : σ) : Drawn ε σ (Except φ Roll) :=
  match formula with
  | .error failure => (.ok (.error failure), s)
  | .ok formula => (formula.rollWith draw s).andThen fun roll s => (.ok (.ok roll), s)

/-- Rolls the formula that a text denotes. -/
def rollText (text : String) (s : σ) : Drawn ε σ (Except Fault Roll) :=
  rollIfGood draw (Formula.parse text) s

/-- Rolls the formula that is saved under a name. -/
def rollSaved (rolls : SavedRolls) (name : String) (s : σ) :
    Drawn ε σ (Except SavedRollError Roll) :=
  rollIfGood draw (rolls.resolve name) s

/-- Rolls one request. Only a refused face makes the whole batch stop. -/
def RollRequest.rollWith (rolls : SavedRolls) (request : RollRequest) (s : σ) :
    Drawn ε σ BatchItem :=
  (rollIfGood draw (request.formula rolls) s).andThen fun outcome s => (.ok ⟨request, outcome⟩, s)

/-- Rolls the requests of a batch in order, with faces that are drawn in the given way. -/
def rollBatchWith (rolls : SavedRolls) : List RollRequest → σ → Drawn ε σ (List BatchItem)
  | [], s => (.ok [], s)
  | request :: requests, s =>
    (request.rollWith draw rolls s).andThen fun item s =>
      (rollBatchWith rolls requests s).andThen fun items s => (.ok (item :: items), s)

end Rolling

/-- Rolls the requests of a batch in order, with the faces of a source. -/
def rollBatch (rolls : SavedRolls) (requests : List RollRequest) (source : Source) :
    Except BadFace (List BatchItem) × Source :=
  rollBatchWith Source.draw rolls requests source

/-- A text denotes a batch if it is a JSON list whose items are all requests. -/
def RollRequest.parseList? (text : String) : Option (List RollRequest) :=
  match Json.parse text with
  | some (.array items) => items.mapM ofJson?
  | _ => none

end Tabletop
