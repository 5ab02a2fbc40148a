import Tabletop.Server.Document
import Tabletop.Server.Endpoint
import Tabletop.Server.Failure
import Tabletop.Server.Help
import Tabletop.Server.MediaType
import Tabletop.Server.Percent

/-!
# The Server

The server is its state: a turn order, saved rolls, and a keystream. A request takes it to a
reply and the next state, and nothing else affects either.

Every request that rolls dice takes eight words of the **shared** keystream as the key of a
keystream of its own, whether or not it then finds something to roll. How many words that
stream gives makes no difference to later requests.

## Conventions

An endpoint without a `HEAD` of its own answers it as a `GET` and leaves out the body.
`OPTIONS` is answered for every path, and says which methods a known path has. A path
without an endpoint is not found, and a method that its endpoint does not have is refused
with the list of those that it has.

A parameter in a path is decoded before the body of the request is looked at.

## Main definitions

* `Server`: the state of the server.
* `Server.answer`: the reply to a request, and the next state.
* `Server.answerAll`: the replies to several requests, one after another.
-/

namespace Tabletop

/-- The state of the server. -/
structure Server where
  /-- The turn order. -/
  tracker : Tracker
  /-- The saved rolls. -/
  rolls : SavedRolls
  /-- The keystream that the keys of rolling requests are taken from. -/
  shared : Keystream
  /-- The host that the description of the interface names. -/
  host : String
  /-- Whether pages of any origin may use the server. -/
  anyOrigin : Bool
  deriving DecidableEq, Repr

/-! ### Forms of bodies -/

/-- The body that adds an entity. -/
def entityForm : Form := [("entityName", .text), ("initiativeValue", .integer)]

/-- The body that asks for a batch of rolls. -/
def batchForm : Form := [("rolls", .requests)]

/-- The body that saves a roll. -/
def savedRollForm : Form := [("expression", .text)]

/-- The values of the fields of a request's body, which has to be announced as JSON. -/
def Request.fields (r : Request) (form : Form) : Except BodyFault (List FieldValue) :=
  if r.contentType.any MediaType.isJson then form.read r.body else .error .unannounced

/-- The name and the initiative value of an entity to be added. -/
def Request.entity (r : Request) : Except BodyFault (String × Int) :=
  match r.fields entityForm with
  | .ok [.text name, .integer value] => .ok (name, value)
  | .ok _ => .error .mismatched
  | .error fault => .error fault

/-- The requests of a batch. -/
def Request.batch (r : Request) : Except BodyFault (List RollRequest) :=
  match r.fields batchForm with
  | .ok [.requests items] => .ok items
  | .ok _ => .error .mismatched
  | .error fault => .error fault

/-- The text of a formula to be saved. -/
def Request.expression (r : Request) : Except BodyFault String :=
  match r.fields savedRollForm with
  | .ok [.text expression] => .ok expression
  | .ok _ => .error .mismatched
  | .error fault => .error fault

/-- An item of a batch: its request, and the roll or the reason why there is none. -/
def BatchItem.toJson (item : BatchItem) : Json :=
  .object [("request", item.request.toJson),
    match item.outcome with
    | .ok roll => ("result", roll.toJson)
    | .error failure => ("error", failure.body.toJson)]

namespace Server

/-! ### Rolling -/

/-- A source of faces for one request. -/
def takeSource (s : Server) : Source × Server :=
  let (key, shared) := s.shared.takeKey
  (.seeded (.ofKey key), { s with shared := shared })

/-- The reply to a face that its die does not have. No keystream gives one. -/
def badFaceReply (bad : BadFace) : Reply :=
  .plain 500 bad.message

/-- The reply to a roll, or to the reason why there is none. -/
def rollReply {φ : Type} (failed : φ → Failure) : Except BadFace (Except φ Roll) → Reply
  | .ok (.ok roll) => .json 200 roll.toJson
  | .ok (.error failure) => (failed failure).reply
  | .error bad => badFaceReply bad

/-- Rolls the formula that a text denotes. -/
def rollFormula (s : Server) (text : String) : Reply × Server :=
  let (source, s) := s.takeSource
  (rollReply .formula (rollText Source.draw text source).1, s)

/-- Rolls a saved roll. -/
def rollNamed (s : Server) (name : String) : Reply × Server :=
  let (source, s) := s.takeSource
  (rollReply .savedRoll (rollSaved Source.draw s.rolls name source).1, s)

/-- Rolls a batch. A batch that is too large is refused before a key is taken. -/
def rollRequests (s : Server) (r : Request) : Reply × Server :=
  match r.batch with
  | .error fault => ((Failure.body fault).reply, s)
  | .ok requests =>
    if requests.length > maxBatchSize then
      ((Failure.batchTooLarge requests.length).reply, s)
    else
      let (source, s) := s.takeSource
      match (rollBatch s.rolls requests source).1 with
      | .ok items =>
        (.json 202 (.object [("results", .array (items.map BatchItem.toJson))]), s)
      | .error bad => (badFaceReply bad, s)

/-- Saves a roll. -/
def saveRoll (s : Server) (name : String) (r : Request) : Reply × Server :=
  match r.expression with
  | .error fault => ((Failure.body fault).reply, s)
  | .ok expression =>
    match s.rolls.save name expression with
    | .error error => ((Failure.savedRoll error).reply, s)
    | .ok (roll, rolls) => (.json 202 roll.toJson, { s with rolls := rolls })

/-- The saved rolls. -/
def savedRollsJson (s : Server) : Json :=
  .object [("saved_rolls", .array (s.rolls.toList.map SavedRoll.toJson))]

/-! ### The turn order -/

/-- Adds an entity. -/
def addEntity (s : Server) (r : Request) : Reply × Server :=
  match r.entity with
  | .error fault => ((Failure.body fault).reply, s)
  | .ok (name, value) =>
    match s.tracker.add name value with
    | .error error => ((Failure.initiative error).reply, s)
    | .ok (entry, tracker) => (.json 202 entry.toJson, { s with tracker := tracker })

/-- Shows an entity. -/
def showEntity (s : Server) (name : String) : Reply :=
  match s.tracker.get name with
  | .error error => (Failure.initiative error).reply
  | .ok entry => .json 200 entry.toJson

/-- Removes an entity. -/
def removeEntity (s : Server) (name : String) : Reply × Server :=
  match s.tracker.remove name with
  | .error error => ((Failure.initiative error).reply, s)
  | .ok (entry, tracker) => (.json 202 entry.toJson, { s with tracker := tracker })

/-- The turn order. -/
def turnOrderJson (s : Server) : Json :=
  .object [("entities", .array (s.tracker.turnOrder.map Entry.toJson))]

/-- Removes all entities. -/
def clear (s : Server) : Reply × Server :=
  let (removed, tracker) := s.tracker.clear
  (.json 202 (.object [("removed", .ofNat removed)]), { s with tracker := tracker })

/-! ### Requests -/

/-- Who the server is. -/
def rootJson : Json :=
  .object [("name", .string serverName), ("version", .string serverVersion)]

/-- That the server is well. -/
def healthJson : Json :=
  .object [("status", .string "healthy")]

/-- The reply to a parameter that stands for no text. -/
def badParameter (parameter : String) : Reply :=
  .plain 400 ("Invalid URL: Invalid UTF-8 in `" ++ parameter ++ "`")

/-- Handles a request with the text that a parameter of its path stands for. -/
def withParameter (s : Server) (parameter : String) (segment : List Char)
    (handle : String → Reply × Server) : Reply × Server :=
  match Percent.decode? segment with
  | none => (badParameter parameter, s)
  | some text => handle text

/-- Handles a request at an endpoint that has its method. -/
def handle (s : Server) (endpoint : Endpoint) (r : Request) : Reply × Server :=
  match endpoint with
  | .root => (.json 200 rootJson, s)
  | .health => (.json 200 healthJson, s)
  | .document => (.json 200 (Tabletop.document s.host), s)
  | .initiative =>
    if r.method = .post then s.addEntity r else (.plain 200 Help.initiative, s)
  | .entity segment =>
    s.withParameter "entity" segment fun name =>
      if r.method = .delete then s.removeEntity name else (s.showEntity name, s)
  | .turnOrder => (.json 200 s.turnOrderJson, s)
  | .clear => s.clear
  | .roll => if r.method = .post then s.rollRequests r else (.plain 200 Help.roll, s)
  | .savedRolls => (.json 200 s.savedRollsJson, s)
  | .savedRoll segment =>
    s.withParameter "rollname" segment fun name =>
      if r.method = .put then s.saveRoll name r
      else s.rollNamed name
  | .formula segment =>
    s.withParameter "expression" segment s.rollFormula

/-- Finds the endpoint of a request and handles it. -/
def route (s : Server) (r : Request) : Reply × Server :=
  match Endpoint.ofPath? r.path with
  | none => (.bare (if r.method = .options then 200 else 404), s)
  | some endpoint =>
    if r.method = .options then ((Reply.bare 200).withHeader "allow" endpoint.allow, s)
    else if r.method ∈ endpoint.methods then
      let (reply, s) := s.handle endpoint r
      (if r.method = .head then reply.withoutBody else reply, s)
    else ((Reply.bare 405).withHeader "allow" endpoint.allow, s)

/-- The reply with what pages of other origins need to know. -/
def permit (anyOrigin : Bool) (method : Method) (reply : Reply) : Reply :=
  if !anyOrigin then reply
  else
    let reply := reply.withHeader "access-control-allow-origin" "*"
    if method = .options then
      (reply.withHeader "access-control-allow-methods" "*").withHeader
        "access-control-allow-headers" "*"
    else reply

/-- The reply to a request, and the next state. -/
def answer (s : Server) (r : Request) : Reply × Server :=
  let (reply, next) := s.route r
  (permit s.anyOrigin r.method reply, next)

/-- The replies to several requests, one after another. -/
def answerAll (s : Server) : List Request → List Reply × Server
  | [] => ([], s)
  | r :: requests =>
    let (reply, s) := s.answer r
    let (replies, s) := s.answerAll requests
    (reply :: replies, s)

end Server

end Tabletop
