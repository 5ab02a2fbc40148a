import Tabletop.Json.Embedded
import Tabletop.Server.Message

/-!
# Exchanges

Requests and replies as JSON values, so that a program without a network of its own can talk
to the server.

A request is an object with the members `method`, `path`, `body` and `content_type`. Where
the media type is not mentioned, a body is taken to be JSON; where it is `null`, none is
sent. A reply has its status, its headers under their names, and its body: the value that
its text reads as under `json`, or under `text` the text itself if it reads as none. A client
sees no more than the text, so a value nested too deeply for reading is a text to it, and
so is one that would seem to embed a text and does not.

## Main definitions

* `Request.ofJson`, `Reply.toJson`.
-/

namespace Tabletop

/-- The text of a member, or the empty text. -/
def Json.memberText (value : Json) (key : String) : String :=
  ((value.member? key).bind Json.text?).getD ""

/-- The media type that a request names. -/
def Request.contentTypeOf (value : Json) : Option String :=
  match value.member? "content_type" with
  | some named => named.text?
  | none => ((value.member? "body").bind Json.text?).map fun _ => "application/json"

/-- The request that a value describes. -/
def Request.ofJson (value : Json) : Request :=
  ⟨.ofName (value.memberText "method"), value.memberText "path", contentTypeOf value,
    value.memberText "body"⟩

/-- The member of a reply that holds its body, as a client reads it. -/
def Body.member (body : Body) : String × Json :=
  match (Json.parse body.toText).bind Json.expand? with
  | some value => ("json", value)
  | none => ("text", .string body.toText)

/-- The value that describes a reply. -/
def Reply.toJson (reply : Reply) : Json :=
  .object (("status", .ofNat reply.status) ::
    reply.headers.map (fun header => (header.1, .string header.2)) ++ [reply.body.member])

end Tabletop
