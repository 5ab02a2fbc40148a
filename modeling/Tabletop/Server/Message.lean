import Tabletop.Json.Writer

/-!
# Requests and Replies

What the server is asked and what it answers, as far as the answer depends on it. The body of a
request is a **text of any length**. Where a body is to be read, bytes that are no UTF-8 and bodies
that are longer than the transport takes (it answers them with 413) are refused before they come to
the endpoint: they are left out here, and neither of them changes the server.

## Main definitions

* `Method`, `Request`: a request.
* `Body`, `Reply`: a reply.
-/

namespace Tabletop

/-- The method of a request. -/
inductive Method where
  | get
  | head
  | post
  | put
  | delete
  | options
  /-- Any other method; no path has one. -/
  | other (name : String)
  deriving DecidableEq, Repr, Inhabited

namespace Method

/-- The method of a name. Names are matched exactly. -/
def ofName : String → Method
  | "GET" => get
  | "HEAD" => head
  | "POST" => post
  | "PUT" => put
  | "DELETE" => delete
  | "OPTIONS" => options
  | name => other name

/-- The name of a method. -/
def name : Method → String
  | get => "GET"
  | head => "HEAD"
  | post => "POST"
  | put => "PUT"
  | delete => "DELETE"
  | options => "OPTIONS"
  | other name => name

end Method

/-- A request. Its other headers, the origin among them, play no part in the answer. -/
structure Request where
  /-- What is to be done. -/
  method : Method
  /-- The path as it was sent, which may hold a query. -/
  path : String
  /-- The media type of the body, if one is named. -/
  contentType : Option String
  /-- The text of the body, empty if there is none. Its length has no bound. -/
  body : String
  deriving DecidableEq, Repr, Inhabited

/-- The body of a reply. -/
inductive Body where
  | empty
  | text (content : String)
  | json (value : Json)
  deriving Repr, Inhabited

/-- The text that is sent for a body. -/
def Body.toText : Body → String
  | empty => ""
  | text content => content
  | json value => value.compact

/-- A reply. -/
structure Reply where
  /-- The status code. -/
  status : Nat
  /-- The headers with their values. -/
  headers : List (String × String)
  /-- The body. -/
  body : Body
  deriving Repr, Inhabited

namespace Reply

/-- A reply without body and headers. -/
def bare (status : Nat) : Reply :=
  ⟨status, [], .empty⟩

/-- A reply with a plain text. -/
def plain (status : Nat) (text : String) : Reply :=
  ⟨status, [("content-type", "text/plain; charset=utf-8")], .text text⟩

/-- A reply with a JSON value. -/
def json (status : Nat) (value : Json) : Reply :=
  ⟨status, [("content-type", "application/json")], .json value⟩

/-- The reply with a header more. -/
def withHeader (reply : Reply) (name value : String) : Reply :=
  { reply with headers := reply.headers ++ [(name, value)] }

/-- The reply without its body; the headers stay. -/
def withoutBody (reply : Reply) : Reply :=
  { reply with body := .empty }

end Reply

end Tabletop
