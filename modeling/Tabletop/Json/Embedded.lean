import Tabletop.Json.Reader

/-!
# Embedded JSON Texts

A JSON value may hold another one as a **text**. An object whose first key is a certain one
stands for the value that its text denotes; such an object has no other members, and its one
member is a string that holds a whole JSON text. Otherwise it stands for nothing, and nor
does any value around it. Where the key is not the first, it is a key like any other.

An embedded text may embed others. As a part of the text around it, each is shorter, so the
length of the outermost bounds how deep they go. The bound on nested lists and objects holds
in every text of its own.

## Main definitions

* `Json.expand?`: a value with the values of its embedded texts in their places.
-/

namespace Tabletop.Json

/-- The key of an embedded text. -/
def embeddedKey : String := "$serde_json::private::RawValue"

/-- Whether an object with these members embeds a text, or fails to. -/
def isEmbedding (members : List (String × Json)) : Bool :=
  members.head?.any fun m => m.1 == embeddedKey

/-- The string of an object with a single member. -/
def onlyText? : List (String × Json) → Option String
  | [(_, string text)] => some text
  | _ => none

mutual

/-- The value with embedded texts replaced by what `denote` makes of them. -/
def expandWith (denote : String → Option Json) : Json → Option Json
  | array items => (expandItems denote items).map array
  | object members =>
    if isEmbedding members then (onlyText? members).bind denote
    else (expandMembers denote members).map object
  | other => some other

/-- The items of a list with embedded texts replaced. -/
def expandItems (denote : String → Option Json) : List Json → Option (List Json)
  | [] => some []
  | item :: items =>
    match expandWith denote item, expandItems denote items with
    | some item, some items => some (item :: items)
    | _, _ => none

/-- The members of an object with embedded texts replaced. -/
def expandMembers (denote : String → Option Json) :
    List (String × Json) → Option (List (String × Json))
  | [] => some []
  | (key, value) :: members =>
    match expandWith denote value, expandMembers denote members with
    | some value, some members => some ((key, value) :: members)
    | _, _ => none

end

/-- The value of an embedded text, with at most `limit` texts one inside the other. -/
def denotation? : (limit : Nat) → String → Option Json
  | 0, _ => none
  | limit + 1, text => (parse text).bind (expandWith (denotation? limit))

/-- The value with the values of its embedded texts in their places. -/
def expand? (value : Json) : Option Json :=
  expandWith (fun text => denotation? text.length text) value

end Tabletop.Json
