/-!
# Media Types

Whether a `Content-Type` announces JSON. A media type is a type, a slash and a subtype,
followed by parameters after semicolons. The names are compared without regard to case. The
type has to be `application`, and the subtype `json` or one whose **suffix**, the part after
its last plus sign, is `json`; the part before that plus sign counts as the subtype. A plus
sign at the very start of the subtype is an ordinary character.

A parameter is a name, an equals sign and a value, which is a token or stands between
quotes. Parameters do not matter, but have to be well-formed.

## Main definitions

* `MediaType.isJson`: whether a media type announces JSON.
-/

namespace Tabletop.MediaType

/-- A character of a token. -/
def isTokenChar (c : Char) : Bool :=
  c.isAlphanum || "!#$%&'*+-.^_`|~".toList.contains c

/-- A character that may stand between quotes. -/
def isQuotedChar (c : Char) : Bool :=
  0x20 ≤ c.toNat && c.toNat < 0x7F

/-- The text after a value between quotes, given the text after the opening quote. The first
character belongs to the value whatever it is. -/
def dropQuoted? : List Char → Option (List Char)
  | [] => none
  | c :: rest =>
    if isQuotedChar c then
      match rest.dropWhile fun c => isQuotedChar c && c != '"' with
      | '"' :: rest => some rest
      | _ => none
    else none

/-- The text after a parameter and the semicolon that ends it, given the text at its name. -/
def dropParameter? (text : List Char) : Option (List Char) :=
  if (text.takeWhile isTokenChar).isEmpty then none
  else
    match text.dropWhile isTokenChar with
    | '=' :: '"' :: rest =>
      match dropQuoted? rest with
      | none => none
      | some rest =>
        match rest.dropWhile (· == ' ') with
        | [] => some []
        | ';' :: rest => some rest
        | _ => none
    | '=' :: rest =>
      match rest.dropWhile isTokenChar with
      | [] => some []
      | ';' :: next => if (rest.takeWhile isTokenChar).isEmpty then none else some next
      | _ => none
    | _ => none

/-- Whether the text is a series of well-formed parameters, with spaces before each. -/
def areParameters (text : List Char) : Bool :=
  match text.dropWhile (· == ' ') with
  | [] => true
  | c :: rest =>
    match dropParameter? (c :: rest) with
    | none => false
    | some next => if next.length < text.length then areParameters next else false
termination_by text.length

/-- The part of a subtype before its last plus sign, and the suffix after it, if there is a
plus sign after the first character. -/
def splitSuffix (subtype : List Char) : List Char × Option (List Char) :=
  let suffix := (subtype.drop 1).reverse.takeWhile (· != '+')
  if '+' ∈ subtype.drop 1 then
    (subtype.take (subtype.length - suffix.length - 1), some suffix.reverse)
  else (subtype, none)

/-- Whether the subtype is JSON, or has JSON as its suffix. -/
def isJsonSubtype (subtype : List Char) : Bool :=
  let (main, suffix) := splitSuffix (subtype.map Char.toLower)
  main == "json".toList || suffix == some "json".toList

/-- Whether a media type announces JSON. -/
def isJson (mediaType : String) : Bool :=
  let text := mediaType.toList
  let type := text.takeWhile isTokenChar
  match text.dropWhile isTokenChar with
  | '/' :: rest =>
    let subtype := rest.takeWhile isTokenChar
    type.map Char.toLower == "application".toList && isJsonSubtype subtype &&
      match rest.dropWhile isTokenChar with
      | [] => true
      | ';' :: parameters => areParameters parameters
      | _ => false
  | _ => false

/-- Case does not matter, and parameters may follow. -/
example : isJson "Application/JSON; charset=utf-8" = true := by decide +kernel

/-- A suffix will do. -/
example : isJson "application/vnd.api+json" = true := by decide +kernel

/-- A longer subtype will not. -/
example : isJson "application/jsonx" = false := by decide +kernel

end Tabletop.MediaType
