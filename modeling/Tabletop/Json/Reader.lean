import Tabletop.Json.Lexeme

/-!
# Reading JSON

A strict reader of JSON. Lists and objects may be nested up to a given depth, so the reader
recurses on that depth, and within a list or an object on the number of items that may still
follow. The length of the text bounds that number, since every item takes some of the text.
Members are kept as they are written.

The same reader also skips values whose content does not matter. Then there is no bound on
the depth besides the length of the text, and strings and numerals only need the right
form.

## Main definitions

* `Json.read`: the value at the start of a text.
* `Json.parse`: the value that a whole text denotes.
* `Json.skip`: the text after the value at the start of a text.
-/

namespace Tabletop.Json

/-- The most lists and objects that may be open at once. -/
def maxDepth : Nat := 127

/-- The text after a word, if the text begins with it. -/
def dropWord? (word : String) (text : List Char) : Option (List Char) :=
  if word.toList.isPrefixOf text then some (text.drop word.length) else none

/-- Items separated by commas, up to and including the closing character. There is at least
one item and at most `limit`. -/
def readItems (item : List Char → Option (α × List Char)) (close : Char) :
    (limit : Nat) → List Char → Option (List α × List Char)
  | 0, _ => none
  | limit + 1, text =>
    match item text with
    | none => none
    | some (first, rest) =>
      match skipSpace rest with
      | [] => none
      | c :: next =>
        if c = close then some ([first], next)
        else if c = ',' then
          (readItems item close limit next).map fun items => (first :: items.1, items.2)
        else none

/-- A list of items after its opening character, which may be empty. -/
def readSequence (item : List Char → Option (α × List Char)) (close : Char) (limit : Nat)
    (text : List Char) : Option (List α × List Char) :=
  match skipSpace text with
  | [] => none
  | c :: rest => if c = close then some ([], rest) else readItems item close limit (c :: rest)

/-- A key, from the blanks before it to the colon after it. -/
def readKey (escape : List Char → Option (Char × Nat)) (text : List Char) :
    Option (String × List Char) :=
  match skipSpace text with
  | '"' :: rest =>
    match readStringWith escape rest with
    | none => none
    | some (key, rest) =>
      match skipSpace rest with
      | ':' :: rest => some (String.ofList key, rest)
      | _ => none
  | _ => none

/-- A member: a key, and the value that `value` reads after the colon. -/
def readMember (escape : List Char → Option (Char × Nat))
    (value : List Char → Option (Json × List Char)) (text : List Char) :
    Option ((String × Json) × List Char) :=
  match readKey escape text with
  | none => none
  | some (key, rest) => (value rest).map fun v => ((key, v.1), v.2)

/-- A value that is neither a list nor an object. -/
def readScalar (leaves : Leaves) (text : List Char) : Option (Json × List Char) :=
  match text with
  | 'n' :: _ => (dropWord? "null" text).map fun rest => (null, rest)
  | 't' :: _ => (dropWord? "true" text).map fun rest => (bool true, rest)
  | 'f' :: _ => (dropWord? "false" text).map fun rest => (bool false, rest)
  | '"' :: rest =>
    (readStringWith leaves.escape rest).map fun s => (string (String.ofList s.1), s.2)
  | _ =>
    match readNumeral text with
    | none => none
    | some (numeral, rest) => (leaves.number numeral).map fun n => (number n, rest)

/-- The value at the start of a text, with at most `depth` lists and objects open at once,
none of them longer than `limit`. -/
def readWith (leaves : Leaves) (limit : Nat) : (depth : Nat) → List Char →
    Option (Json × List Char)
  | depth, text =>
    match skipSpace text with
    | '[' :: rest =>
      match depth with
      | 0 => none
      | depth + 1 =>
        (readSequence (readWith leaves limit depth) ']' limit rest).map
          fun items => (array items.1, items.2)
    | '\x7b' :: rest =>
      match depth with
      | 0 => none
      | depth + 1 =>
        (readSequence (readMember leaves.escape (readWith leaves limit depth)) '\x7d' limit
          rest).map fun members => (object members.1, members.2)
    | rest => readScalar leaves rest

/-- The value at the start of a text, with at most `depth` lists and objects open at once. No
list has more items than the text has characters. -/
def read (depth : Nat) (text : List Char) : Option (Json × List Char) :=
  readWith .strict text.length depth text

/-- The text after the value at the start of a text, whatever the value is. The text has at
most `length` characters. -/
def skip (length : Nat) (text : List Char) : Option (List Char) :=
  (readWith .lenient length length text).map Prod.snd

/-- The value that a whole text denotes, with at most `depth` lists and objects open at
once. -/
def parseWithin (depth : Nat) (text : String) : Option Json :=
  match read depth text.toList with
  | some (value, rest) => if (skipSpace rest).isEmpty then some value else none
  | none => none

/-- The value that a whole text denotes. -/
def parse (text : String) : Option Json :=
  parseWithin maxDepth text

end Tabletop.Json
