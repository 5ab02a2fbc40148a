import Tabletop.Config.Toml
import Tabletop.Text.Blank
import Tabletop.Text.Width

/-!
# Environment Variables

Settings can be given in environment variables. The name of such a variable is the name of
the setting behind a mark; upper and lower case make no difference in either, nor do blanks
around them. Points in the name separate the keys of nested tables, none of which may be
empty.

The text of a variable is read as a value where it has the form of one: a boolean, a number,
a string between quotes, a list between brackets, or a table of keys and values between
braces. Text without quotes ends at the next comma, bracket or brace. A text that does not
have such a form as a whole is a string as it stands.

A string between quotes may hold escapes. Of the characters before the first one it keeps as
many **bytes** as there are characters: all of them if they are ASCII, fewer otherwise.

## Main definitions

* `Environment.value`: the value of a variable.
* `Environment.layer`: the layer of settings that variables give.
-/

namespace Tabletop.Environment

open Text

/-- The mark in front of the names of settings, in lower case. -/
def mark : String := "dungeonbot_"

/-! ### Values -/

/-- A blank between the parts of a value. -/
def isSpace (c : Char) : Bool :=
  c == ' ' || c == '\t' || c == '\n' || c == '\x0c' || c == '\r'

/-- The text without the blanks at its start. -/
def skipSpace (text : List Char) : List Char :=
  text.dropWhile isSpace

/-- A character at which text without quotes ends. -/
def isSeparator (c : Char) : Bool :=
  c == ',' || c == '\x7b' || c == '\x7d' || c == '[' || c == ']'

/-- Whether a text is a decimal fraction: digits around a point, at least one in all, with a
sign in front and an exponent behind if need be. -/
def isFraction (text : List Char) : Bool :=
  let unsigned := Toml.dropSign text
  let whole := unsigned.takeWhile Char.isDigit
  match unsigned.dropWhile Char.isDigit with
  | '.' :: rest =>
    let fraction := rest.takeWhile Char.isDigit
    !(whole.isEmpty && fraction.isEmpty) &&
      match rest.dropWhile Char.isDigit with
      | [] => true
      | c :: power =>
        (c == 'e' || c == 'E') && (parseNumeral? (Toml.dropSign power)).isSome
  | _ => false

/-- The integer that a text denotes, if it has 64 bits. -/
def integer? (text : List Char) : Option Int :=
  match text with
  | '-' :: digits =>
    ((parseNumeral? digits).map fun n => -(n : Int)).filter fitsSigned
  | '+' :: digits => ((parseNumeral? digits).filter (· ≤ maxUnsigned)).map Int.ofNat
  | digits => ((parseNumeral? digits).filter (· ≤ maxUnsigned)).map Int.ofNat

/-- The value of a text without quotes. -/
def plainValue (text : List Char) : ConfigValue :=
  if isFraction text then .fraction
  else
    match integer? text with
    | some n => .integer n
    | none => .text (String.ofList text)

/-- Items with commas in between and perhaps at the end, up to the closing character. -/
def readItems (item : List Char → Option (α × List Char)) (close : Char)
    (text : List Char) : Option (List α × List Char) :=
  match text with
  | [] => none
  | c :: rest =>
    if c = close then some ([], rest)
    else
      match item (c :: rest) with
      | none => none
      | some (first, after) =>
        match after with
        | [] => none
        | d :: next =>
          if d = close then some ([first], next)
          else if d = ',' ∧ next.length < (c :: rest).length then
            (readItems item close next).map fun items => (first :: items.1, items.2)
          else none
termination_by text.length
decreasing_by simp_all only [List.length_cons]

/-- The characters of a string that stand before its first escape and before its end. -/
def beforeEscape (text : List Char) : List Char :=
  text.takeWhile fun c => c != '"' && c != '\\'

/-- Whether a string has an escape. -/
def hasEscape (text : List Char) : Bool :=
  (text.drop (beforeEscape text).length).head? == some '\\'

/-- A string after its opening quote. -/
def readQuoted (text : List Char) : Option (String × List Char) :=
  match Toml.readBasic text with
  | none => none
  | some (content, rest) =>
    let count := (beforeEscape text).length
    let kept := if hasEscape text then takeBytes count (content.take count)
      else content.take count
    some (String.ofList (kept ++ content.drop count), rest)

/-- A key of a table. -/
def readKey : List Char → Option (String × List Char)
  | '"' :: rest => readQuoted rest
  | text =>
    let key := text.takeWhile Toml.isBareChar
    if key.isEmpty then none else some (String.ofList key, text.dropWhile Toml.isBareChar)

/-- A key, an equals sign and a value. -/
def readMember (value : List Char → Option (ConfigValue × List Char)) (text : List Char) :
    Option ((String × ConfigValue) × List Char) :=
  match readKey (skipSpace text) with
  | none => none
  | some (key, rest) =>
    match skipSpace rest with
    | '=' :: rest => (value rest).map fun v => ((key, v.1), v.2)
    | _ => none

/-- Reads something and the blanks behind it. -/
def spaced (read : List Char → Option (α × List Char)) (text : List Char) :
    Option (α × List Char) :=
  (read text).map fun v => (v.1, skipSpace v.2)

/-- A value that is neither a list nor a table. -/
def readScalar (text : List Char) : Option (ConfigValue × List Char) :=
  if "true".toList.isPrefixOf text then some (.bool true, text.drop 4)
  else if "false".toList.isPrefixOf text then some (.bool false, text.drop 5)
  else
    match text with
    | '"' :: rest => (readQuoted rest).map fun s => (.text s.1, s.2)
    | '\'' :: rest =>
      match rest with
      | c :: '\'' :: rest => some (.text (String.singleton c), rest)
      | _ => none
    | _ =>
      some (plainValue (trim (text.takeWhile fun c => !isSeparator c)),
        text.dropWhile fun c => !isSeparator c)

/-- The value at the start of a text, and the text after it. -/
def readValue : (depth : Nat) → List Char → Option (ConfigValue × List Char)
  | depth, text =>
    match skipSpace text with
    | '[' :: rest =>
      match depth with
      | 0 => none
      | depth + 1 =>
        (readItems (spaced (readValue depth)) ']' rest).map fun items =>
          (.list items.1, items.2)
    | '\x7b' :: rest =>
      match depth with
      | 0 => none
      | depth + 1 =>
        (readItems (readMember (spaced (readValue depth))) '\x7d' rest).map fun members =>
          (.table (ConfigTable.setAll [] members.1), members.2)
    | rest => readScalar rest

/-- The value of a variable. -/
def value (text : String) : ConfigValue :=
  match spaced (readValue text.toList.length) text.toList with
  | some (value, []) => value
  | _ => .text text

/-! ### Names -/

/-- The path of the setting that a variable names, if it has the mark. -/
def path? (name : String) : Option (List String) :=
  let name := (trim name.toList).map Char.toLower
  if mark.toList.isPrefixOf name then
    let path := (String.ofList (trim (name.drop mark.length))).splitOn "."
    if "" ∈ path then none else some path
  else none

/-- A value below a path of keys. -/
def nest (value : ConfigValue) : List String → ConfigValue
  | [] => value
  | key :: path => .table [(key, nest value path)]

/-- The layer of settings that variables give, each merged over those before it. -/
def layer (named : List (String × String)) : ConfigTable :=
  named.foldl
    (fun table named =>
      match path? named.1 with
      | some (key :: path) => table.merge [(key, nest (value named.2) path)]
      | _ => table)
    []

end Tabletop.Environment
