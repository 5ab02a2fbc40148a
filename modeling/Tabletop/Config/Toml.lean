import Tabletop.Config.DateTime
import Tabletop.Config.Value
import Tabletop.Number.Binary64
import Tabletop.Number.Bounds
import Tabletop.Text.Hex

/-!
# TOML Documents

A reader of TOML 1.0 for settings: comments, bare, quoted and dotted keys, all four kinds of
strings, integers in four bases, fractions, booleans, dates and times, lists, inline tables,
tables and lists of tables. A path has a limited number of keys, and values a limited depth.

A document is a series of lines. Each line defines something at a path of keys, and nothing
may be defined twice. What a line may extend depends on how a table came about, so tables
carry their **origin** until the document is complete.

## Main definitions

* `Toml.readValue`: the value at the start of a text.
* `Toml.Node`, `Toml.define?`: a document in the making, and one definition.
* `Toml.parse?`: the table that a whole document denotes.
-/

namespace Tabletop.Toml

open Text

/-! ### Characters -/

/-- A blank inside a line. -/
def isBlankInLine (c : Char) : Bool :=
  c == ' ' || c == '\t'

/-- The text without the blanks at its start. -/
def skipBlanks (text : List Char) : List Char :=
  text.dropWhile isBlankInLine

/-- A character that may stand in comments and in strings: no control character but tab. -/
def isPlain (c : Char) : Bool :=
  c == '\t' || (0x20 ≤ c.toNat && c != '\x7f')

/-- The text after a line break. -/
def dropNewline? : List Char → Option (List Char)
  | '\n' :: rest => some rest
  | '\r' :: '\n' :: rest => some rest
  | _ => none

/-- The text without a comment at its start, up to the end of the line. -/
def skipComment : List Char → List Char
  | '#' :: rest => rest.dropWhile isPlain
  | text => text

/-- The text after the end of a line: blanks, a comment, and a line break or the end of the
document. -/
def dropLineEnd? (text : List Char) : Option (List Char) :=
  match skipComment (skipBlanks text) with
  | [] => some []
  | rest => dropNewline? rest

/-- The text without the blanks, comments and line breaks at its start. -/
def skipTrivia (text : List Char) : List Char :=
  match dropNewline? (skipComment (skipBlanks text)) with
  | none => skipComment (skipBlanks text)
  | some rest => if rest.length < text.length then skipTrivia rest else rest
termination_by text.length

/-! ### Strings -/

/-- The character of a code point given in hexadecimal digits. -/
def readCodePoint (count : Nat) (text : List Char) : Option (Char × List Char) :=
  let digits := text.take count
  if digits.length = count && digits.all fun c => (hexValue? c).isSome then
    let code := digits.foldl (fun n c => n * 16 + (hexValue? c).getD 0) 0
    if code.isValidChar then some (Char.ofNat code, text.drop count) else none
  else none

/-- The character that stands after a backslash. -/
def readEscape : List Char → Option (Char × List Char)
  | 'u' :: rest => readCodePoint 4 rest
  | 'U' :: rest => readCodePoint 8 rest
  | 'b' :: rest => some ('\x08', rest)
  | 't' :: rest => some ('\t', rest)
  | 'n' :: rest => some ('\n', rest)
  | 'f' :: rest => some ('\x0c', rest)
  | 'r' :: rest => some ('\r', rest)
  | '"' :: rest => some ('"', rest)
  | '\\' :: rest => some ('\\', rest)
  | _ => none

/-- The characters of a string on one line, after its opening quote. -/
def readBasic (text : List Char) : Option (List Char × List Char) :=
  match text with
  | [] => none
  | c :: rest =>
    if c = '"' then some ([], rest)
    else if c = '\\' then
      match readEscape rest with
      | none => none
      | some (c, next) =>
        if next.length < rest.length then
          (readBasic next).map fun s => (c :: s.1, s.2)
        else none
    else if isPlain c then (readBasic rest).map fun s => (c :: s.1, s.2)
    else none
termination_by text.length
decreasing_by all_goals (simp only [List.length_cons]; omega)

/-- The characters of a string without escapes, after its opening quote. -/
def readLiteral (text : List Char) : Option (List Char × List Char) :=
  match text.dropWhile fun c => isPlain c && c != '\'' with
  | '\'' :: rest => some (text.takeWhile fun c => isPlain c && c != '\'', rest)
  | _ => none

/-- The text without the blanks and line breaks at its start. -/
def skipBlankLines : List Char → List Char
  | [] => []
  | '\r' :: '\n' :: rest => skipBlankLines rest
  | c :: rest => if isBlankInLine c || c == '\n' then skipBlankLines rest else c :: rest

/-- The text after a backslash at the end of a line, and the blank lines after it. -/
def dropContinuation? (text : List Char) : Option (List Char) :=
  (dropNewline? (skipBlanks text)).map skipBlankLines

/-- The quotes at the end of a long string that still belong to it, and the text after the
three that close it. Two quotes at most belong to the string. -/
def readClosing? (quote : Char) (text : List Char) : Option (List Char × List Char) :=
  let quotes := min 5 (text.takeWhile (· == quote)).length
  if 3 ≤ quotes then some (List.replicate (quotes - 3) quote, text.drop quotes) else none

/-- The characters of a string over several lines, after its opening quotes. Escapes count
only where `escapes` says so. -/
def readLong (quote : Char) (escapes : Bool) (text : List Char) :
    Option (List Char × List Char) :=
  match readClosing? quote text with
  | some closing => some closing
  | none =>
    match text with
    | [] => none
    | c :: rest =>
      if c = '\\' ∧ escapes = true then
        match dropContinuation? rest with
        | some next =>
          if next.length < rest.length then readLong quote escapes next else none
        | none =>
          match readEscape rest with
          | none => none
          | some (c, next) =>
            if next.length < rest.length then
              (readLong quote escapes next).map fun s => (c :: s.1, s.2)
            else none
      else
        match dropNewline? (c :: rest) with
        | some next =>
          if next.length < (c :: rest).length then
            (readLong quote escapes next).map fun s => ('\n' :: s.1, s.2)
          else none
        | none =>
          if isPlain c then (readLong quote escapes rest).map fun s => (c :: s.1, s.2)
          else none
termination_by text.length
decreasing_by all_goals (simp only [List.length_cons] at *; omega)

/-- The text without a line break at its start. -/
def skipNewline (text : List Char) : List Char :=
  (dropNewline? text).getD text

/-- The characters of a string of any kind. -/
def readString : List Char → Option (List Char × List Char)
  | '"' :: '"' :: '"' :: rest => readLong '"' true (skipNewline rest)
  | '\'' :: '\'' :: '\'' :: rest => readLong '\'' false (skipNewline rest)
  | '"' :: rest => readBasic rest
  | '\'' :: rest => readLiteral rest
  | _ => none

/-! ### Keys -/

/-- A character of a key without quotes. -/
def isBareChar (c : Char) : Bool :=
  c.isAlphanum || c == '_' || c == '-'

/-- A key on its own. -/
def readSimpleKey : List Char → Option (String × List Char)
  | '"' :: rest => (readBasic rest).map fun s => (String.ofList s.1, s.2)
  | '\'' :: rest => (readLiteral rest).map fun s => (String.ofList s.1, s.2)
  | text =>
    let key := text.takeWhile isBareChar
    if key.isEmpty then none else some (String.ofList key, text.dropWhile isBareChar)

/-- Keys with points in between, at least one. -/
def readKeys (text : List Char) : Option (List String × List Char) :=
  match readSimpleKey (skipBlanks text) with
  | none => none
  | some (key, rest) =>
    match skipBlanks rest with
    | '.' :: next =>
      if next.length < text.length then
        (readKeys next).map fun keys => (key :: keys.1, keys.2)
      else none
    | rest => some ([key], rest)
termination_by text.length

/-- The most keys in a path, and the most lists and inline tables open at once. -/
def maxDepth : Nat := 79

/-- A key, or several with points in between: the path of a definition. -/
def readPath (text : List Char) : Option (List String × List Char) :=
  (readKeys text).filter fun keys => keys.1.length ≤ maxDepth

/-! ### Numbers -/

/-- The digits of a run in which single underscores may stand between digits. -/
def dropUnderscores? (isDigit : Char → Bool) : List Char → Option (List Char)
  | [] => none
  | [c] => if isDigit c then some [c] else none
  | c :: '_' :: rest =>
    if isDigit c then (dropUnderscores? isDigit rest).map (c :: ·) else none
  | c :: rest => if isDigit c then (dropUnderscores? isDigit rest).map (c :: ·) else none

/-- The number of digits in the given base, all below it. -/
def baseValue? (base : Nat) (text : List Char) : Option Nat :=
  (dropUnderscores? (fun c => (hexValue? c).any (· < base)) text).map
    (·.foldl (fun n c => n * base + (hexValue? c).getD 0) 0)

/-- The number of decimal digits without a leading zero. -/
def decimalValue? (text : List Char) : Option Nat :=
  match baseValue? 10 text with
  | none => none
  | some n => if text.head? = some '0' ∧ text.length > 1 then none else some n

/-- The integer that a token denotes. -/
def integer? (token : List Char) : Option Int :=
  let value := match token with
    | '0' :: 'x' :: digits => (baseValue? 16 digits).map Int.ofNat
    | '0' :: 'o' :: digits => (baseValue? 8 digits).map Int.ofNat
    | '0' :: 'b' :: digits => (baseValue? 2 digits).map Int.ofNat
    | '-' :: digits => (decimalValue? digits).map fun n => -(n : Int)
    | '+' :: digits => (decimalValue? digits).map Int.ofNat
    | digits => (decimalValue? digits).map Int.ofNat
  value.filter fitsSigned

/-- The token without a sign at its start. -/
def dropSign : List Char → List Char
  | '+' :: rest => rest
  | '-' :: rest => rest
  | text => text

/-- The power of ten that an exponent denotes. Where there is none it is zero. -/
def exponent? : List Char → Option Int
  | [] => some 0
  | c :: rest =>
    if c = 'e' ∨ c = 'E' then
      match rest with
      | '-' :: digits => (baseValue? 10 digits).map fun n => -(n : Int)
      | _ => (baseValue? 10 (dropSign rest)).map Int.ofNat
    else none

/-- A character of a run of digits with underscores. -/
def isDigitOrUnderscore (c : Char) : Bool :=
  c.isDigit || c == '_'

/-- The digits of a fraction without sign, taken as one number, and the power of ten that
they are multiplied by. -/
def fraction? (unsigned : List Char) : Option (Nat × Int) := do
  let whole ← decimalValue? (unsigned.takeWhile isDigitOrUnderscore)
  match unsigned.dropWhile isDigitOrUnderscore with
  | [] => none
  | '.' :: rest =>
    let digits ← dropUnderscores? Char.isDigit (rest.takeWhile isDigitOrUnderscore)
    let power ← exponent? (rest.dropWhile isDigitOrUnderscore)
    return (whole * Nat.pow 10 digits.length + numeralValue digits, power - digits.length)
  | rest => return (whole, ← exponent? rest)

/-- Whether a token denotes a fraction, an infinity or no number. A fraction above all numbers
of the format is refused, while one below them all stands for the negative infinity. -/
def isFraction (token : List Char) : Bool :=
  let unsigned := dropSign token
  if unsigned = "inf".toList ∨ unsigned = "nan".toList then true
  else
    match fraction? unsigned with
    | none => false
    | some (digits, power) => token.head? == some '-' || !Binary64.overflows digits power

/-- A character of a number or of a word. -/
def isTokenChar (c : Char) : Bool :=
  isBareChar c || c == '+' || c == '.'

/-- A boolean or a number. -/
def readToken (text : List Char) : Option (ConfigValue × List Char) :=
  let token := text.takeWhile isTokenChar
  let rest := text.dropWhile isTokenChar
  if token = "true".toList then some (.bool true, rest)
  else if token = "false".toList then some (.bool false, rest)
  else
    match integer? token with
    | some n => some (.integer n, rest)
    | none => if isFraction token then some (.fraction, rest) else none

/-- A moment stands in a configuration as a table with its text under one key. -/
def momentValue (m : Moment) : ConfigValue :=
  .table [("$__toml_private_datetime", .text (String.ofList m.chars))]

/-! ### Documents in the making -/

/-- How a table came about. -/
inductive Origin where
  /-- As a part of the path of a header. -/
  | implied
  /-- As a part of a dotted key. -/
  | dotted
  /-- By a header of its own. -/
  | headed
  deriving DecidableEq, Repr

/-- What is defined under a key. -/
inductive Node where
  /-- A value that cannot be extended, inline tables and lists among them. -/
  | value (value : ConfigValue)
  /-- A table that may be extended. -/
  | table (origin : Origin) (members : List (String × Node))
  /-- A list of tables, the latest first. -/
  | tables (latest : List (String × Node)) (earlier : List (List (String × Node)))
  deriving Repr

/-- The members of a table in the order of their definitions. -/
abbrev Members := List (String × Node)

/-- The members with one replaced or, where there is none of its key, put at the end. -/
def put (key : String) (node : Node) : Members → Members
  | [] => [(key, node)]
  | (other, held) :: members =>
    if key = other then (key, node) :: members else (other, held) :: put key node members

/-- A part of the path of a definition: its key, and whether it comes from a dotted key
rather than from a header. -/
structure Step where
  /-- The key. -/
  key : String
  /-- Whether the step comes from a dotted key. -/
  isDotted : Bool

/-- What the last key of a path is defined as, given what is there already. -/
abbrev Definition := Option Node → Option Node

/-- The members after a definition at a path below them. A dotted key may lead through tables
without a header of their own, but defines something only in those that dotted keys made. -/
def define? (define : Definition) (last : String) : List Step → Members → Option Members
  | [], members => (define (members.lookup last)).map fun node => put last node members
  | step :: steps, members =>
    match members.lookup step.key with
    | none =>
      (define? define last steps []).map fun inner =>
        put step.key (.table (if step.isDotted then .dotted else .implied) inner) members
    | some (.table origin inner) =>
      if step.isDotted ∧ (origin = .headed ∨ steps.isEmpty ∧ origin = .implied) then none
      else
        (define? define last steps inner).map fun inner =>
          put step.key (.table origin inner) members
    | some (.tables latest earlier) =>
      if step.isDotted ∧ steps.isEmpty then none
      else
        (define? define last steps latest).map fun latest =>
          put step.key (.tables latest earlier) members
    | some (.value _) => none

/-- Defines a value, where nothing is defined yet. -/
def valueDefinition (value : ConfigValue) : Definition
  | none => some (.value value)
  | some _ => none

/-- Defines a table by its header, where there is none but an implied one. -/
def tableDefinition : Definition
  | none => some (.table .headed [])
  | some (.table .implied members) => some (.table .headed members)
  | some _ => none

/-- Defines one more table of a list of tables. -/
def tablesDefinition : Definition
  | none => some (.tables [] [])
  | some (.tables latest earlier) => some (.tables [] (latest :: earlier))
  | some _ => none

mutual

/-- The value of a complete node. -/
def Node.toValue : Node → ConfigValue
  | .value v => v
  | .table _ members => .table (membersToTable members)
  | .tables latest earlier =>
    .list ((tablesToItems earlier).reverse ++ [.table (membersToTable latest)])

/-- The table of complete members. -/
def membersToTable : List (String × Node) → ConfigTable
  | [] => []
  | (key, node) :: members => ConfigTable.set key node.toValue (membersToTable members)

/-- The items of a complete list of tables, in the same order. -/
def tablesToItems : List (List (String × Node)) → List ConfigValue
  | [] => []
  | members :: others => .table (membersToTable members) :: tablesToItems others

end

/-- The members after an assignment to a path inside the table of a header. -/
def assign? (header : List String) (path : List String) (value : ConfigValue)
    (members : Members) : Option Members :=
  match path.getLast? with
  | none => none
  | some last =>
    define? (valueDefinition value) last
      (header.map (⟨·, false⟩) ++ path.dropLast.map (⟨·, true⟩)) members

/-! ### Values -/

/-- Items of a list, with commas in between and perhaps at the end, up to the bracket. -/
def readItems (item : List Char → Option (ConfigValue × List Char)) (text : List Char) :
    Option (List ConfigValue × List Char) :=
  match skipTrivia text with
  | ']' :: rest => some ([], rest)
  | inner =>
    match item inner with
    | none => none
    | some (first, rest) =>
      match skipTrivia rest with
      | ']' :: rest => some ([first], rest)
      | ',' :: next =>
        if next.length < text.length then
          (readItems item next).map fun items => (first :: items.1, items.2)
        else none
      | _ => none
termination_by text.length

/-- A key, an equals sign and a value. -/
def readAssignment (value : List Char → Option (ConfigValue × List Char))
    (text : List Char) : Option ((List String × ConfigValue) × List Char) :=
  match readPath text with
  | none => none
  | some (path, rest) =>
    match rest with
    | '=' :: rest => (value (skipBlanks rest)).map fun v => ((path, v.1), v.2)
    | _ => none

/-- The members of an inline table, with commas in between, up to the brace. -/
def readInline (value : List Char → Option (ConfigValue × List Char)) (members : Members)
    (text : List Char) : Option (Members × List Char) :=
  match readAssignment value text with
  | none => none
  | some ((path, v), rest) =>
    match assign? [] path v members with
    | none => none
    | some members =>
      match skipBlanks rest with
      | '\x7d' :: rest => some (members, rest)
      | ',' :: next =>
        if next.length < text.length then readInline value members next else none
      | _ => none
termination_by text.length

/-- The value at the start of a text. -/
def readValue : (depth : Nat) → List Char → Option (ConfigValue × List Char)
  | depth, text =>
    match text with
    | '[' :: rest =>
      match depth with
      | 0 => none
      | depth + 1 =>
        (readItems (readValue depth) rest).map fun items => (.list items.1, items.2)
    | '\x7b' :: rest =>
      match depth with
      | 0 => none
      | depth + 1 =>
        match skipBlanks rest with
        | '\x7d' :: rest => some (.table [], rest)
        | inner =>
          (readInline (readValue depth) [] inner).map fun m =>
            (.table (membersToTable m.1), m.2)
    | '"' :: _ | '\'' :: _ =>
      (readString text).map fun s => (.text (String.ofList s.1), s.2)
    | _ =>
      match Moment.read text with
      | some (moment, rest) => some (momentValue moment, rest)
      | none => readToken text

/-! ### Lines -/

/-- A document in the making: its members, and the path of the latest header. -/
structure Draft where
  /-- What has been defined. -/
  members : Members
  /-- The path of the table that assignments go to. -/
  header : List String

/-- A header between brackets: the path of a table. -/
def readHeader (close : List Char) (text : List Char) : Option (List String × List Char) :=
  match readPath text with
  | none => none
  | some (path, rest) =>
    if close.isPrefixOf rest then some (path, rest.drop close.length) else none

/-- The draft after a header. -/
def Draft.enter? (d : Draft) (define : Definition) (path : List String) : Option Draft :=
  match path.getLast? with
  | none => none
  | some last =>
    (define? define last (path.dropLast.map (⟨·, false⟩)) d.members).map fun members =>
      ⟨members, path⟩

/-- The draft after one line that is not blank, and the text after that line's content. -/
def Draft.readLine (d : Draft) : List Char → Option (Draft × List Char)
  | '[' :: '[' :: rest =>
    match readHeader [']', ']'] rest with
    | none => none
    | some (path, rest) => (d.enter? tablesDefinition path).map fun d => (d, rest)
  | '[' :: rest =>
    match readHeader [']'] rest with
    | none => none
    | some (path, rest) => (d.enter? tableDefinition path).map fun d => (d, rest)
  | text =>
    match readAssignment (readValue maxDepth) text with
    | none => none
    | some ((path, value), rest) =>
      (assign? d.header path value d.members).map fun members =>
        ({ d with members := members }, rest)

/-- The draft after all lines. -/
def Draft.readLines (d : Draft) (text : List Char) : Option Draft :=
  match skipTrivia text with
  | [] => some d
  | c :: rest =>
    match d.readLine (c :: rest) with
    | none => none
    | some (d, rest) =>
      match dropLineEnd? rest with
      | none => none
      | some next => if next.length < text.length then d.readLines next else none
termination_by text.length

/-- The text without a byte order mark at its start. -/
def skipMark : List Char → List Char
  | '\ufeff' :: rest => rest
  | text => text

/-- The table that a whole document denotes. -/
def parse? (text : String) : Option ConfigTable :=
  ((Draft.mk [] []).readLines (skipMark text.toList)).map fun d => membersToTable d.members

end Tabletop.Toml
