import Tabletop.Json.Basic
import Tabletop.Number.Bounds
import Tabletop.Text.Hex
import Tabletop.Text.Numeral

/-!
# Lexemes of JSON

The smallest parts of a JSON text: blanks, the characters of strings, and numerals. Each
reader takes the text from where its lexeme begins and answers with what it has read and
the text after it, or with `none` if no such lexeme begins there.

## Numbers

A numeral denotes an integer if it has neither fraction nor exponent and fits into 64 bits,
unsigned above zero and signed below; the negative zero is a float. The digits of any other
numeral are collected into 64 bits from left to right. Once a digit does not fit, that digit
and the later ones of the same part are left out: those of the whole part raise the
exponent, those of the fraction are lost. The collected number, rounded, is then scaled by
the power of ten, rounded again. A numeral that is too large for binary64 has no value.

## Main definitions

* `readString`: the characters of a string, after its opening quote.
* `Numeral`, `readNumeral`, `Numeral.value?`: the parts of a numeral, and the number that
  they denote.
* `Leaves`: how strings and numerals are read inside a value.
-/

namespace Tabletop.Json

open Text

/-- The blanks of JSON: space, tab, line feed and carriage return. -/
def isSpace (c : Char) : Bool :=
  c == ' ' || c == '\t' || c == '\n' || c == '\r'

/-- The text without the blanks at its start. -/
def skipSpace (text : List Char) : List Char :=
  text.dropWhile isSpace

/-! ### Strings -/

/-- Four hexadecimal digits. -/
def readUnit : List Char → Option (Nat × List Char)
  | a :: b :: c :: d :: rest => do
    let a ← hexValue? a
    let b ← hexValue? b
    let c ← hexValue? c
    let d ← hexValue? d
    return (((a * 16 + b) * 16 + c) * 16 + d, rest)
  | _ => none

/-- The character that the letter after a backslash stands for. -/
def escaped? : Char → Option Char
  | '"' => some '"'
  | '\\' => some '\\'
  | '/' => some '/'
  | 'b' => some '\x08'
  | 'f' => some '\x0c'
  | 'n' => some '\n'
  | 'r' => some '\r'
  | 't' => some '\t'
  | _ => none

/-- Whether a unit is the first half of a surrogate pair. -/
def isHighSurrogate (u : Nat) : Bool :=
  0xD800 ≤ u && u ≤ 0xDBFF

/-- Whether a unit is the second half of a surrogate pair. -/
def isLowSurrogate (u : Nat) : Bool :=
  0xDC00 ≤ u && u ≤ 0xDFFF

/-- The second half of a surrogate pair, as an escape of its own. -/
def lowSurrogate? : List Char → Option Nat
  | '\\' :: 'u' :: rest => do
    let (low, _) ← readUnit rest
    if isLowSurrogate low then some low else none
  | _ => none

/-- The character that hexadecimal digits stand for, and the number of characters that they
take. Half a surrogate pair stands for none, and a pair takes the escape of its second half
as well. -/
def codePoint? (text : List Char) : Option (Char × Nat) := do
  let (u, rest) ← readUnit text
  if isLowSurrogate u then none
  else if isHighSurrogate u then
    let low ← lowSurrogate? rest
    return (Char.ofNat (0x10000 + (u - 0xD800) * 0x400 + (low - 0xDC00)), 10)
  else return (Char.ofNat u, 4)

/-- The character that an escape stands for, and the number of characters that it takes
after its backslash. -/
def escape? : List Char → Option (Char × Nat)
  | 'u' :: rest => (codePoint? rest).map fun e => (e.1, e.2 + 1)
  | c :: _ => (escaped? c).map fun c => (c, 1)
  | [] => none

/-- An escape whose hexadecimal digits need not stand for a character. -/
def lenientEscape? : List Char → Option (Char × Nat)
  | 'u' :: rest => (readUnit rest).map fun _ => ('u', 5)
  | c :: _ => (escaped? c).map fun c => (c, 1)
  | [] => none

/-- The characters of a string up to its closing quote, where the first `taken` characters of
the text belong to an escape that has been read. Control characters may not stand in a string
as they are. -/
def readStringFrom (escape : List Char → Option (Char × Nat)) :
    (taken : Nat) → List Char → Option (List Char × List Char)
  | _, [] => none
  | taken + 1, _ :: rest => readStringFrom escape taken rest
  | 0, c :: rest =>
    if c = '"' then some ([], rest)
    else if c = '\\' then
      match escape rest with
      | none => none
      | some (c, taken) => (readStringFrom escape taken rest).map fun s => (c :: s.1, s.2)
    else if c.toNat < 0x20 then none
    else (readStringFrom escape 0 rest).map fun s => (c :: s.1, s.2)

/-- The characters of a string after its opening quote, where `escape` reads what follows a
backslash. -/
def readStringWith (escape : List Char → Option (Char × Nat)) (text : List Char) :
    Option (List Char × List Char) :=
  readStringFrom escape 0 text

/-- The characters of a string, after its opening quote. -/
def readString (text : List Char) : Option (List Char × List Char) :=
  readStringWith escape? text

/-! ### Numerals -/

/-- The parts of a numeral. -/
structure Numeral where
  /-- Whether a minus sign stands in front. -/
  negative : Bool
  /-- The digits before the point. -/
  whole : List Char
  /-- The digits after the point, if there is one. -/
  fraction : Option (List Char)
  /-- The exponent, if there is one. -/
  exponent : Option Int
  deriving DecidableEq, Repr

/-- A run of digits, at least one. -/
def readDigits (text : List Char) : Option (List Char × List Char) :=
  let digits := text.takeWhile Char.isDigit
  if digits.isEmpty then none else some (digits, text.dropWhile Char.isDigit)

/-- The digits before the point: a zero alone, or digits that begin with another. -/
def readWhole (text : List Char) : Option (List Char × List Char) := do
  let (digits, rest) ← readDigits text
  if digits.head? = some '0' ∧ digits.length > 1 then none else some (digits, rest)

/-- A point and the digits after it, if a point stands there. -/
def readFraction : List Char → Option (Option (List Char) × List Char)
  | '.' :: rest => (readDigits rest).map fun d => (some d.1, d.2)
  | rest => some (none, rest)

/-- The digits of an exponent with the sign in front of them. -/
def readPower : List Char → Option (Int × List Char)
  | '+' :: rest => (readDigits rest).map fun d => ((numeralValue d.1 : Int), d.2)
  | '-' :: rest => (readDigits rest).map fun d => (-(numeralValue d.1 : Int), d.2)
  | rest => (readDigits rest).map fun d => ((numeralValue d.1 : Int), d.2)

/-- An exponent, if its letter stands there. -/
def readExponent : List Char → Option (Option Int × List Char)
  | c :: rest =>
    if c = 'e' ∨ c = 'E' then (readPower rest).map fun p => (some p.1, p.2)
    else some (none, c :: rest)
  | [] => some (none, [])

/-- The parts of a numeral after its sign. -/
def readUnsigned (negative : Bool) (text : List Char) : Option (Numeral × List Char) := do
  let (whole, rest) ← readWhole text
  let (fraction, rest) ← readFraction rest
  let (exponent, rest) ← readExponent rest
  return (⟨negative, whole, fraction, exponent⟩, rest)

/-- The parts of a numeral. -/
def readNumeral : List Char → Option (Numeral × List Char)
  | '-' :: rest => readUnsigned true rest
  | rest => readUnsigned false rest

namespace Numeral

/-- The number that `digits` continue while it fits into 64 bits, and how many digits no
longer fit. -/
def collect (collected : Nat) : (digits : List Char) → Nat × Nat
  | [] => (collected, 0)
  | d :: digits =>
    let next := collected * 10 + (d.toNat - '0'.toNat)
    if next > maxUnsigned then (collected, digits.length + 1) else collect next digits

/-- The integer that the numeral denotes, if it denotes one. -/
def integer? (n : Numeral) : Option Int :=
  let value := numeralValue n.whole
  if n.fraction.isSome || n.exponent.isSome then none
  else if n.negative then
    if 0 < value ∧ fitsSigned (-(value : Int)) then some (-(value : Int)) else none
  else if value ≤ maxUnsigned then some value
  else none

/-- The float that the numeral denotes, if it is not too large for one. -/
def float? (n : Numeral) : Option Binary64 :=
  let (collected, dropped) := collect 0 n.whole
  let fraction := n.fraction.getD []
  let (collected, lost) := collect collected fraction
  let exponent : Int := n.exponent.getD 0 + dropped - (fraction.length - lost : Nat)
  ((Binary64.ofNat collected).scale? exponent).map (Binary64.withSign n.negative)

/-- The number that the numeral denotes, if there is one. -/
def value? (n : Numeral) : Option Number :=
  match n.integer? with
  | some value => some (.integer value)
  | none => n.float?.map .float

end Numeral

/-! ### Leaves -/

/-- How the strings and the numerals inside a value are read. -/
structure Leaves where
  /-- Reads what follows a backslash. -/
  escape : List Char → Option (Char × Nat)
  /-- The number that a numeral denotes. -/
  number : Numeral → Option Number

/-- Every string and every numeral has to denote something. -/
def Leaves.strict : Leaves :=
  ⟨escape?, Numeral.value?⟩

/-- Strings and numerals only need the right form: halves of surrogate pairs and numbers of
any size will do. -/
def Leaves.lenient : Leaves :=
  ⟨lenientEscape?, fun _ => some (.integer 0)⟩

end Tabletop.Json
