import Tabletop.Json.Basic
import Tabletop.Number.Shortest
import Tabletop.Text.Hex

/-!
# Writing JSON

The compact text of a JSON value: no blanks, and in strings no more escapes than needed. A
quote, a backslash and the control characters below the space are escaped, five of these by
a letter and the others by four hexadecimal digits.

A float is written with its shortest digits and always looks like one. It is positional
while its leading digit stands for `10 ^ -5` up to `10 ^ 15`; outside that range it has one
digit before the point, and an exponent with its sign.

## Main definitions

* `Json.chars`, `Json.compact`: the compact text of a value.
* `Binary64.chars`: the text of a float.
-/

namespace Tabletop

open Text

/-! ### Floats -/

/-- The text of a decimal whose leading digit stands for `10 ^ (digits.length + exponent - 1)`. -/
def Decimal.chars (d : Decimal) : List Char :=
  let digits := numeral d.digits
  let point : Int := digits.length + d.exponent
  if 0 ≤ d.exponent ∧ point ≤ 16 then
    digits ++ List.replicate d.exponent.toNat '0' ++ ['.', '0']
  else if 0 < point ∧ point ≤ 16 then
    digits.take point.toNat ++ '.' :: digits.drop point.toNat
  else if -5 < point ∧ point ≤ 0 then
    '0' :: '.' :: List.replicate (-point).toNat '0' ++ digits
  else
    let fraction := digits.drop 1
    let power := point - 1
    digits.take 1 ++ (if fraction.isEmpty then [] else '.' :: fraction) ++
      'e' :: (if power < 0 then '-' else '+') :: numeral power.natAbs

/-- The text of a float. -/
def Binary64.chars (x : Binary64) : List Char :=
  let magnitude := if x.units = 0 then ['0', '.', '0'] else (shortest x.units).chars
  if x.negative then '-' :: magnitude else magnitude

/-- The text of a number. -/
def Number.chars : Number → List Char
  | integer value => intNumeral value
  | float value => value.chars

/-! ### Strings -/

/-- A character as it stands in a string. -/
def escapeChar (c : Char) : List Char :=
  if c = '"' then ['\\', '"']
  else if c = '\\' then ['\\', '\\']
  else if c = '\x08' then ['\\', 'b']
  else if c = '\x0c' then ['\\', 'f']
  else if c = '\n' then ['\\', 'n']
  else if c = '\r' then ['\\', 'r']
  else if c = '\t' then ['\\', 't']
  else if c.toNat < 0x20 then
    ['\\', 'u', '0', '0', hexDigit (c.toNat / 16), hexDigit (c.toNat % 16)]
  else [c]

/-- A string between quotes. -/
def quotedChars (text : List Char) : List Char :=
  '"' :: text.flatMap escapeChar ++ ['"']

/-! ### Values -/

namespace Json

mutual

/-- The compact text of a value. -/
def chars : Json → List Char
  | null => ['n', 'u', 'l', 'l']
  | bool true => ['t', 'r', 'u', 'e']
  | bool false => ['f', 'a', 'l', 's', 'e']
  | number value => value.chars
  | string value => quotedChars value.toList
  | array items => '[' :: itemsChars items ++ [']']
  | object members => '\x7b' :: membersChars members ++ ['\x7d']

/-- The texts of items, with commas in between. -/
def itemsChars : List Json → List Char
  | [] => []
  | [item] => chars item
  | item :: items => chars item ++ ',' :: itemsChars items

/-- The texts of members, with commas in between. -/
def membersChars : List (String × Json) → List Char
  | [] => []
  | [(key, value)] => quotedChars key.toList ++ ':' :: chars value
  | (key, value) :: members =>
    quotedChars key.toList ++ ':' :: chars value ++ ',' :: membersChars members

end

/-- The compact text of a value, as a string. -/
def compact (value : Json) : String :=
  String.ofList value.chars

end Json

/-- Integral floats keep a digit after the point. -/
example : (Binary64.ofNat 100).chars = "100.0".toList := by decide +kernel

/-- Large floats have an exponent with its sign. -/
example : (Binary64.ofNat (2 ^ 64)).chars = "1.8446744073709552e+19".toList := by
  decide +kernel

/-- Control characters are written with hexadecimal digits in lower case. -/
example : (Json.string "a\x1f\"").compact = "\"a\\u001f\\\"\"" := by decide +kernel

end Tabletop
