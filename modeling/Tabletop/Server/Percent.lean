import Tabletop.Text.Hex

/-!
# Percent Encoding

A segment of a path stands for a text. In its bytes, a percent sign followed by two
hexadecimal digits stands for the byte of that value; all other bytes, plus signs and lone
percent signs among them, stand for themselves. The bytes that come out must be UTF-8.

## Main definitions

* `Percent.decode?`: the text that a segment stands for.
* `Percent.encode`: the segment in which every byte of a text is encoded.
-/

namespace Tabletop.Percent

open Text

/-- The value of two hexadecimal digits, given as bytes. -/
def byte? (high low : UInt8) : Option UInt8 := do
  let high ← hexValue? (Char.ofNat high.toNat)
  let low ← hexValue? (Char.ofNat low.toNat)
  return UInt8.ofNat (high * 16 + low)

/-- The percent sign as a byte. -/
def sign : UInt8 := 0x25

/-- The bytes that encoded bytes stand for. -/
def decodeBytes : List UInt8 → List UInt8
  | [] => []
  | [a] => [a]
  | [a, b] => [a, b]
  | a :: b :: c :: rest =>
    if a = sign then
      match byte? b c with
      | some decoded => decoded :: decodeBytes rest
      | none => a :: decodeBytes (b :: c :: rest)
    else a :: decodeBytes (b :: c :: rest)

/-- The text that a segment stands for, if its bytes are UTF-8. -/
def decode? (segment : List Char) : Option String :=
  String.fromUTF8? ⟨(decodeBytes (String.ofList segment).toUTF8.toList).toArray⟩

/-- A percent sign and the two digits of a byte. -/
def encodeByte (b : UInt8) : List Char :=
  ['%', hexDigit (b.toNat / 16), hexDigit (b.toNat % 16)]

/-- The segment in which every byte of the text is encoded. -/
def encode (text : String) : List Char :=
  text.toUTF8.toList.flatMap encodeByte

/-- A percent sign without two digits stands for itself, and so does a plus sign. -/
example : decode? "1%2B2+%zz%4".toList = some "1+2+%zz%4" := by decide +kernel

/-- Bytes that are not UTF-8 stand for no text. -/
example : decode? "%ff".toList = none := by decide +kernel

end Tabletop.Percent
