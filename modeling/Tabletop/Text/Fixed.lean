import Tabletop.Text.Numeral

/-!
# Fixed Parts

Parts of a text whose length is known beforehand: single characters, and numerals with a
fixed number of digits.

## Main definitions

* `dropChar?`: the text after a certain character.
* `fixedNumeral`, `readFixed`: writing and reading a numeral of a fixed number of digits.
-/

namespace Tabletop.Text

/-- The text after a character. -/
def dropChar? (c : Char) : List Char → Option (List Char)
  | [] => none
  | first :: rest => if first = c then some rest else none

/-- The digits of a number, with zeros in front where it has fewer than `count`. -/
def fixedNumeral (count n : Nat) : List Char :=
  List.replicate (count - (numeral n).length) '0' ++ numeral n

/-- The number that the next `count` characters denote, if they are all digits. -/
def readFixed (count : Nat) (text : List Char) : Option (Nat × List Char) :=
  let digits := text.take count
  if digits.length = count && digits.all Char.isDigit then
    some (numeralValue digits, text.drop count)
  else none

/-- Short numbers are filled up with zeros. -/
example : fixedNumeral 4 79 = "0079".toList := by decide

/-- What was written is read back, and no digit more. -/
example : readFixed 2 "0712".toList = some (7, "12".toList) := by decide

end Tabletop.Text
