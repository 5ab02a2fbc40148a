import Tabletop.Number.Sum

/-!
# Blank Characters

The characters that separate words and that trimming removes: the twenty-five code points
of the Unicode property `White_Space`. Everything in the library that skips or strips
blanks goes through `isBlank`, on lists of characters; `strip` is the same on strings.

## Main definitions

* `isBlank`: whether a character has the property `White_Space`.
* `dropBlanks`, `dropEndBlanks`, `trim`: the text without the blanks at its start, at its
  end, at both.
* `strip`: `trim` on strings.
-/

namespace Tabletop.Text

/-- The code points of `White_Space`, as inclusive ranges in ascending order. -/
def blankRanges : List (Nat × Nat) :=
  [(0x0009, 0x000D), (0x0020, 0x0020), (0x0085, 0x0085), (0x00A0, 0x00A0), (0x1680, 0x1680),
   (0x2000, 0x200A), (0x2028, 0x2029), (0x202F, 0x202F), (0x205F, 0x205F), (0x3000, 0x3000)]

/-- A character is **blank** when Unicode gives it the property `White_Space`. -/
def isBlank (c : Char) : Bool :=
  blankRanges.any fun range => range.1 ≤ c.toNat && c.toNat ≤ range.2

/-- The text without the blanks at its start. -/
def dropBlanks (text : List Char) : List Char :=
  text.dropWhile isBlank

/-- The text without the blanks at its end. -/
def dropEndBlanks (text : List Char) : List Char :=
  (text.reverse.dropWhile isBlank).reverse

/-- The text without the blanks at either end. -/
def trim (text : List Char) : List Char :=
  dropEndBlanks (dropBlanks text)

/-- A string without the blanks at either end. -/
def strip (text : String) : String :=
  String.ofList (trim text.toList)

/-- Twenty-five characters are blank. -/
example : countOf (fun range => range.2 + 1 - range.1) blankRanges = 25 := rfl

/-- Stripping a string is **trimming its characters**. -/
@[simp]
theorem toList_strip (text : String) : (strip text).toList = trim text.toList :=
  String.toList_ofList

end Tabletop.Text
