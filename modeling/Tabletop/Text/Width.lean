/-!
# Widths in Bytes

Positions in a text are counted in bytes of its UTF-8 form, in which a character takes one
to four bytes. `byteSize` is that count for a list of characters.

## Main definitions

* `byteSize`: the number of bytes of a text.
* `takeBytes`: the whole characters at the start of a text that fit into some bytes.
-/

namespace Tabletop.Text

/-- The number of bytes that the characters take in UTF-8. -/
def byteSize : List Char → Nat
  | [] => 0
  | c :: cs => c.utf8Size + byteSize cs

@[simp]
theorem byteSize_nil : byteSize [] = 0 :=
  rfl

@[simp]
theorem byteSize_cons (c : Char) (cs : List Char) :
    byteSize (c :: cs) = c.utf8Size + byteSize cs :=
  rfl

/-- The bytes of two texts are **counted together**. -/
@[simp]
theorem byteSize_append (s t : List Char) : byteSize (s ++ t) = byteSize s + byteSize t := by
  induction s with
  | nil => simp
  | cons c s ih => simp [ih, Nat.add_assoc]

/-- The characters at the start of a text that take at most `limit` bytes together. -/
def takeBytes : (limit : Nat) → List Char → List Char
  | _, [] => []
  | limit, c :: cs => if c.utf8Size ≤ limit then c :: takeBytes (limit - c.utf8Size) cs else []

end Tabletop.Text
