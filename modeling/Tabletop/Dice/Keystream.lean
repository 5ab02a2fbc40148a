import Tabletop.Number.Bounds

/-!
# Keystreams

The seeded generator behind the dice: the output words of the ChaCha stream cipher with
twelve rounds, a zero nonce and a 64-bit block counter. A keystream is its **key** and a
**position**, the number of words taken so far; word `i` is word `i % 16` of block `i / 16`.

A seed is spread over the eight words of a key by a linear congruential generator whose
outputs are permuted by a shift and a rotation that depend on the state itself.

A face in `1..=sides` is the high half of the product of a word and the number of sides,
plus one. Where the low half is so large that the next word could carry into the high half,
that word is taken too, and its own high half decides.

## Main definitions

* `Key.ofSeed`: the key that belongs to a seed.
* `Keystream`, `Keystream.next`, `Keystream.takeKey`: taking one word, and eight as a key.
* `Keystream.face`: taking a face.

## Main results

* `Keystream.face_mem`: a face lies between one and the number of sides.
-/

namespace Tabletop

/-- The eight words of a key. -/
abbrev Key := Vector UInt32 8

/-- The sixteen words of a block. -/
abbrev Block := Vector UInt32 16

/-! ### Blocks -/

/-- The word with its bits moved up by `n` places, those that fall out coming in below. -/
def rotateLeft (x n : UInt32) : UInt32 :=
  (x <<< n) ||| (x >>> (32 - n))

/-- The word with its bits moved down by `n` places, those that fall out coming in above. -/
def rotateRight (x n : UInt32) : UInt32 :=
  (x >>> n) ||| (x <<< (32 - n))

namespace Block

/-- One half of a quarter round: word `a` grows by word `b`, and word `d` takes up the sum
and is rotated. -/
def mix (a b d : Fin 16) (n : UInt32) (s : Block) : Block :=
  let s := s.set a (s[a] + s[b])
  s.set d (rotateLeft (s[d] ^^^ s[a]) n)

/-- A quarter round on four words of the block. -/
def quarterRound (a b c d : Fin 16) (s : Block) : Block :=
  mix c d b 7 (mix a b d 8 (mix c d b 12 (mix a b d 16 s)))

/-- A double round: quarter rounds on the four columns, then on the four diagonals. -/
def doubleRound (s : Block) : Block :=
  let s := quarterRound 3 7 11 15 (quarterRound 2 6 10 14
    (quarterRound 1 5 9 13 (quarterRound 0 4 8 12 s)))
  quarterRound 3 4 9 14 (quarterRound 2 7 8 13
    (quarterRound 1 6 11 12 (quarterRound 0 5 10 15 s)))

/-- The block before any round: four constants, the key, the counter in two words, and a
zero nonce. -/
def initial (key : Key) (counter : Nat) : Block :=
  #v[0x61707865, 0x3320646e, 0x79622d32, 0x6b206574,
    key[0], key[1], key[2], key[3], key[4], key[5], key[6], key[7],
    UInt32.ofNat counter, UInt32.ofNat (counter / wordRange), 0, 0]

/-- The output block: six double rounds, added to the block they began with. -/
def output (key : Key) (counter : Nat) : Block :=
  let first := initial key counter
  let last := doubleRound (doubleRound (doubleRound (doubleRound (doubleRound
    (doubleRound first)))))
  first.zipWith (· + ·) last

end Block

/-! ### Keys -/

namespace Key

/-- The next state of the generator that spreads a seed. -/
def seedStep (state : UInt64) : UInt64 :=
  state * 6364136223846793005 + 11634580027462260723

/-- The word that a state of that generator gives. -/
def seedWord (state : UInt64) : UInt32 :=
  rotateRight (((state >>> 18) ^^^ state) >>> 27).toUInt32 (state >>> 59).toUInt32

/-- The key that belongs to a seed: the words of the eight states that follow it. -/
def ofSeed (seed : UInt64) : Key :=
  let s₀ := seedStep seed
  let s₁ := seedStep s₀
  let s₂ := seedStep s₁
  let s₃ := seedStep s₂
  let s₄ := seedStep s₃
  let s₅ := seedStep s₄
  let s₆ := seedStep s₅
  let s₇ := seedStep s₆
  #v[seedWord s₀, seedWord s₁, seedWord s₂, seedWord s₃,
    seedWord s₄, seedWord s₅, seedWord s₆, seedWord s₇]

end Key

/-! ### Streams of words -/

/-- A keystream with some of its words taken. -/
structure Keystream where
  /-- The key of the stream. -/
  key : Key
  /-- The number of words taken so far. -/
  position : Nat
  deriving DecidableEq, Repr

namespace Keystream

/-- The stream of a key, from its first word on. -/
def ofKey (key : Key) : Keystream :=
  ⟨key, 0⟩

/-- The stream of a seed, from its first word on. -/
def ofSeed (seed : UInt64) : Keystream :=
  ofKey (Key.ofSeed seed)

/-- Word `i` of the stream of a key. -/
def word (key : Key) (i : Nat) : UInt32 :=
  (Block.output key (i / 16)).get ⟨i % 16, Nat.mod_lt _ (by decide)⟩

/-- Takes one word. -/
def next (g : Keystream) : UInt32 × Keystream :=
  (word g.key g.position, { g with position := g.position + 1 })

/-- Takes eight words as a key of their own. -/
def takeKey (g : Keystream) : Key × Keystream :=
  (Vector.ofFn fun i => word g.key (g.position + i), { g with position := g.position + 8 })

/-! ### Faces -/

/-- The high half of the product of a word and a number of sides. -/
def high (w : UInt32) (sides : Nat) : Nat :=
  w.toNat * sides / wordRange

/-- The low half of the product of a word and a number of sides. -/
def low (w : UInt32) (sides : Nat) : Nat :=
  w.toNat * sides % wordRange

/-- What the second word carries into the high half of the product of the first. -/
def carry (w second : UInt32) (sides : Nat) : Nat :=
  (low w sides + high second sides) / wordRange

/-- Takes a face of a die. The second word is taken only where it could carry. -/
def face (g : Keystream) (sides : Nat) : Nat × Keystream :=
  let (w, g) := g.next
  if low w sides ≤ wordRange - sides then
    (1 + high w sides, g)
  else
    let (second, g) := g.next
    (1 + high w sides + carry w second sides, g)

/-- A word is **less than the number of words**. -/
theorem toNat_lt_wordRange (w : UInt32) : w.toNat < wordRange :=
  w.toNat_lt

/-- The high word of a product is a face less one, **below the number of sides**. -/
theorem high_lt (w : UInt32) {sides : Nat} (hpos : 0 < sides) : high w sides < sides :=
  Nat.div_lt_of_lt_mul (Nat.mul_lt_mul_of_pos_right (toNat_lt_wordRange w) hpos)

/-- A second word carries **at most one** into the high word of the first. -/
theorem carry_le_one (w second : UInt32) {sides : Nat} (hpos : 0 < sides)
    (hsides : sides ≤ wordRange) : carry w second sides ≤ 1 := by
  have hlow : low w sides < wordRange := Nat.mod_lt _ (by decide)
  have hhigh := high_lt second hpos
  exact Nat.le_of_lt_succ (Nat.div_lt_of_lt_mul (by omega))

/-- On the last face the low half is too small for a carry: a word falls short of
`wordRange`, so the product falls short of `sides * wordRange` by the number of sides at
least. -/
theorem low_le_of_high_eq {w : UInt32} {sides : Nat} (h : high w sides + 1 = sides) :
    low w sides ≤ wordRange - sides := by
  have hw := toNat_lt_wordRange w
  have hmul : w.toNat * sides + sides ≤ wordRange * sides := by
    rw [← Nat.succ_mul]
    exact Nat.mul_le_mul_right _ hw
  have hdiv : wordRange * high w sides + low w sides = w.toNat * sides := Nat.div_add_mod _ _
  have hlast : wordRange * sides = wordRange * high w sides + wordRange := by
    rw [← Nat.mul_succ, Nat.succ_eq_add_one, h]
  omega

/-- Where the low half is small enough, one word gives the face. -/
theorem face_of_low_le {g : Keystream} {sides : Nat}
    (h : low (word g.key g.position) sides ≤ wordRange - sides) :
    g.face sides = (1 + high (word g.key g.position) sides, ⟨g.key, g.position + 1⟩) :=
  if_pos h

/-- Where it is not, the next word gives the carry. -/
theorem face_of_not_low_le {g : Keystream} {sides : Nat}
    (h : ¬ low (word g.key g.position) sides ≤ wordRange - sides) :
    g.face sides =
      (1 + high (word g.key g.position) sides +
        carry (word g.key g.position) (word g.key (g.position + 1)) sides,
        ⟨g.key, g.position + 2⟩) :=
  if_neg h

/-- A face lies between one and the number of sides. -/
theorem face_mem (g : Keystream) {sides : Nat} (hpos : 0 < sides) (hsides : sides ≤ wordRange) :
    1 ≤ (g.face sides).1 ∧ (g.face sides).1 ≤ sides := by
  have hhigh := high_lt (word g.key g.position) hpos
  by_cases hlow : low (word g.key g.position) sides ≤ wordRange - sides
  · rw [face_of_low_le hlow]
    constructor <;> dsimp only <;> omega
  · have hcarry :=
      carry_le_one (word g.key g.position) (word g.key (g.position + 1)) hpos hsides
    have hlast := mt low_le_of_high_eq hlow
    rw [face_of_not_low_le hlow]
    constructor <;> dsimp only <;> omega

end Keystream

end Tabletop
