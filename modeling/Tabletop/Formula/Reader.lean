import Tabletop.Formula.Basic
import Tabletop.Formula.Fault
import Tabletop.Text.Blank
import Tabletop.Text.Width

/-!
# Reading Formulas

A formula is read from left to right, one term a round. `Scan` is the state of a reading:
how many bytes have been read, what is left, and how many dice the terms so far roll. Each
round skips blanks, takes a sign, skips blanks again and takes a term; the reading ends
where only blanks are left, and at the first fault.

A term is a run of digits, or two runs of digits around a `d` of either case with nothing
in between. The faults of a term are looked for in a fixed order: its form, the number of
its dice, the dice of the whole formula, the size of its dice.

## Main definitions

* `Scan`: the state of a reading.
* `Scan.term`, `Scan.round`, `Scan.rounds`: reading one term, one round, all rounds.
* `Formula.parse`: the formula that a text denotes, or the first fault in it.

## Main results

* `Scan.round_shorter`: every round that reads a term leaves a shorter rest, so the reading
  ends on every text.
-/

namespace Tabletop

open Text

/-- The state of a reading. -/
structure Scan where
  /-- The number of bytes read so far. -/
  position : Nat
  /-- The text that is left. -/
  rest : List Char
  /-- The number of dice in the terms read so far. -/
  dice : Nat
  deriving Repr

namespace Scan

/-- Nothing of the text has been read. -/
def start (text : List Char) : Scan :=
  ⟨0, text, 0⟩

/-- The longest run of characters in the class `p` at the start of what is left. -/
def run (p : Char → Bool) (s : Scan) : List Char :=
  s.rest.takeWhile p

/-- The state after the longest run of characters in the class `p`. -/
def skip (p : Char → Bool) (s : Scan) : Scan :=
  { s with position := s.position + byteSize (s.run p), rest := s.rest.dropWhile p }

/-- The fault of the given kind that begins here. -/
def fault (s : Scan) (kind : Fault.Kind) (fragment : List Char) : Fault :=
  ⟨kind, s.position, String.ofList fragment⟩

/-- A character that belongs to a word: neither blank nor a sign. -/
def isWordChar (c : Char) : Bool :=
  !isBlank c && (Sign.ofSymbol? c).isNone

/-- The letter between the number of dice and the number of their sides. -/
def isDiceMark (c : Char) : Bool :=
  c == 'd' || c == 'D'

/-! ### Terms -/

/-- Reads a constant. Where no digit stands, the whole word is malformed. -/
def constant (s : Scan) : Except Fault (Term × Scan) :=
  let digits := s.run Char.isDigit
  if digits.isEmpty then
    .error (s.fault .malformedTerm (s.run isWordChar))
  else if numeralValue digits > maxNumeral then
    .error (s.fault .malformedTerm digits)
  else
    .ok (.constant (numeralValue digits), s.skip Char.isDigit)

/-- Reads a group of dice, where `mark` is the letter after the digits of its count and
`rest` the text after that letter. -/
def diceGroup (s : Scan) (mark : Char) (rest : List Char) : Except Fault (Term × Scan) :=
  let countDigits := s.run Char.isDigit
  let sides : Scan :=
    { s with position := s.position + byteSize countDigits + mark.utf8Size, rest := rest }
  let sidesDigits := sides.run Char.isDigit
  let text := countDigits ++ mark :: sidesDigits
  let count := numeralValue countDigits
  if countDigits.isEmpty || sidesDigits.isEmpty || count > maxNumeral then
    .error (s.fault .malformedTerm text)
  else if count = 0 then
    .error (s.fault .nonPositiveCount countDigits)
  else if count > maxDicePerTerm then
    .error (s.fault .tooManyDice countDigits)
  else if s.dice + count > maxDicePerFormula then
    .error (s.fault .tooManyDice text)
  else if numeralValue sidesDigits > maxNumeral then
    .error (s.fault .malformedTerm text)
  else if numeralValue sidesDigits < 2 then
    .error (sides.fault .invalidSides sidesDigits)
  else
    .ok (.dice count (numeralValue sidesDigits),
      { sides.skip Char.isDigit with dice := s.dice + count })

/-- Reads a term: a group of dice if a dice mark follows the digits, else a constant. -/
def term (s : Scan) : Except Fault (Term × Scan) :=
  match s.rest.dropWhile Char.isDigit with
  | c :: rest => if isDiceMark c then s.diceGroup c rest else s.constant
  | [] => s.constant

/-! ### Rounds -/

/-- Reads one round: a sign and a term, with blanks before either. There is nothing to read
where only blanks are left, and anything but a sign is a fault up to the end of the text. -/
def round (s : Scan) : Except Fault (Option (SignedTerm × Scan)) :=
  let s := s.skip isBlank
  match s.rest with
  | [] => .ok none
  | c :: rest =>
    match Sign.ofSymbol? c with
    | none => .error (s.fault .trailingGarbage (dropEndBlanks s.rest))
    | some sign =>
      let afterSign : Scan := { s with position := s.position + c.utf8Size, rest := rest }
      match (afterSign.skip isBlank).term with
      | .error fault => .error fault
      | .ok (term, next) => .ok (some (⟨sign, term⟩, next))

/-- Skipping characters leaves **no more** than there was. -/
theorem length_rest_skip_le (p : Char → Bool) (s : Scan) :
    (s.skip p).rest.length ≤ s.rest.length :=
  (List.dropWhile_sublist p).length_le

/-- Behind a constant there is no more left than in front of it: **its digits** are skipped. -/
theorem constant_rest_le {s next : Scan} {t : Term} (h : s.constant = .ok (t, next)) :
    next.rest.length ≤ s.rest.length := by
  rw [constant] at h
  iterate 2 (split at h; · cases h)
  cases h
  exact length_rest_skip_le _ _

/-- Behind a group of dice there is no more left than **behind its mark**. -/
theorem diceGroup_rest_le {s next : Scan} {mark : Char} {rest : List Char} {t : Term}
    (h : s.diceGroup mark rest = .ok (t, next)) : next.rest.length ≤ rest.length := by
  rw [diceGroup] at h
  iterate 6 (split at h; · cases h)
  cases h
  exact (List.dropWhile_sublist _).length_le

/-- Behind a term there is no more left than in front of it. That a round leaves less is due to
its sign. -/
theorem term_rest_le {s next : Scan} {t : Term} (h : s.term = .ok (t, next)) :
    next.rest.length ≤ s.rest.length := by
  rw [term] at h
  split at h
  · rename_i c rest heq
    split at h
    · have hrest := diceGroup_rest_le h
      have hle := (List.dropWhile_sublist Char.isDigit (l := s.rest)).length_le
      rw [heq, List.length_cons] at hle
      omega
    · exact constant_rest_le h
  · exact constant_rest_le h

/-- A round that reads a term leaves **less** than it found: it has read a sign at least. -/
theorem round_shorter {s next : Scan} {t : SignedTerm} (h : s.round = .ok (some (t, next))) :
    next.rest.length < s.rest.length := by
  rw [round] at h
  dsimp only at h
  split at h
  · cases h
  · rename_i c rest heq
    split at h
    · cases h
    · split at h
      · cases h
      · rename_i hterm
        cases h
        have h₁ := term_rest_le hterm
        have h₂ := length_rest_skip_le isBlank
          { s.skip isBlank with
            position := (s.skip isBlank).position + c.utf8Size, rest := rest }
        have h₃ := length_rest_skip_le isBlank s
        rw [heq, List.length_cons] at h₃
        simp only at h₂
        omega

/-- Reads rounds until only blanks are left. -/
def rounds (s : Scan) : Except Fault (List SignedTerm) :=
  match _h : s.round with
  | .error fault => .error fault
  | .ok none => .ok []
  | .ok (some (t, next)) =>
    match next.rounds with
    | .error fault => .error fault
    | .ok others => .ok (t :: others)
termination_by s.rest.length
decreasing_by exact round_shorter (by assumption)

end Scan

/-! ### Formulas -/

/-- The formula that a text denotes, or the first fault in it. -/
def Formula.ofChars (text : List Char) : Except Fault Formula :=
  let s := (Scan.start text).skip isBlank
  if s.rest.isEmpty then
    .error ⟨.emptyInput, 0, ""⟩
  else
    match s.term with
    | .error fault => .error fault
    | .ok (first, next) =>
      match next.rounds with
      | .error fault => .error fault
      | .ok others => .ok ⟨String.ofList (trim text), ⟨.plus, first⟩ :: others⟩

/-- The formula that a text denotes, or the first fault in it. -/
def Formula.parse (text : String) : Except Fault Formula :=
  Formula.ofChars text.toList

end Tabletop
