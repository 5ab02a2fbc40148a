import Mathlib.Data.PFun
import Tabletop.Formula.Reader
import Tabletop.Proofs.Text.Cutting

/-!
# Reading with a Cursor

A `Scan` carries along the text that is left. A program that reads a formula has nothing but the
text and a **cursor**, the number of bytes in front of what it reads next. To look at a character it
cuts the text from there to the end; to take a run of digits it remembers where the run began, moves
the cursor behind it, and cuts from the one byte to the other.

This module spells the reading of a formula out in this way, one cut after another. A reading keeps
a **log** of all that it does. It may fail: at a fault of the text, and at a cut where the text
cannot be cut. It need not end either: its loops are fixed points of partial functions, and nothing
is presupposed about how often they turn. What there is to prove is that it ends nevertheless, that
no cut fails, and that the outcome is that of `Formula.parse`.

## Main definitions

* `Cursor`, `Cursor.Step`, `Cursor.Progress`: where a reading stands, and what it has done.
* `Cursor.Reading`, `Cursor.Stop`: readings, and why they stop.
* `Cursor.Reading.loop`: the same reading, turn after turn.
* `Cursor.cut`, `Cursor.peek`, `Cursor.skip`, `Cursor.run`: moving the cursor, looking at the text.
* `Cursor.term`, `Cursor.rounds`, `Cursor.formula`: reading a term, all rounds, a formula.
* `Cursor.Reading.Runs`: that a reading ends, and how.

## Main results

* `Cursor.Reading.loop_eq`: what follows on the first turn of a loop.
* `Cursor.Reading.Runs.bind`, `Cursor.Reading.Runs.bind_error`: one reading after another.
-/

open Tabletop.Text

namespace Tabletop

/-- Where a reading **stands** in its text. -/
structure Cursor where
  /-- The number of bytes in front of the cursor. -/
  position : Nat
  /-- The number of dice counted so far. -/
  dice : Nat

namespace Cursor

/-! ### Readings and their logs -/

/-- What a reading **does** in one step. -/
inductive Action where
  /-- A round begins. -/
  | beginRound
  /-- The cursor moves behind the next character. -/
  | move
  /-- The text is cut from one byte to another. -/
  | cut (start stop : Nat)
  /-- A term is accepted and its dice are counted. -/
  | accept (t : Term)

/-- The term that is accepted, if one is. -/
def Action.accepted? : Action → Option Term
  | accept t => some t
  | _ => none

/-- A **step** of a reading. -/
structure Step where
  /-- What is done. -/
  action : Action
  /-- The cursor after that. -/
  cursor : Cursor

/-- How far a reading has **come**. -/
structure Progress where
  /-- Where it stands. -/
  cursor : Cursor
  /-- The steps that it has taken. -/
  log : List Step

/-- Nothing has been done yet. -/
def Progress.start : Progress :=
  ⟨⟨0, 0⟩, []⟩

/-- Why a reading **stops** before it comes to a result. -/
inductive Stop where
  /-- The text has a fault. -/
  | fault (e : Fault)
  /-- The text cannot be cut where it is to be. -/
  | badCut

/-- A **reading** gives a value or stops, and has come so far by then; or it never ends. -/
abbrev Reading : Type → Type :=
  ExceptT Stop (StateT Progress Part)

/-- The number of bytes in front of the cursor. -/
def currentPosition : Reading Nat :=
  return (← get).cursor.position

/-- The number of dice counted so far. -/
def currentDice : Reading Nat :=
  return (← get).cursor.dice

/-- Takes a step, which may change the cursor, and logs it. -/
def step (action : Action) (change : Cursor → Cursor) : Reading Unit :=
  modify fun p => ⟨change p.cursor, p.log ++ [⟨action, change p.cursor⟩]⟩

/-- Accepts a term. -/
def accept (t : Term) : Reading Term := do
  step (.accept t) fun cursor => { cursor with dice := cursor.dice + t.diceCount }
  return t

/-- Stops at a fault. -/
def refuse {α : Type} (kind : Fault.Kind) (position : Nat) (fragment : List Char) : Reading α :=
  throw (.fault ⟨kind, position, String.ofList fragment⟩)

/-! ### Loops -/

namespace Reading

variable {α β : Type}

/-- Whether a loop is **over** after a turn, with an outcome, or turns again from here. -/
def settle : Except Stop (β ⊕ α) × Progress → (Except Stop β × Progress) ⊕ (α × Progress)
  | (.error stop, p) => .inl (.error stop, p)
  | (.ok (.inl b), p) => .inl (.ok b, p)
  | (.ok (.inr a), p) => .inr (a, p)

/-- One **turn** of a loop, from a value and from where the reading stands. -/
def turn (body : α → Reading (β ⊕ α)) :
    α × Progress →. (Except Stop β × Progress) ⊕ (α × Progress) :=
  fun x => ((body x.1).run.run x.2).map settle

/-- Takes turns **until one gives a result**, from the value that the turn before has left. -/
def loop (body : α → Reading (β ⊕ α)) (a : α) : Reading β :=
  ExceptT.mk fun p => (turn body).fix (a, p)

/-- A turn comes to what **an outcome of the body** settles. -/
theorem mem_turn {body : α → Reading (β ⊕ α)} {x : α × Progress}
    {settled : (Except Stop β × Progress) ⊕ (α × Progress)} :
    settled ∈ turn body x ↔ ∃ r ∈ (body x.1).run.run x.2, settle r = settled :=
  Part.mem_map_iff _

/-- A loop is its first turn, **followed by the loop** unless that gives a result. -/
theorem loop_eq (body : α → Reading (β ⊕ α)) (a : α) :
    loop body a = body a >>= Sum.elim pure (loop body) := by
  refine ExceptT.ext (StateT.ext fun p => Part.ext fun last => ?_)
  rw [ExceptT.run_bind, StateT.run_bind, loop, ExceptT.run_mk, StateT.run, PFun.mem_fix_iff]
  change _ ↔ _ ∈ Part.bind _ _
  simp only [Part.mem_bind_iff, mem_turn]
  -- On both sides the outcome of the first turn settles whether the loop is over.
  constructor
  · rintro (⟨⟨outcome, q⟩, hturn, hover⟩ | ⟨_, ⟨⟨outcome, q⟩, hturn, hagain⟩, hlast⟩)
    · refine ⟨_, hturn, ?_⟩
      rcases outcome with stop | b | next <;> cases hover <;> exact Part.mem_some _
    · refine ⟨_, hturn, ?_⟩
      rcases outcome with stop | b | next <;> cases hagain
      exact hlast
  · rintro ⟨⟨stop | b | next, q⟩, hturn, hlast⟩
    · obtain rfl := Part.mem_some_iff.mp hlast
      exact .inl ⟨_, hturn, rfl⟩
    · obtain rfl := Part.mem_some_iff.mp hlast
      exact .inl ⟨_, hturn, rfl⟩
    · exact .inr ⟨_, ⟨_, hturn, rfl⟩, hlast⟩

end Reading

open Reading

/-! ### Looking at the text -/

variable (text : String)

/-- Cuts the text from one byte to another, and **fails where it cannot be cut**. -/
def cut (start stop : Nat) : Reading (List Char) := do
  step (.cut start stop) id
  match cut? text start stop with
  | some part => return part
  | none => throw .badCut

/-- The text from the cursor on. -/
def rest : Reading (List Char) := do
  cut text (← currentPosition) text.utf8ByteSize

/-- The character that comes next. -/
def peek : Reading (Option Char) :=
  return (← rest text).head?

/-- Moves the cursor behind the next character. -/
def bump : Reading Unit := do
  match ← peek text with
  | some c => step .move fun cursor => { cursor with position := cursor.position + c.utf8Size }
  | none => return

/-- Moves the cursor **as long as** the next character is in the class. -/
def skip (inClass : Char → Bool) : Reading Unit :=
  loop (fun _ => do
    if (← peek text).any inClass then
      bump text
      return .inr ()
    else
      return .inl ()) ()

/-- Skipping **looks at the next character**, and goes on behind it if that is in the class. -/
theorem skip_eq (inClass : Char → Bool) :
    skip text inClass = peek text >>= fun next =>
      if next.any inClass then bump text >>= fun _ => skip text inClass else pure () := by
  refine (loop_eq _ ()).trans ?_
  rw [bind_assoc]
  refine congrArg (peek text >>= ·) (funext fun next => ?_)
  split_ifs
  · rw [bind_assoc]
    exact congrArg (bump text >>= ·) (funext fun _ => pure_bind _ _)
  · exact pure_bind _ _

/-- Moves the cursor behind a run of characters in the class, and cuts the run out. -/
def run (inClass : Char → Bool) : Reading (List Char) := do
  let start ← currentPosition
  skip text inClass
  cut text start (← currentPosition)

/-! ### Terms -/

/-- Reads a constant, behind its digits. -/
def constant (start : Nat) (digits : List Char) : Reading Term := do
  if digits.isEmpty then
    let word ← run text Scan.isWordChar
    refuse .malformedTerm start word
  else if numeralValue digits > maxNumeral then
    refuse .malformedTerm start digits
  else
    accept (.constant (numeralValue digits))

/-- Reads a group of dice, behind the digits of its count. -/
def diceGroup (start : Nat) (countDigits : List Char) : Reading Term := do
  bump text
  let sidesStart ← currentPosition
  let sidesDigits ← run text Char.isDigit
  let group ← cut text start (← currentPosition)
  let dice ← currentDice
  let count := numeralValue countDigits
  if countDigits.isEmpty || sidesDigits.isEmpty || count > maxNumeral then
    refuse .malformedTerm start group
  else if count = 0 then
    refuse .nonPositiveCount start countDigits
  else if count > maxDicePerTerm then
    refuse .tooManyDice start countDigits
  else if dice + count > maxDicePerFormula then
    refuse .tooManyDice start group
  else if numeralValue sidesDigits > maxNumeral then
    refuse .malformedTerm start group
  else if numeralValue sidesDigits < 2 then
    refuse .invalidSides sidesStart sidesDigits
  else
    accept (.dice count (numeralValue sidesDigits))

/-- Reads a term. -/
def term : Reading Term := do
  let start ← currentPosition
  let digits ← run text Char.isDigit
  if (← peek text).any Scan.isDiceMark then
    diceGroup text start digits
  else
    constant text start digits

/-! ### Formulas -/

/-- Reads one round, a sign and a term. There is nothing to read at the end of the text. -/
def round : Reading (Option SignedTerm) := do
  step .beginRound id
  skip text isBlank
  match ← peek text with
  | none => return none
  | some c =>
    match Sign.ofSymbol? c with
    | none =>
      let position ← currentPosition
      refuse .trailingGarbage position (dropEndBlanks (← rest text))
    | some sign =>
      bump text
      skip text isBlank
      let t ← term text
      return some ⟨sign, t⟩

/-- Reads **rounds until there is nothing to read**, and puts their terms behind these. -/
def rounds : List SignedTerm → Reading (List SignedTerm) :=
  loop fun terms => do
    match ← round text with
    | none => return .inl terms
    | some t => return .inr (terms ++ [t])

/-- The rounds are **the first one**, and if that has a term, the rounds behind it. -/
theorem rounds_eq (terms : List SignedTerm) :
    rounds text terms = round text >>= fun read =>
      match read with
      | none => pure terms
      | some t => rounds text (terms ++ [t]) := by
  refine (loop_eq _ terms).trans ?_
  rw [bind_assoc]
  refine congrArg (round text >>= ·) (funext fun read => ?_)
  cases read with
  | none => exact pure_bind _ _
  | some t => exact pure_bind _ _

/-- Reads a formula. -/
def formula : Reading Formula := do
  skip text isBlank
  if (← currentPosition) ≥ text.utf8ByteSize then
    throw (.fault ⟨.emptyInput, 0, ""⟩)
  else
    let first ← term text
    let terms ← rounds text [⟨.plus, first⟩]
    return ⟨strip text, terms⟩

/-! ### Runs -/

namespace Reading

variable {α β : Type} {m : Reading α} {f : α → Reading β} {p q last : Progress}

/-- From here the reading **ends**, with this outcome, and has come so far by then. -/
def Runs (m : Reading α) (p : Progress) (outcome : Except Stop α) (q : Progress) : Prop :=
  (outcome, q) ∈ m.run.run p

/-- A value is given at once. -/
theorem runs_pure (a : α) (p : Progress) : (pure a : Reading α).Runs p (.ok a) p :=
  Part.mem_some _

/-- A reading that stops does so **where it is**. -/
theorem runs_throw (stop : Stop) (p : Progress) :
    (throw stop : Reading α).Runs p (.error stop) p :=
  Part.mem_some _

/-- A reading can look at how far it has come. -/
theorem runs_get (p : Progress) : (get : Reading Progress).Runs p (.ok p) p :=
  Part.mem_bind (Part.mem_some _) (Part.mem_some _)

/-- A step changes the cursor and is **added to the log**. -/
theorem runs_step (action : Action) (change : Cursor → Cursor) (p : Progress) :
    (step action change).Runs p (.ok ())
      ⟨change p.cursor, p.log ++ [⟨action, change p.cursor⟩]⟩ :=
  Part.mem_bind (Part.mem_some _) (Part.mem_some _)

/-- A reading that gives a value is **followed** by the next one. -/
theorem Runs.bind {a : α} {outcome : Except Stop β} (hm : m.Runs p (.ok a) q)
    (hf : (f a).Runs q outcome last) : (m >>= f).Runs p outcome last := by
  rw [Runs, ExceptT.run_bind, StateT.run_bind]
  exact Part.mem_bind hm hf

/-- A reading that stops is followed by **nothing**. -/
theorem Runs.bind_error {stop : Stop} (hm : m.Runs p (.error stop) q) :
    (m >>= f).Runs p (.error stop) q := by
  rw [Runs, ExceptT.run_bind, StateT.run_bind]
  exact Part.mem_bind hm (Part.mem_some _)

end Reading

end Cursor

end Tabletop
