import Tabletop.Dice.Keystream

/-!
# Sources of Faces

Where the faces of the dice come from. Besides a keystream there are sources whose faces
are known beforehand: always the lowest, always the highest, counting upwards, or a
**script**, a list of faces to be shown in order before another source takes over.

A scripted face need not fit the die it lands on. Drawing such a face is refused, but the
face is used up all the same, so every draw yields an answer *and* the source that is left.

Rolling needs nothing of a source but that faces can be drawn from it. So what is rolled
takes any `Draw`, a way of drawing faces from states of any kind, and a `Source` is one kind.

## Main definitions

* `Draw`, `Draw.many`: a way of drawing faces, and one face for each of several equal dice.
* `Drawn`, `Drawn.andThen`: what comes of drawing, and what is drawn after that.
* `Source`: the sources.
* `BadFace`: the refusal of a scripted face.
* `Source.draw`: a face from a source.
* `Source.remaining?`: how many faces the script still holds.

## Main results

* `Source.draw_mem`: a face that is not refused lies between one and the number of sides.
-/

namespace Tabletop

/-! ### Ways of drawing -/

/-- What comes of **drawing** faces for a value: the value, or why a draw was refused, and the
state that is left. -/
abbrev Drawn (ε σ α : Type) := Except ε α × σ

/-- A **way of drawing** faces from states of type `σ`, each for a die with the given number of
sides. -/
abbrev Draw (ε σ : Type) := (sides : Nat) → σ → Drawn ε σ Nat

section Drawing

variable {ε σ α β : Type}

/-- Goes on from the state that is left, unless a draw was refused. -/
@[inline]
def Drawn.andThen (drawn : Drawn ε σ α) (next : α → σ → Drawn ε σ β) : Drawn ε σ β :=
  match drawn with
  | (.error refusal, s) => (.error refusal, s)
  | (.ok a, s) => next a s

/-- Draws one face for each of `count` equal dice, up to the first that is refused. -/
def Draw.many (draw : Draw ε σ) (sides : Nat) : Nat → σ → Drawn ε σ (List Nat)
  | 0, s => (.ok [], s)
  | count + 1, s =>
    (draw sides s).andThen fun face s =>
      (draw.many sides count s).andThen fun faces s => (.ok (face :: faces), s)

/-- What was drawn is **passed on**, together with the state that is left. -/
@[simp]
theorem Drawn.andThen_ok (a : α) (s : σ) (next : α → σ → Drawn ε σ β) :
    Drawn.andThen (.ok a, s) next = next a s :=
  rfl

/-- After a refusal **nothing more** is drawn. -/
@[simp]
theorem Drawn.andThen_error (refusal : ε) (s : σ) (next : α → σ → Drawn ε σ β) :
    Drawn.andThen (.error refusal, s) next = (.error refusal, s) :=
  rfl

/-- Two steps come to a value when **the first does, and the second from what that leaves**. -/
theorem Drawn.andThen_eq_ok_iff {drawn : Drawn ε σ α} {next : α → σ → Drawn ε σ β} {b : β}
    {s' : σ} :
    drawn.andThen next = (.ok b, s') ↔ ∃ a s, drawn = (.ok a, s) ∧ next a s = (.ok b, s') := by
  obtain ⟨refusal | a, s⟩ := drawn
  · simp
  · constructor
    · intro h
      exact ⟨a, s, rfl, h⟩
    · rintro ⟨_, _, hdrawn, h⟩
      cases hdrawn
      exact h

end Drawing

/-! ### Sources -/

/-- A scripted face that its die does not have. -/
structure BadFace where
  /-- The face in the script. -/
  face : Nat
  /-- The sides of the die it landed on. -/
  sides : Nat
  deriving DecidableEq, Repr, Inhabited

/-- The refusal in words. -/
def BadFace.message (b : BadFace) : String :=
  "scripted face " ++ toString b.face ++ " out of range for d" ++ toString b.sides

/-- A source of faces. -/
inductive Source where
  /-- Every die shows its lowest face. -/
  | lowest
  /-- Every die shows its highest face. -/
  | highest
  /-- The faces go up by one from die to die, starting again after the highest. -/
  | counting (drawn : Nat)
  /-- The faces are taken from a keystream. -/
  | seeded (stream : Keystream)
  /-- The faces of a list come first, then those of another source. -/
  | scripted (faces : List Nat) (fallback : Source)
  deriving DecidableEq, Repr

namespace Source

/-- Draws a face of a die with the given number of sides. -/
def draw (sides : Nat) : Source → Except BadFace Nat × Source
  | lowest => (.ok 1, lowest)
  | highest => (.ok sides, highest)
  | counting drawn => (.ok (drawn % sides + 1), counting (drawn + 1))
  | seeded stream =>
    let (face, stream) := stream.face sides
    (.ok face, seeded stream)
  | scripted (face :: faces) fallback =>
    (if 1 ≤ face ∧ face ≤ sides then .ok face else .error ⟨face, sides⟩,
      scripted faces fallback)
  | scripted [] fallback =>
    let (drawn, fallback) := fallback.draw sides
    (drawn, scripted [] fallback)

/-- The number of faces that the script still holds, if the source is a script. -/
def remaining? : Source → Option Nat
  | scripted faces _ => some faces.length
  | _ => none

/-- A face that is not refused lies between one and the number of sides. -/
theorem draw_mem {sides face : Nat} {source next : Source} (hpos : 0 < sides)
    (hsides : sides ≤ wordRange) (h : source.draw sides = (.ok face, next)) :
    1 ≤ face ∧ face ≤ sides := by
  induction source generalizing next with
  | lowest => cases h; omega
  | highest => cases h; omega
  | counting drawn =>
      cases h
      have := Nat.mod_lt drawn hpos
      omega
  | seeded stream =>
      cases h
      exact stream.face_mem hpos hsides
  | scripted faces fallback ih =>
      cases faces with
      | nil =>
          simp only [draw, Prod.mk.injEq] at h
          exact ih (Prod.ext h.1 rfl)
      | cons first faces =>
          simp only [draw, Prod.mk.injEq] at h
          obtain ⟨hface, -⟩ := h
          split at hface
          · cases hface
            assumption
          · cases hface

end Source

end Tabletop
