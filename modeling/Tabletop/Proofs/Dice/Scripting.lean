import Mathlib.Data.Nat.Find
import Tabletop.Proofs.Dice.Drawing

/-!
# Rolling from a Script

A script need not be made for the formula that is rolled from it. It may have too few faces, or
too many, and a face may be none of the die it lands on. What comes of the roll is settled by **the
first face that its die does not have**, among the faces that land on a die at all: the roll stops
there, the script is used up to that face and with it, and the source below has not been touched.
If there is no such face, the dice show the script as far as it goes, and the others are drawn from
the source below.

Nothing is assumed about the source below, which may be any way of drawing. A `Source` that holds a
script draws in just this way (`Source.draw_scripted`).

## Main definitions

* `Draw.scripted`: drawing from a script, and behind its end in a given way.
* `BadAt`, `FirstBadAt`: a face that its die does not have, and the first one.

## Main results

* `Draw.each_scripted`: drawing for several dice from a script.
* `Formula.rollWith_scripted_bad`, `Formula.rollWith_scripted_good`: rolling from a script.
* `Source.roll_follows_script`: the same, and for the sources of this library.
-/

namespace Tabletop

variable {ε σ τ : Type}

/-! ### Other states -/

section Map

variable {draw : Draw ε σ} {draw' : Draw ε τ} {g : σ → τ}

/-- A way of drawing from states that **stand for others** draws the same faces from them. -/
theorem Draw.each_map (h : ∀ sides s, draw' sides (g s) = Prod.map id g (draw sides s))
    (dice : List Nat) (s : σ) : draw'.each dice (g s) = Prod.map id g (draw.each dice s) := by
  induction dice generalizing s with
  | nil => rfl
  | cons sides dice ih =>
      rw [Draw.each, Draw.each, h]
      obtain ⟨refusal | face, m⟩ := draw sides s
      · rfl
      · change (draw'.each dice (g m)).andThen _ = Prod.map id g ((draw.each dice m).andThen _)
        rw [ih]
        obtain ⟨refusal | faces, m'⟩ := draw.each dice m <;> rfl

/-- A formula is rolled from states that stand for others as it is from these. -/
theorem Formula.rollWith_map (h : ∀ sides s, draw' sides (g s) = Prod.map id g (draw sides s))
    (f : Formula) (s : σ) : f.rollWith draw' (g s) = Prod.map id g (f.rollWith draw s) := by
  rw [Formula.rollWith_eq_each, Formula.rollWith_eq_each, Draw.each_map h]
  obtain ⟨refusal | faces, m⟩ := draw.each f.diceSides s <;> rfl

end Map

/-! ### Scripts -/

/-- Drawing from **a script** first, and behind its end in the given way. A face that its die does
not have is refused, and is used up all the same. -/
def Draw.scripted (draw : Draw ε σ) (refuse : BadFace → ε) : Draw ε (List Nat × σ) :=
  fun sides s =>
    match s with
    | ([], s) => ((draw sides s).1, ([], (draw sides s).2))
    | (face :: faces, s) =>
      (if 1 ≤ face ∧ face ≤ sides then .ok face else .error (refuse ⟨face, sides⟩), (faces, s))

/-- A scripted source draws **from its script**, and behind its end from its fallback. -/
theorem Source.draw_scripted (sides : Nat) (s : List Nat × Source) :
    Source.draw sides (.scripted s.1 s.2) =
      Prod.map id (fun s => .scripted s.1 s.2) (Draw.scripted Source.draw id sides s) := by
  obtain ⟨faces, fallback⟩ := s
  cases faces with
  | nil => rfl
  | cons face faces => rfl

/-- Of the faces, that at place `i` is none of the die in **the same place**. -/
def BadAt (faces dice : List Nat) (i : Nat) (bad : BadFace) : Prop :=
  faces[i]? = some bad.face ∧ dice[i]? = some bad.sides ∧ ¬ (1 ≤ bad.face ∧ bad.face ≤ bad.sides)

/-- The face at place `i` is **the first** that its die does not have. -/
def FirstBadAt (faces dice : List Nat) (i : Nat) (bad : BadFace) : Prop :=
  BadAt faces dice i bad ∧ ∀ j < i, ∀ other, ¬ BadAt faces dice j other

section BadFaces

variable {face sides i : Nat} {faces dice : List Nat} {bad : BadFace}

/-- Where there are no faces, none is bad. -/
theorem not_badAt_nil_left : ¬ BadAt [] dice i bad := by
  rintro ⟨hface, -⟩
  cases hface

/-- Where there are no dice, no face is bad. -/
theorem not_badAt_nil_right : ¬ BadAt faces [] i bad := by
  rintro ⟨-, hsides, -⟩
  cases hsides

/-- Behind a good face, the others are bad in **the next places**. -/
theorem badAt_cons_iff (hgood : 1 ≤ face ∧ face ≤ sides) :
    BadAt (face :: faces) (sides :: dice) i bad ↔ ∃ j, i = j + 1 ∧ BadAt faces dice j bad := by
  cases i with
  | zero =>
      refine iff_of_false ?_ fun ⟨_, hi, _⟩ => nomatch hi
      rintro ⟨hface, hsides, hbad⟩
      cases hface
      cases hsides
      exact hbad hgood
  | succ i => simp [BadAt]

/-- Behind a good face, the first bad one is **one place further**. -/
theorem FirstBadAt.cons (hgood : 1 ≤ face ∧ face ≤ sides) (h : FirstBadAt faces dice i bad) :
    FirstBadAt (face :: faces) (sides :: dice) (i + 1) bad := by
  refine ⟨(badAt_cons_iff hgood).mpr ⟨i, rfl, h.1⟩, fun j hj other hother => ?_⟩
  obtain ⟨k, rfl, hk⟩ := (badAt_cons_iff hgood).mp hother
  exact h.2 k (by omega) other hk

/-- A bad face in front is the first. -/
theorem firstBadAt_zero (hbad : ¬ (1 ≤ face ∧ face ≤ sides)) :
    FirstBadAt (face :: faces) (sides :: dice) 0 ⟨face, sides⟩ :=
  ⟨⟨rfl, rfl, hbad⟩, fun _ hj => absurd hj (Nat.not_lt_zero _)⟩

/-- Only one face is the first. -/
theorem FirstBadAt.unique {j : Nat} {other : BadFace} (h : FirstBadAt faces dice i bad)
    (h' : FirstBadAt faces dice j other) : i = j ∧ bad = other := by
  obtain rfl : i = j := by
    rcases Nat.lt_trichotomy i j with hlt | heq | hgt
    · exact absurd h.1 (h'.2 i hlt bad)
    · exact heq
    · exact absurd h'.1 (h.2 j hgt other)
  obtain ⟨hface, hsides, -⟩ := h.1
  obtain ⟨hface', hsides', -⟩ := h'.1
  rw [hface] at hface'
  rw [hsides] at hsides'
  refine ⟨rfl, ?_⟩
  cases bad
  cases other
  cases hface'
  cases hsides'
  rfl

/-- Where a face is bad, **there is a first one**. -/
theorem exists_firstBadAt (h : ∃ i bad, BadAt faces dice i bad) :
    ∃ i bad, FirstBadAt faces dice i bad := by
  classical
  obtain ⟨bad, hbad⟩ := Nat.find_spec h
  exact ⟨_, bad, hbad, fun j hj other hother => Nat.find_min h hj ⟨other, hother⟩⟩

end BadFaces

/-! ### Rolling from a script -/

section Scripted

variable {draw : Draw ε σ} {refuse : BadFace → ε} {dice faces : List Nat} {s : σ} {f : Formula}

/-- A script that has come to its end **makes no difference**. -/
theorem Draw.each_scripted_nil (dice : List Nat) (s : σ) :
    (draw.scripted refuse).each dice ([], s) = Prod.map id (Prod.mk []) (draw.each dice s) := by
  have hdraw : ∀ sides s, draw.scripted refuse sides ([], s) =
      Prod.map id (Prod.mk []) (draw sides s) := fun _ _ => rfl
  exact Draw.each_map hdraw dice s

/-- One face **more in the script** is what the first die shows, if it has it. -/
theorem Draw.each_scripted_cons (face sides : Nat) :
    (draw.scripted refuse).each (sides :: dice) (face :: faces, s) =
      if 1 ≤ face ∧ face ≤ sides then
        Prod.map (Except.map (face :: ·)) id ((draw.scripted refuse).each dice (faces, s))
      else (.error (refuse ⟨face, sides⟩), (faces, s)) := by
  rw [Draw.each]
  by_cases hgood : 1 ≤ face ∧ face ≤ sides
  · rw [if_pos hgood]
    simp only [Draw.scripted, if_pos hgood, Drawn.andThen_ok]
    obtain ⟨refusal | others, m⟩ := (draw.scripted refuse).each dice (faces, s) <;> rfl
  · rw [if_neg hgood]
    simp only [Draw.scripted, if_neg hgood, Drawn.andThen_error]

/-- **Drawing for several dice from a script** stops at the first face that its die does not have.
If there is none, the script is shown as far as it goes, and for the other dice faces are drawn in
the given way. -/
theorem Draw.each_scripted (draw : Draw ε σ) (refuse : BadFace → ε) (dice faces : List Nat)
    (s : σ) :
    (∃ i bad, FirstBadAt faces dice i bad ∧
      (draw.scripted refuse).each dice (faces, s) =
        (.error (refuse bad), (faces.drop (i + 1), s))) ∨
    (∀ i bad, ¬ BadAt faces dice i bad) ∧
      (draw.scripted refuse).each dice (faces, s) =
        Prod.map (Except.map (faces.take dice.length ++ ·)) (Prod.mk (faces.drop dice.length))
          (draw.each (dice.drop faces.length) s) := by
  induction dice generalizing faces with
  | nil =>
      refine .inr ⟨fun _ _ => not_badAt_nil_right, ?_⟩
      rw [List.drop_nil]
      rfl
  | cons sides dice ih =>
      cases faces with
      | nil =>
          -- From here on the script makes no difference, so no induction is needed.
          refine .inr ⟨fun _ _ => not_badAt_nil_left, ?_⟩
          rw [Draw.each_scripted_nil, List.length_nil, List.drop_zero, List.take_nil, List.drop_nil]
          obtain ⟨refusal | others, m⟩ := draw.each (sides :: dice) s <;> rfl
      | cons face faces =>
          by_cases hgood : 1 ≤ face ∧ face ≤ sides
          · rw [Draw.each_scripted_cons, if_pos hgood]
            rcases ih faces with ⟨i, bad, hbad, heach⟩ | ⟨hnone, heach⟩
            · exact .inl ⟨i + 1, bad, hbad.cons hgood, by rw [heach]; rfl⟩
            · refine .inr ⟨fun i bad hbad => ?_, ?_⟩
              · obtain ⟨j, -, hj⟩ := (badAt_cons_iff hgood).mp hbad
                exact hnone j bad hj
              · simp only [heach, List.length_cons, List.drop_succ_cons, List.take_succ_cons]
                obtain ⟨refusal | others, m⟩ := draw.each (dice.drop faces.length) s <;> rfl
          · rw [Draw.each_scripted_cons, if_neg hgood]
            exact .inl ⟨0, ⟨face, sides⟩, firstBadAt_zero hgood, rfl⟩

/-- A formula is refused **the first face that its die does not have**. The script is used up to
that face and with it, and nothing below it is. -/
theorem Formula.rollWith_scripted_bad {i : Nat} {bad : BadFace}
    (hbad : FirstBadAt faces f.diceSides i bad) :
    f.rollWith (draw.scripted refuse) (faces, s) =
      (.error (refuse bad), (faces.drop (i + 1), s)) := by
  rcases Draw.each_scripted draw refuse f.diceSides faces s with
    ⟨j, first, hfirst, heach⟩ | ⟨hnone, -⟩
  · obtain ⟨rfl, rfl⟩ := hbad.unique hfirst
    rw [Formula.rollWith_eq_each, heach, Drawn.andThen_error]
  · exact absurd hbad.1 (hnone i bad)

/-- Without such a face a formula shows **the script as far as it goes**, and for the other dice
what is drawn below it. -/
theorem Formula.rollWith_scripted_good (hgood : ∀ i bad, ¬ BadAt faces f.diceSides i bad)
    {others : List Nat} {s' : σ}
    (hothers : draw.each (f.diceSides.drop faces.length) s = (.ok others, s')) :
    ∃ roll, f.rollWith (draw.scripted refuse) (faces, s) =
        (.ok roll, (faces.drop f.diceSides.length, s')) ∧
      roll.faces = faces.take f.diceSides.length ++ others := by
  rcases Draw.each_scripted draw refuse f.diceSides faces s with
    ⟨i, bad, hbad, -⟩ | ⟨-, heach⟩
  · exact absurd hbad.1 (hgood i bad)
  · rw [hothers] at heach
    have hroll : f.rollWith (draw.scripted refuse) (faces, s) =
        (.ok (f.rollOf (faces.take f.diceSides.length ++ others)),
          (faces.drop f.diceSides.length, s')) := by
      rw [Formula.rollWith_eq_each, heach]
      rfl
    have hdrawn := (Formula.each_of_rollWith hroll).1
    rw [heach] at hdrawn
    exact ⟨_, hroll, (Except.ok.inj (congrArg Prod.fst hdrawn)).symm⟩

/-- A scripted source rolls **from its script**, and behind its end from its fallback. -/
theorem Formula.roll_scripted_eq (f : Formula) (faces : List Nat) (fallback : Source) :
    f.roll (.scripted faces fallback) =
      Prod.map id (fun s => .scripted s.1 s.2)
        (f.rollWith (Draw.scripted Source.draw id) (faces, fallback)) :=
  f.rollWith_map Source.draw_scripted (faces, fallback)

end Scripted

/-- **A roll follows its script.** If some face of the script lands on a die that does not have it,
the roll is refused the first such face; the script is left without the faces up to and with this
one, and the fallback as it was. If there is no such face, and the fallback refuses none, the dice
show the script as far as it goes, and then what the fallback draws for the dice that are left; of
the script there is left what the dice did not need. All this holds of any way of drawing below the
script. -/
theorem Source.roll_follows_script (f : Formula) (faces : List Nat) :
    ((∃ i bad, BadAt faces f.diceSides i bad) → ∃ i bad, FirstBadAt faces f.diceSides i bad ∧
      (∀ fallback, f.roll (.scripted faces fallback) =
        (.error bad, .scripted (faces.drop (i + 1)) fallback)) ∧
      bad.message =
        "scripted face " ++ toString bad.face ++ " out of range for d" ++ toString bad.sides ∧
      ∀ {ε σ : Type} (draw : Draw ε σ) (refuse : BadFace → ε) (s : σ),
        f.rollWith (draw.scripted refuse) (faces, s) =
          (.error (refuse bad), (faces.drop (i + 1), s))) ∧
    ((∀ i bad, ¬ BadAt faces f.diceSides i bad) →
      (∀ fallback last others,
        Draw.each Source.draw (f.diceSides.drop faces.length) fallback = (.ok others, last) →
        ∃ roll next, f.roll (.scripted faces fallback) = (.ok roll, next) ∧
          roll.faces = faces.take f.diceSides.length ++ others ∧
          next = .scripted (faces.drop f.diceSides.length) last ∧
          next.remaining? = some (faces.length - min f.diceSides.length faces.length)) ∧
      ∀ {ε σ : Type} (draw : Draw ε σ) (refuse : BadFace → ε) (s s' : σ) (others : List Nat),
        draw.each (f.diceSides.drop faces.length) s = (.ok others, s') →
        ∃ roll, f.rollWith (draw.scripted refuse) (faces, s) =
            (.ok roll, (faces.drop f.diceSides.length, s')) ∧
          roll.faces = faces.take f.diceSides.length ++ others) := by
  refine ⟨fun hbad => ?_, fun hgood => ⟨fun fallback last others hothers => ?_, ?_⟩⟩
  · obtain ⟨i, bad, hfirst⟩ := exists_firstBadAt hbad
    refine ⟨i, bad, hfirst, fun fallback => ?_, rfl, fun _ _ _ =>
      Formula.rollWith_scripted_bad hfirst⟩
    rw [Formula.roll_scripted_eq, Formula.rollWith_scripted_bad hfirst]
    rfl
  · obtain ⟨roll, hroll, hfaces⟩ : ∃ roll,
        f.rollWith (Draw.scripted Source.draw id) (faces, fallback) =
          (.ok roll, (faces.drop f.diceSides.length, last)) ∧
        roll.faces = faces.take f.diceSides.length ++ others :=
      Formula.rollWith_scripted_good hgood hothers
    refine ⟨roll, _, ?_, hfaces, rfl, ?_⟩
    · rw [Formula.roll_scripted_eq, hroll]
      rfl
    · rw [Source.remaining?, List.length_drop]
      congr 1
      omega
  · exact fun _ _ _ _ _ hothers => Formula.rollWith_scripted_good hgood hothers

/-- From `2, 9, 1` the formula `2d6 - 1d4` is refused the second face, and the third is left. From
`2` alone it shows this face and two of the fallback. -/
theorem Source.roll_follows_script_refused :
    ∃ f, Formula.parse "2d6 - 1d4" = .ok f ∧
      f.roll (.scripted [2, 9, 1] .lowest) = (.error ⟨9, 6⟩, .scripted [1] .lowest) ∧
      ∃ roll, f.roll (.scripted [2] (.counting 0)) = (.ok roll, .scripted [] (.counting 2)) ∧
        roll.faces = [2, 1, 2] := by
  obtain ⟨f, hf⟩ : ∃ f : Formula,
      f = ⟨"2d6 - 1d4", [⟨.plus, .dice 2 6⟩, ⟨.minus, .dice 1 4⟩]⟩ := ⟨_, rfl⟩
  have hparse : Formula.parse "2d6 - 1d4" = .ok f := by
    subst hf
    decide +kernel
  have hdice : f.diceSides = [6, 6, 4] := by rw [hf]; rfl
  have hfirst : FirstBadAt [2, 9, 1] f.diceSides 1 ⟨9, 6⟩ :=
    hdice ▸ (firstBadAt_zero (by decide)).cons (by decide)
  have hgood : ∀ i bad, ¬ BadAt [2] f.diceSides i bad := by
    intro i bad hbad
    obtain ⟨j, -, hj⟩ := (badAt_cons_iff (by decide)).mp (hdice ▸ hbad)
    exact not_badAt_nil_left hj
  have hothers : Draw.each Source.draw (f.diceSides.drop [2].length) (.counting 0) =
      (.ok [1, 2], .counting 2) := by
    rw [hdice]
    rfl
  obtain ⟨i, bad, hbad, hrefused, -⟩ :=
    (Source.roll_follows_script f [2, 9, 1]).1 ⟨_, _, hfirst.1⟩
  obtain ⟨rfl, rfl⟩ := hbad.unique hfirst
  obtain ⟨roll, next, hroll, hfaces, rfl, -⟩ :=
    ((Source.roll_follows_script f [2]).2 hgood).1 _ _ _ hothers
  refine ⟨f, hparse, hrefused .lowest, roll, ?_, ?_⟩
  · rw [hroll, hdice]
    rfl
  · rw [hfaces, hdice]
    rfl

end Tabletop
