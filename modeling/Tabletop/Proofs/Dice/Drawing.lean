import Tabletop.Proofs.Dice.Recording
import Tabletop.Proofs.Dice.Totals

/-!
# Drawing Die by Die

A formula is rolled term by term, and a term die by die. For the source that makes no difference:
it is asked for one face for each die of the formula, in the order of the formula, up to the first
that it refuses. `Formula.rollWith_eq_each` says so for every way of drawing at once. What the
terms show is then those faces dealt out to them, as many as each of them has dice.

That no other draw is made can be read off a **log**. `Draw.logged` draws in the given way and
writes down each die with the face that it showed; after a roll the log has grown by the dice of
the formula beside their faces, and by nothing else.

## Main definitions

* `Draw.each`: one face for each of several dice.
* `Formula.rollOf`: the roll in which the dice of a formula show given faces.
* `Draw.logged`: drawing with a log.

## Main results

* `Formula.rollWith_eq_each`: a roll draws one face for each die, in the order of the formula.
* `Formula.rollWith_logged`: the log of a roll.
* `Formula.roll_meets_spec`: what a roll shows, what it has drawn, and where its total lies.
-/

namespace Tabletop

/-! ### Going on from what was drawn -/

section AndThen

variable {ε σ α β γ : Type}

/-- Three steps may be grouped either way. -/
theorem Drawn.andThen_assoc (drawn : Drawn ε σ α) (next : α → σ → Drawn ε σ β)
    (last : β → σ → Drawn ε σ γ) :
    (drawn.andThen next).andThen last = drawn.andThen fun a s => (next a s).andThen last := by
  obtain ⟨refusal | a, s⟩ := drawn
  · rfl
  · rfl

/-- How a step goes on matters only for the value and the state that **it comes to**. -/
theorem Drawn.andThen_congr {drawn : Drawn ε σ α} {next next' : α → σ → Drawn ε σ β}
    (h : ∀ a s, drawn = (.ok a, s) → next a s = next' a s) :
    drawn.andThen next = drawn.andThen next' := by
  obtain ⟨refusal | a, s⟩ := drawn
  · rfl
  · exact h a s rfl

end AndThen

/-! ### One face for each die -/

variable {ε σ : Type} {draw : Draw ε σ}

/-- Draws one face for **each** of the dice, up to the first that is refused. -/
def Draw.each (draw : Draw ε σ) : List Nat → σ → Drawn ε σ (List Nat)
  | [], s => (.ok [], s)
  | sides :: dice, s =>
    (draw sides s).andThen fun face s =>
      (draw.each dice s).andThen fun faces s => (.ok (face :: faces), s)

/-- Equal dice are drawn for one after another. -/
theorem Draw.many_eq_each (sides count : Nat) (s : σ) :
    draw.many sides count s = draw.each (List.replicate count sides) s := by
  induction count generalizing s with
  | zero => rfl
  | succ count ih => simp only [Draw.many, List.replicate_succ, Draw.each, ih]

/-- The dice of two lists are drawn for one list after the other. -/
theorem Draw.each_append (dice dice' : List Nat) (s : σ) :
    draw.each (dice ++ dice') s =
      (draw.each dice s).andThen fun front s =>
        (draw.each dice' s).andThen fun back s => (.ok (front ++ back), s) := by
  induction dice generalizing s with
  | nil =>
      rw [List.nil_append, Draw.each, Drawn.andThen_ok]
      obtain ⟨refusal | back, s'⟩ := draw.each dice' s <;> rfl
  | cons sides dice ih =>
      simp only [List.cons_append, Draw.each, ih, Drawn.andThen_assoc, Drawn.andThen_ok]

/-- There is one face for each die. -/
theorem Draw.length_of_each {dice faces : List Nat} {s s' : σ}
    (h : draw.each dice s = (.ok faces, s')) : faces.length = dice.length := by
  induction dice generalizing s faces with
  | nil =>
      cases h
      rfl
  | cons sides dice ih =>
      obtain ⟨face, m, -, h⟩ := Drawn.andThen_eq_ok_iff.mp h
      obtain ⟨others, _, hothers, h⟩ := Drawn.andThen_eq_ok_iff.mp h
      cases h
      rw [List.length_cons, List.length_cons, ih hothers]

/-! ### Dealing out faces -/

/-- The share of a term whose dice show the given faces. -/
def SignedTerm.share (t : SignedTerm) (faces : List Nat) : Share :=
  match t.term with
  | .constant value => .constant t.sign value
  | .dice count sides => .dice t.sign count sides faces

/-- The shares of terms to which faces are **dealt out**: each takes as many as it has dice. -/
def sharesOf : List SignedTerm → List Nat → List Share
  | [], _ => []
  | t :: ts, faces =>
    t.share (faces.take t.term.diceSides.length) :: sharesOf ts (faces.drop t.term.diceSides.length)

/-- The roll in which the dice of the formula show the given faces. -/
def Formula.rollOf (f : Formula) (faces : List Nat) : Roll :=
  ⟨f.canonical, sharesOf f.terms faces⟩

/-- The first faces are **those of the first term**, as many as it has dice. -/
theorem sharesOf_cons_append {t : SignedTerm} {ts : List SignedTerm} {front back : List Nat}
    (h : front.length = t.term.diceSides.length) :
    sharesOf (t :: ts) (front ++ back) = t.share front :: sharesOf ts back := by
  rw [sharesOf, ← h, List.take_left, List.drop_left]

/-- A share has the faces that were dealt to it. -/
theorem SignedTerm.faces_share {t : SignedTerm} {faces : List Nat}
    (h : faces.length = t.term.diceSides.length) : (t.share faces).faces = faces := by
  obtain ⟨sign, term⟩ := t
  cases term with
  | constant value => exact (List.length_eq_zero_iff.mp h).symm
  | dice count sides => rfl

/-- All faces are dealt out, and none twice. -/
theorem flatMap_faces_sharesOf {ts : List SignedTerm} {faces : List Nat}
    (h : faces.length = (diceSidesOf ts).length) :
    (sharesOf ts faces).flatMap Share.faces = faces := by
  induction ts generalizing faces with
  | nil => exact (List.length_eq_zero_iff.mp h).symm
  | cons t ts ih =>
      have hlength : faces.length = t.term.diceSides.length + (diceSidesOf ts).length := by
        rw [h, diceSidesOf, List.flatMap_cons, List.length_append, ← diceSidesOf]
      have hfront : (faces.take t.term.diceSides.length).length = t.term.diceSides.length := by
        rw [List.length_take]
        omega
      have hback : (faces.drop t.term.diceSides.length).length = (diceSidesOf ts).length := by
        rw [List.length_drop]
        omega
      rw [sharesOf, List.flatMap_cons, SignedTerm.faces_share hfront, ih hback,
        List.take_append_drop]

/-! ### Rolls -/

/-- A term draws one face for **each of its dice**. -/
theorem SignedTerm.rollWith_eq_each (t : SignedTerm) (s : σ) :
    t.rollWith draw s =
      (draw.each t.term.diceSides s).andThen fun faces s => (.ok (t.share faces), s) := by
  obtain ⟨sign, term⟩ := t
  cases term with
  | constant value => rfl
  | dice count sides =>
      change (draw.many sides count s).andThen _ = _
      rw [Draw.many_eq_each]
      rfl

/-- Terms draw one face for each of their dice, **term after term**. -/
theorem rollTermsWith_eq_each (ts : List SignedTerm) (s : σ) :
    rollTermsWith draw ts s =
      (draw.each (diceSidesOf ts) s).andThen fun faces s => (.ok (sharesOf ts faces), s) := by
  induction ts generalizing s with
  | nil => rfl
  | cons t ts ih =>
      rw [rollTermsWith, SignedTerm.rollWith_eq_each, diceSidesOf, List.flatMap_cons,
        ← diceSidesOf, Draw.each_append, Drawn.andThen_assoc, Drawn.andThen_assoc]
      refine Drawn.andThen_congr fun front m hfront => ?_
      have hdealt : ∀ back,
          sharesOf (t :: ts) (front ++ back) = t.share front :: sharesOf ts back :=
        fun _ => sharesOf_cons_append (Draw.length_of_each hfront)
      simp only [ih, Drawn.andThen_assoc, Drawn.andThen_ok, hdealt]

/-- **A roll draws one face for each die**, in the order of the formula and up to the first that is
refused, and makes no other draw. -/
theorem Formula.rollWith_eq_each (f : Formula) (s : σ) :
    f.rollWith draw s =
      (draw.each f.diceSides s).andThen fun faces s => (.ok (f.rollOf faces), s) := by
  rw [Formula.rollWith, rollTermsWith_eq_each, Drawn.andThen_assoc]
  rfl

/-- A roll that comes to its end has drawn **its faces**. -/
theorem Formula.each_of_rollWith {f : Formula} {s s' : σ} {roll : Roll}
    (h : f.rollWith draw s = (.ok roll, s')) :
    draw.each f.diceSides s = (.ok roll.faces, s') ∧ roll = f.rollOf roll.faces := by
  rw [Formula.rollWith_eq_each] at h
  obtain ⟨faces, m, hfaces, h⟩ := Drawn.andThen_eq_ok_iff.mp h
  cases h
  have hdealt : (f.rollOf faces).faces = faces :=
    flatMap_faces_sharesOf (Draw.length_of_each hfaces)
  rw [hdealt]
  exact ⟨hfaces, rfl⟩

/-! ### The log of a roll -/

/-- Drawing in the given way with a **log**: each die that showed a face is written down with it. -/
def Draw.logged (draw : Draw ε σ) : Draw ε (σ × List (Nat × Nat)) := fun sides s =>
  match draw sides s.1 with
  | (.ok face, m) => (.ok face, (m, s.2 ++ [(sides, face)]))
  | (.error refusal, m) => (.error refusal, (m, s.2))

/-- A face that is drawn is **logged with its die**. -/
theorem Draw.logged_of_ok {sides face : Nat} {s m : σ} (h : draw sides s = (.ok face, m))
    (log : List (Nat × Nat)) :
    draw.logged sides (s, log) = (.ok face, (m, log ++ [(sides, face)])) := by
  simp only [Draw.logged, h]

/-- The log of several dice has **each of them once**, in their order and with its face. -/
theorem Draw.each_logged {dice faces : List Nat} {s s' : σ}
    (h : draw.each dice s = (.ok faces, s')) (log : List (Nat × Nat)) :
    draw.logged.each dice (s, log) = (.ok faces, (s', log ++ dice.zip faces)) := by
  induction dice generalizing s faces log with
  | nil =>
      cases h
      rw [Draw.each, List.zip_nil_left, List.append_nil]
  | cons sides dice ih =>
      obtain ⟨face, m, hface, h⟩ := Drawn.andThen_eq_ok_iff.mp h
      obtain ⟨others, _, hothers, h⟩ := Drawn.andThen_eq_ok_iff.mp h
      cases h
      rw [Draw.each, Draw.logged_of_ok hface, Drawn.andThen_ok, ih hothers, Drawn.andThen_ok,
        List.zip_cons_cons, List.append_assoc, List.singleton_append]

/-- **The log of a roll** has the dice of the formula in their order, each once and with its
face. -/
theorem Formula.rollWith_logged {f : Formula} {s s' : σ} {roll : Roll}
    (h : f.rollWith draw s = (.ok roll, s')) (log : List (Nat × Nat)) :
    f.rollWith draw.logged (s, log) = (.ok roll, (s', log ++ f.diceSides.zip roll.faces)) := by
  obtain ⟨heach, hroll⟩ := Formula.each_of_rollWith h
  rw [Formula.rollWith_eq_each, Draw.each_logged heach, Drawn.andThen_ok, ← hroll]

/-! ### What a roll amounts to -/

/-- **What a roll amounts to**, for a formula that was read from a text and for any source. If the
source refuses no face, the breakdown has one share for each term, in the order of the terms:
with the term's sign, and with its value or its number of dice, their sides, and a face within
the sides for each of them. The dice of the formula are drawn for in its order, one face each
and none besides. The total is the sum of what the shares contribute, and lies between the
bounds of the formula; the roll is told under the canonical spelling. And a keystream refuses no
face at all. -/
theorem Formula.roll_meets_spec {text : String} {f : Formula}
    (hparse : Formula.parse text = .ok f) :
    (∀ {source next : Source} {roll : Roll}, f.roll source = (.ok roll, next) →
      List.Forall₂ SignedTerm.Shows f.terms roll.breakdown ∧
      Fits roll.faces f.diceSides ∧
      (∀ log, f.rollWith (Draw.logged Source.draw) (source, log) =
        (.ok roll, (next, log ++ f.diceSides.zip roll.faces))) ∧
      roll.total = sumOf Share.contribution roll.breakdown ∧
      (f.min ≤ roll.total ∧ roll.total ≤ f.max) ∧
      roll.expression = f.canonical) ∧
    ∀ stream, ∃ roll stream', f.roll (.seeded stream) = (.ok roll, .seeded stream') := by
  constructor
  · intro source next roll h
    obtain ⟨hexpression, hshows⟩ := Formula.shows_of_rollWith Source.honest hparse h
    have hfits : Fits roll.faces f.diceSides :=
      fits_iff_exists_shares.mpr ⟨roll.breakdown, hshows, rfl⟩
    exact ⟨hshows, hfits, Formula.rollWith_logged h, rfl, Formula.contributions_mem hshows,
      hexpression⟩
  · intro stream
    obtain ⟨roll, _, hroll, stream', rfl⟩ :=
      f.rollWith_steady Source.steady_seeded ⟨stream, rfl⟩
    exact ⟨roll, stream', hroll⟩

/-- Two scripted faces, and a third from the keystream of the seed 7 below them. -/
theorem Formula.roll_meets_spec_mixed :
    ∃ f, Formula.parse "2d6 - 1d4 + 3" = .ok f ∧ ∃ roll next,
      f.roll (.scripted [2, 5] (.seeded (.ofSeed 7))) = (.ok roll, next) ∧
      f.rollWith (Draw.logged Source.draw) (.scripted [2, 5] (.seeded (.ofSeed 7)), []) =
        (.ok roll, (next, [(6, 2), (6, 5), (4, 2)])) ∧
      (1 ≤ roll.total ∧ roll.total ≤ 14) ∧ roll.expression = "2d6-1d4+3" := by
  have hparse : Formula.parse "2d6 - 1d4 + 3" = .ok ⟨"2d6 - 1d4 + 3",
      [⟨.plus, .dice 2 6⟩, ⟨.minus, .dice 1 4⟩, ⟨.plus, .constant 3⟩]⟩ := by
    decide +kernel
  have hroll : Formula.roll ⟨"2d6 - 1d4 + 3",
      [⟨.plus, .dice 2 6⟩, ⟨.minus, .dice 1 4⟩, ⟨.plus, .constant 3⟩]⟩
      (.scripted [2, 5] (.seeded (.ofSeed 7))) =
      (.ok ⟨"2d6-1d4+3", [.dice .plus 2 6 [2, 5], .dice .minus 1 4 [2], .constant .plus 3]⟩,
        .scripted [] (.seeded ⟨Key.ofSeed 7, 1⟩)) := by
    decide +kernel
  obtain ⟨-, -, hlog, -, hbounds, hexpression⟩ := (Formula.roll_meets_spec hparse).1 hroll
  exact ⟨_, hparse, _, _, hroll, hlog [], hbounds, hexpression⟩

end Tabletop
