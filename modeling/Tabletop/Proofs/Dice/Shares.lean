import Mathlib.Data.List.Forall2
import Tabletop.Dice.Roll

/-!
# What the Terms of a Formula May Show

The dice of a formula are listed in the order in which they are rolled, each by the number
of its sides. A list of faces **fits** a list of dice when it has one face for each die,
from one up to its sides. Grouped by terms, such a list is what the terms show:
`SignedTerm.Shows t share` says that the share is one that the term may show.

A script of fitting faces is what the roll shows, and the roll takes no other face. This needs
no more of the script than that it shows its faces one after another (`Replays`).

## Main definitions

* `Term.diceSides`, `Formula.diceSides`: the sides of the dice, in the order of rolling.
* `Fits`: one face for each die.
* `SignedTerm.Shows`: what a term may show.
* `Replays`: what makes a script.

## Main results

* `fits_iff_exists_shares`: the fitting faces are those of the shares that the terms may
  show.
* `Formula.rollWith_script`, `Formula.roll_scripted`: the roll of a script of fitting faces.
-/

namespace Tabletop

/-- The sides of the **dice** of a term. -/
def Term.diceSides : Term → List Nat
  | .dice count sides => List.replicate count sides
  | .constant _ => []

/-- The sides of the **dice** of a list of terms, in the order in which they are rolled. -/
def diceSidesOf (ts : List SignedTerm) : List Nat :=
  ts.flatMap fun t => t.term.diceSides

/-- The sides of the **dice** of a formula, in the order in which they are rolled. -/
def Formula.diceSides (f : Formula) : List Nat :=
  diceSidesOf f.terms

/-- The faces **fit** the dice: there is one for each die, from one up to its sides. -/
def Fits (faces dice : List Nat) : Prop :=
  List.Forall₂ (fun face sides => 1 ≤ face ∧ face ≤ sides) faces dice

/-- The faces that a term showed. -/
def Share.faces : Share → List Nat
  | .dice _ _ _ faces => faces
  | .constant _ _ => []

/-- The share is one that the term **may show**: a constant shows itself, and a group of dice
one fitting face for each die. -/
inductive SignedTerm.Shows : SignedTerm → Share → Prop
  | constant {sign : Sign} {value : Nat} :
      Shows ⟨sign, .constant value⟩ (.constant sign value)
  | dice {sign : Sign} {count sides : Nat} {faces : List Nat} :
      Fits faces (List.replicate count sides) →
      Shows ⟨sign, .dice count sides⟩ (.dice sign count sides faces)

/-! ### Fitting faces -/

/-- Faces fit equal dice when there are as many, each within the sides. -/
theorem fits_replicate_iff {faces : List Nat} {count sides : Nat} :
    Fits faces (List.replicate count sides) ↔
      faces.length = count ∧ ∀ face ∈ faces, 1 ≤ face ∧ face ≤ sides := by
  induction faces generalizing count with
  | nil =>
      cases count with
      | zero => simp [Fits]
      | succ count => simp [Fits, List.replicate_succ]
  | cons face faces ih =>
      cases count with
      | zero => simp [Fits]
      | succ count =>
          rw [List.replicate_succ, Fits, List.forall₂_cons, ← Fits, ih]
          simp only [List.length_cons, List.forall_mem_cons, Nat.add_right_cancel_iff]
          tauto

/-- The faces that a term shows fit its dice. -/
theorem SignedTerm.Shows.fits {t : SignedTerm} {share : Share} (h : t.Shows share) :
    Fits share.faces t.term.diceSides := by
  cases h with
  | constant => exact .nil
  | dice hfits => exact hfits

/-- Faces that fit the dice of a term are what it may show. -/
theorem exists_share_of_fits {t : SignedTerm} {faces : List Nat}
    (h : Fits faces t.term.diceSides) :
    ∃ share, t.Shows share ∧ share.faces = faces := by
  obtain ⟨sign, term⟩ := t
  cases term with
  | dice count sides => exact ⟨.dice sign count sides faces, .dice h, rfl⟩
  | constant value =>
      obtain rfl : faces = [] := List.forall₂_nil_right_iff.mp h
      exact ⟨.constant sign value, .constant, rfl⟩

/-- Faces that fit two lists of dice fit them one after the other. -/
theorem Fits.exists_append {faces dice dice' : List Nat} (h : Fits faces (dice ++ dice')) :
    ∃ front back, faces = front ++ back ∧ Fits front dice ∧ Fits back dice' :=
  ⟨_, _, (List.take_append_drop dice.length faces).symm, List.forall₂_take_append _ _ _ h,
    List.forall₂_drop_append _ _ _ h⟩

/-- **Fitting faces are shares**: the faces that fit the dice of the terms are those of the
shares that the terms may show. -/
theorem fits_iff_exists_shares {ts : List SignedTerm} {faces : List Nat} :
    Fits faces (diceSidesOf ts) ↔
      ∃ shares, List.Forall₂ SignedTerm.Shows ts shares ∧ shares.flatMap Share.faces = faces := by
  constructor
  · intro h
    induction ts generalizing faces with
    | nil =>
        obtain rfl : faces = [] := List.forall₂_nil_right_iff.mp h
        exact ⟨[], .nil, rfl⟩
    | cons t ts ih =>
        obtain ⟨front, back, rfl, hfront, hback⟩ := h.exists_append
        obtain ⟨share, hshows, rfl⟩ := exists_share_of_fits hfront
        obtain ⟨shares, hshares, rfl⟩ := ih hback
        exact ⟨share :: shares, .cons hshows hshares, rfl⟩
  · rintro ⟨shares, hshares, rfl⟩
    induction hshares with
    | nil => exact .nil
    | cons hshows _ ih => exact List.rel_append hshows.fits ih

/-! ### Rolling a script -/

/-- `script faces` is a state that **replays** the faces: as long as there are any, the next one
is what a die shows that has it. What comes after the last one is left open. -/
def Replays {ε σ : Type} (draw : Draw ε σ) (script : List Nat → σ) : Prop :=
  ∀ sides face faces, 1 ≤ face → face ≤ sides →
    draw sides (script (face :: faces)) = (.ok face, script faces)

/-- A scripted source replays its faces, whatever its fallback is. -/
theorem Source.replays_scripted (fallback : Source) :
    Replays Source.draw (.scripted · fallback) := by
  intro sides face faces hlow hhigh
  rw [Source.draw, if_pos ⟨hlow, hhigh⟩]

section Script

variable {ε σ : Type} {draw : Draw ε σ} {script : List Nat → σ}

/-- Faces within the sides are drawn from a script as they stand. -/
theorem Draw.many_script (hscript : Replays draw script) {sides : Nat} (more : List Nat)
    {faces : List Nat} (h : ∀ face ∈ faces, 1 ≤ face ∧ face ≤ sides) :
    draw.many sides faces.length (script (faces ++ more)) = (.ok faces, script more) := by
  induction faces with
  | nil => rfl
  | cons face faces ih =>
      obtain ⟨⟨hlow, hhigh⟩, hfaces⟩ := List.forall_mem_cons.mp h
      simp only [List.cons_append, List.length_cons, Draw.many, hscript _ _ _ hlow hhigh,
        ih hfaces, Drawn.andThen_ok]

/-- A term that is rolled from a script of its faces shows them. -/
theorem SignedTerm.rollWith_script (hscript : Replays draw script) {t : SignedTerm}
    {share : Share} (h : t.Shows share) (more : List Nat) :
    t.rollWith draw (script (share.faces ++ more)) = (.ok share, script more) := by
  cases h with
  | constant => rfl
  | dice hfits =>
      obtain ⟨rfl, hfaces⟩ := fits_replicate_iff.mp hfits
      simp only [SignedTerm.rollWith, Share.faces, Draw.many_script hscript more hfaces,
        Drawn.andThen_ok]

/-- Terms that are rolled from a script of their faces show them, and take no other face. -/
theorem rollTermsWith_script (hscript : Replays draw script) {ts : List SignedTerm}
    {shares : List Share} (h : List.Forall₂ SignedTerm.Shows ts shares) (more : List Nat) :
    rollTermsWith draw ts (script (shares.flatMap Share.faces ++ more)) =
      (.ok shares, script more) := by
  induction h with
  | nil => rfl
  | cons hshows _ ih =>
      rw [List.flatMap_cons, List.append_assoc]
      simp only [rollTermsWith, SignedTerm.rollWith_script hscript hshows, ih, Drawn.andThen_ok]

/-- **A script of fitting faces is what the roll shows**, and the roll takes no other face. -/
theorem Formula.rollWith_script (hscript : Replays draw script) {f : Formula}
    {shares : List Share} (h : List.Forall₂ SignedTerm.Shows f.terms shares) (more : List Nat) :
    f.rollWith draw (script (shares.flatMap Share.faces ++ more)) =
      (.ok ⟨f.canonical, shares⟩, script more) := by
  simp only [Formula.rollWith, rollTermsWith_script hscript h more, Drawn.andThen_ok]

end Script

/-- A scripted source of fitting faces is what the roll shows. -/
theorem Formula.roll_scripted {f : Formula} {shares : List Share}
    (h : List.Forall₂ SignedTerm.Shows f.terms shares) (fallback : Source) :
    f.roll (.scripted (shares.flatMap Share.faces) fallback) =
      (.ok ⟨f.canonical, shares⟩, .scripted [] fallback) := by
  have hroll := Formula.rollWith_script (Source.replays_scripted fallback) h []
  rwa [List.append_nil] at hroll

end Tabletop
