import Tabletop.Proofs.Dice.Shares
import Tabletop.Proofs.Formula.Acceptance

/-!
# Recording a Roll

A roll keeps every face that it has drawn, in the order of drawing. So the faces in its
breakdown are a **script** of the roll: rolled again from them, the formula shows the same
faces on the same dice, and needs no others.

That takes two things. The faces must be such as the dice have, or else the script would be
refused (`Draw.Honest`); every source is honest. And a formula must be one whose dice have
faces at all, such as those that are read from a text.

## Main definitions

* `Draw.Honest`: no die shows a face that it does not have.
* `Drawn.Succeeds`, `Draw.Steady`: from certain states on, no draw is refused.
* `Roll.faces`: the faces that a roll has drawn.

## Main results

* `Formula.shows_of_rollWith`: what the terms of a formula show.
* `Formula.rollWith_recorded`: a roll again, from the faces that it has drawn.
* `Formula.rollWith_steady`: a roll that is never refused a face.
* `Source.steady_seeded`: a keystream never refuses one.
-/

namespace Tabletop

variable {ε σ : Type} {draw : Draw ε σ}

/-- No die shows a face that it **does not have**. -/
def Draw.Honest (draw : Draw ε σ) : Prop :=
  ∀ {sides face : Nat} {s s' : σ}, 0 < sides → sides ≤ wordRange →
    draw sides s = (.ok face, s') → 1 ≤ face ∧ face ≤ sides

/-- What is drawn **comes to a value**, and leaves a state in `P`. -/
def Drawn.Succeeds {α : Type} (drawn : Drawn ε σ α) (P : σ → Prop) : Prop :=
  ∃ a s, drawn = (.ok a, s) ∧ P s

/-- From the states in `P` on, **no draw is refused**, and only such states are left. -/
def Draw.Steady (draw : Draw ε σ) (P : σ → Prop) : Prop :=
  ∀ sides s, P s → (draw sides s).Succeeds P

/-- The faces that a roll has drawn, in the order of drawing. -/
def Roll.faces (r : Roll) : List Nat :=
  r.breakdown.flatMap Share.faces

/-- Every source is honest. -/
theorem Source.honest : Draw.Honest Source.draw :=
  fun hpos hsides h => Source.draw_mem hpos hsides h

/-- A keystream never refuses a face. -/
theorem Source.steady_seeded : Draw.Steady Source.draw fun s => ∃ stream, s = .seeded stream := by
  rintro sides _ ⟨stream, rfl⟩
  exact ⟨_, _, rfl, _, rfl⟩

/-! ### What a roll shows -/

/-- Equal dice show one fitting face each. -/
theorem Draw.Honest.fits (hdraw : draw.Honest) {count sides : Nat} (hpos : 0 < sides)
    (hsides : sides ≤ wordRange) {s s' : σ} {faces : List Nat}
    (h : draw.many sides count s = (.ok faces, s')) :
    Fits faces (List.replicate count sides) := by
  induction count generalizing s faces with
  | zero =>
      cases h
      exact .nil
  | succ count ih =>
      obtain ⟨face, m, hface, h⟩ := Drawn.andThen_eq_ok_iff.mp h
      obtain ⟨others, _, hothers, h⟩ := Drawn.andThen_eq_ok_iff.mp h
      cases h
      exact .cons (hdraw hpos hsides hface) (ih hothers)

/-- A term within its bounds shows what it **may show**. -/
theorem SignedTerm.shows_of_rollWith (hdraw : draw.Honest) {t : SignedTerm}
    (hvalid : t.term.Valid) {s s' : σ} {share : Share}
    (h : t.rollWith draw s = (.ok share, s')) : t.Shows share := by
  obtain ⟨sign, term⟩ := t
  cases term with
  | constant value =>
      cases h
      exact .constant
  | dice count sides =>
      obtain ⟨-, -, htwo, hsides⟩ := hvalid
      obtain ⟨faces, _, hfaces, h⟩ := Drawn.andThen_eq_ok_iff.mp h
      cases h
      exact .dice (hdraw.fits (by omega) (by rw [wordRange]; omega) hfaces)

/-- Terms within their bounds show what they may show, **each in its place**. -/
theorem shows_of_rollTermsWith (hdraw : draw.Honest) {ts : List SignedTerm}
    (hvalid : ∀ t ∈ ts, t.term.Valid) {s s' : σ} {shares : List Share}
    (h : rollTermsWith draw ts s = (.ok shares, s')) :
    List.Forall₂ SignedTerm.Shows ts shares := by
  induction ts generalizing s shares with
  | nil =>
      cases h
      exact .nil
  | cons t ts ih =>
      obtain ⟨hhead, htail⟩ := List.forall_mem_cons.mp hvalid
      obtain ⟨share, m, hshare, h⟩ := Drawn.andThen_eq_ok_iff.mp h
      obtain ⟨others, _, hothers, h⟩ := Drawn.andThen_eq_ok_iff.mp h
      cases h
      exact .cons (SignedTerm.shows_of_rollWith hdraw hhead hshare) (ih htail hothers)

/-- A formula that was read from a text shows **what its terms may show**. -/
theorem Formula.shows_of_rollWith (hdraw : draw.Honest) {text : String} {f : Formula}
    (hparse : Formula.parse text = .ok f) {s s' : σ} {roll : Roll}
    (h : f.rollWith draw s = (.ok roll, s')) :
    roll.expression = f.canonical ∧ List.Forall₂ SignedTerm.Shows f.terms roll.breakdown := by
  obtain ⟨shares, _, hshares, h⟩ := Drawn.andThen_eq_ok_iff.mp h
  cases h
  exact ⟨rfl, shows_of_rollTermsWith hdraw (Formula.valid_of_parse hparse) hshares⟩

/-- **Rolled again from the faces that it has drawn**, a formula shows the same, and takes no other
face. -/
theorem Formula.rollWith_recorded (hdraw : draw.Honest) {text : String} {f : Formula}
    (hparse : Formula.parse text = .ok f) {s s' : σ} {roll : Roll}
    (h : f.rollWith draw s = (.ok roll, s')) {δ τ : Type} {draw' : Draw δ τ}
    {script : List Nat → τ} (hscript : Replays draw' script) (more : List Nat) :
    f.rollWith draw' (script (roll.faces ++ more)) = (.ok roll, script more) := by
  obtain ⟨hexpression, hshows⟩ := Formula.shows_of_rollWith hdraw hparse h
  obtain ⟨expression, shares⟩ := roll
  obtain rfl : expression = f.canonical := hexpression
  exact Formula.rollWith_script hscript hshows more

/-! ### Rolls that are not refused a face -/

section Steady

variable {P : σ → Prop} {α β : Type}

/-- A value that is there is a success. -/
theorem Drawn.succeeds_ok (a : α) {s : σ} (h : P s) :
    Drawn.Succeeds ((.ok a, s) : Drawn ε σ α) P :=
  ⟨a, s, rfl, h⟩

/-- Two steps succeed when **the first does, and the second from whatever that leaves**. -/
theorem Drawn.Succeeds.andThen {drawn : Drawn ε σ α} {next : α → σ → Drawn ε σ β}
    (h : drawn.Succeeds P) (hnext : ∀ a s, P s → (next a s).Succeeds P) :
    (drawn.andThen next).Succeeds P := by
  obtain ⟨a, s, rfl, hs⟩ := h
  exact hnext a s hs

/-- Equal dice are not refused a face. -/
theorem Draw.Steady.many (hdraw : draw.Steady P) (sides count : Nat) {s : σ} (hs : P s) :
    (draw.many sides count s).Succeeds P := by
  induction count generalizing s with
  | zero => exact Drawn.succeeds_ok [] hs
  | succ count ih =>
      refine (hdraw sides s hs).andThen fun face m hm => ?_
      exact (ih hm).andThen fun faces _ => Drawn.succeeds_ok (face :: faces)

/-- A term is not refused a face. -/
theorem SignedTerm.rollWith_steady (hdraw : draw.Steady P) (t : SignedTerm) {s : σ} (hs : P s) :
    (t.rollWith draw s).Succeeds P := by
  obtain ⟨sign, term⟩ := t
  cases term with
  | constant value => exact Drawn.succeeds_ok _ hs
  | dice count sides =>
      exact (hdraw.many sides count hs).andThen fun _ _ => Drawn.succeeds_ok _

/-- Terms are rolled **without refusal**, one after another. -/
theorem rollTermsWith_steady (hdraw : draw.Steady P) (ts : List SignedTerm) {s : σ} (hs : P s) :
    (rollTermsWith draw ts s).Succeeds P := by
  induction ts generalizing s with
  | nil => exact Drawn.succeeds_ok [] hs
  | cons t ts ih =>
      refine (t.rollWith_steady hdraw hs).andThen fun share m hm => ?_
      exact (ih hm).andThen fun shares _ => Drawn.succeeds_ok (share :: shares)

/-- Where no draw is refused, **no roll is**. -/
theorem Formula.rollWith_steady (hdraw : draw.Steady P) (f : Formula) {s : σ} (hs : P s) :
    (f.rollWith draw s).Succeeds P :=
  (rollTermsWith_steady hdraw f.terms hs).andThen fun _ _ => Drawn.succeeds_ok _

end Steady

end Tabletop
