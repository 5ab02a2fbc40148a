import Tabletop.Proofs.Batch.Isolation
import Tabletop.Proofs.Dice.Recording
import Tabletop.Proofs.SavedRolls.Reachable

/-!
# Replaying a Batch

The items of a batch keep all the faces that were drawn for them, and keep them in the order of
drawing: item by item, term by term, die by die. A request that failed has drawn none. So the
faces of the items, one after another, are a **script of the whole batch**: rolled again from
it, the same requests come to the same items, and the script is used up.

## Main definitions

* `BatchItem.faces`: the faces that were drawn for an item.

## Main results

* `rollBatchWith_recorded`: a batch again, from the faces of its items.
* `rollBatchWith_steady`: a batch that is never refused a face.
* `rollBatch_replays`: what a keystream has shown is replayed.
-/

namespace Tabletop

variable {ε σ : Type} {draw : Draw ε σ} {rolls : SavedRolls}

/-- The faces that were **drawn** for an item, in the order of drawing. -/
def BatchItem.faces (item : BatchItem) : List Nat :=
  match item.outcome with
  | .ok roll => roll.faces
  | .error _ => []

/-- The formula of a request was **read from a text**, where there is one. -/
theorem RollRequest.parsed_of_formula (hrolls : rolls.Reachable) {request : RollRequest}
    {f : Formula} (h : request.formula rolls = .ok f) : ∃ text, Formula.parse text = .ok f := by
  have hok : ∀ {φ : Type} (g : φ → RollFailure) {formula : Except φ Formula},
      formula.mapError g = .ok f → formula = .ok f := by
    rintro φ g (failure | formula) hmap
    · cases hmap
    · cases hmap
      rfl
  cases request with
  | adhoc text => exact ⟨text, hok _ h⟩
  | named name => exact hrolls.parsed_of_resolve (hok _ h)
  | invalid value => cases h

/-! ### From the recorded faces -/

section Recorded

variable {δ τ : Type} {draw' : Draw δ τ} {script : List Nat → τ}

/-- **One request again**, from the faces that were drawn for it. -/
theorem RollRequest.rollWith_recorded (hrolls : rolls.Reachable) (hdraw : draw.Honest)
    (hscript : Replays draw' script) {request : RollRequest} {s m : σ} {item : BatchItem}
    (h : request.rollWith draw rolls s = (.ok item, m)) (more : List Nat) :
    request.rollWith draw' rolls (script (item.faces ++ more)) = (.ok item, script more) := by
  obtain ⟨echo, outcome⟩ := item
  obtain ⟨rfl, hroll⟩ := rollWith_eq_ok_iff.mp h
  rcases rollIfGood_eq_ok hroll with ⟨failure, -, rfl, -⟩ | ⟨f, roll, hformula, rfl, hf⟩
  · exact (rollWith_of_failed h).2 draw' (script more)
  · obtain ⟨text, hparse⟩ := parsed_of_formula hrolls hformula
    refine rollWith_eq_ok_iff.mpr ⟨rfl, ?_⟩
    rw [hformula, rollIfGood, BatchItem.faces,
      Formula.rollWith_recorded hdraw hparse hf hscript more, Drawn.andThen_ok]

/-- **A batch again**, from the faces of its items: it comes to the same items, and takes no other
face. -/
theorem rollBatchWith_recorded (hrolls : rolls.Reachable) (hdraw : draw.Honest)
    (hscript : Replays draw' script) {requests : List RollRequest} {s s' : σ}
    {items : List BatchItem} (h : rollBatchWith draw rolls requests s = (.ok items, s'))
    (more : List Nat) :
    rollBatchWith draw' rolls requests (script (items.flatMap BatchItem.faces ++ more)) =
      (.ok items, script more) := by
  induction requests generalizing s items with
  | nil =>
      cases h
      rfl
  | cons request requests ih =>
      obtain ⟨item, m, rest, hitem, hrest, rfl⟩ := rollBatchWith_cons_eq_ok_iff.mp h
      rw [List.flatMap_cons, List.append_assoc]
      exact rollBatchWith_cons_eq_ok_iff.mpr
        ⟨item, _, rest, RollRequest.rollWith_recorded hrolls hdraw hscript hitem _, ih hrest, rfl⟩

end Recorded

/-! ### From a keystream -/

section Steady

variable {P : σ → Prop}

/-- A formula that there may be or not is rolled **without refusal**. -/
theorem rollIfGood_steady {φ : Type} (hdraw : draw.Steady P) (formula : Except φ Formula) {s : σ}
    (hs : P s) : (rollIfGood draw formula s).Succeeds P := by
  cases formula with
  | error failure => exact Drawn.succeeds_ok (Except.error failure) hs
  | ok f =>
      exact (f.rollWith_steady hdraw hs).andThen fun roll _ => Drawn.succeeds_ok (Except.ok roll)

/-- A request of a batch is rolled without refusal, whether it comes to a roll or not. -/
theorem RollRequest.rollWith_steady (hdraw : draw.Steady P) (rolls : SavedRolls)
    (request : RollRequest) {s : σ} (hs : P s) : (request.rollWith draw rolls s).Succeeds P :=
  (rollIfGood_steady hdraw (request.formula rolls) hs).andThen fun outcome _ =>
    Drawn.succeeds_ok (BatchItem.mk request outcome)

/-- Where no draw is refused, **no batch is**. -/
theorem rollBatchWith_steady (hdraw : draw.Steady P) (rolls : SavedRolls)
    (requests : List RollRequest) {s : σ} (hs : P s) :
    (rollBatchWith draw rolls requests s).Succeeds P := by
  induction requests generalizing s with
  | nil => exact Drawn.succeeds_ok [] hs
  | cons request requests ih =>
      refine (request.rollWith_steady hdraw rolls hs).andThen fun item m hm => ?_
      exact (ih hm).andThen fun items _ => Drawn.succeeds_ok (item :: items)

end Steady

/-- **What a keystream has shown is replayed.** A batch that is rolled from a keystream comes to its
end, and its faces are a script of it: from a source with this script, the requests come to the
same items, all of the script is used, and the fallback is left as it was. The same holds of any
script, whatever comes after its last face. -/
theorem rollBatch_replays (hrolls : rolls.Reachable) (requests : List RollRequest)
    (stream : Keystream) :
    ∃ items stream',
      rollBatch rolls requests (.seeded stream) = (.ok items, .seeded stream') ∧
      (∀ fallback, ∃ last,
        rollBatch rolls requests (.scripted (items.flatMap BatchItem.faces) fallback) =
            (.ok items, last) ∧
          last.remaining? = some 0 ∧ last = .scripted [] fallback) ∧
      ∀ {δ τ : Type} (draw : Draw δ τ) (script : List Nat → τ), Replays draw script →
        rollBatchWith draw rolls requests (script (items.flatMap BatchItem.faces)) =
          (.ok items, script []) := by
  obtain ⟨items, s', hroll, stream', rfl⟩ :=
    rollBatchWith_steady Source.steady_seeded rolls requests ⟨stream, rfl⟩
  have hreplay : ∀ {δ τ : Type} (draw : Draw δ τ) (script : List Nat → τ), Replays draw script →
      rollBatchWith draw rolls requests (script (items.flatMap BatchItem.faces)) =
        (.ok items, script []) := by
    intro δ τ draw script hscript
    have h := rollBatchWith_recorded hrolls Source.honest hscript hroll []
    rwa [List.append_nil] at h
  refine ⟨items, stream', hroll, ?_, hreplay⟩
  intro fallback
  exact ⟨_, hreplay _ _ (Source.replays_scripted fallback), rfl, rfl⟩

/-- A saved roll, a request that fails and another die, rolled from the seed 7, and again from their
two faces. -/
theorem rollBatch_replays_seed :
    ∃ rolls : SavedRolls, rolls.Reachable ∧ ∃ items stream,
      rollBatch rolls [.named "dart", .adhoc "bogus", .adhoc "1d6"] (.seeded (.ofSeed 7)) =
        (.ok items, .seeded stream) ∧
      items.flatMap BatchItem.faces = [3, 1] ∧
      rollBatch rolls [.named "dart", .adhoc "bogus", .adhoc "1d6"]
          (.scripted [3, 1] (.counting 0)) = (.ok items, .scripted [] (.counting 0)) := by
  have hsave : SavedRolls.empty.save "dart" "1d6" =
      .ok (⟨"dart", ⟨"1d6", [⟨.plus, .dice 1 6⟩]⟩⟩,
        ⟨[⟨"dart", ⟨"1d6", [⟨.plus, .dice 1 6⟩]⟩⟩]⟩) := by
    decide +kernel
  have hcomputed : ((rollBatch ⟨[⟨"dart", ⟨"1d6", [⟨.plus, .dice 1 6⟩]⟩⟩]⟩
      [.named "dart", .adhoc "bogus", .adhoc "1d6"] (.seeded (.ofSeed 7))).1.map
        fun items => items.flatMap BatchItem.faces) = .ok [3, 1] := by
    decide +kernel
  have hrolls := SavedRolls.Reachable.save .empty hsave
  obtain ⟨items, stream, hroll, hreplay, -⟩ := rollBatch_replays hrolls
    [.named "dart", .adhoc "bogus", .adhoc "1d6"] (.ofSeed 7)
  rw [hroll] at hcomputed
  have hfaces : items.flatMap BatchItem.faces = [3, 1] := Except.ok.inj hcomputed
  obtain ⟨last, hagain, -, rfl⟩ := hreplay (.counting 0)
  rw [hfaces] at hagain
  exact ⟨_, hrolls, items, stream, hroll, hfaces, hagain⟩

end Tabletop
