import Tabletop.Proofs.Server.Keys

/-!
# The Turn Order and the Rolls Apart

Requests under `/init` read and write the turn order, all others read and write the saved rolls and
the shared keystream, and **neither side notices the other**. Whoever asks about the turn order of
a server that others use for rolling gets the same answers as on a server without the others, and
so do the others, in whatever order their requests come in between. The same is true of what the
requests leave behind.

The proof is by unwinding. Two servers look alike from one side if they agree in all that this side
reads. Requests of the side keep them alike and are answered alike, and a request of the other side
to one of the two servers keeps them alike as well.

## Main definitions

* `Server.repliesTo`: the replies to those of several requests that are of one side.
* `Server.SameTurns`, `Server.SameRolls`: servers that look alike from one side.

## Main results

* `Server.answer_withRolls`: a request under `/init` does not depend on the saved rolls and the
  shared keystream.
* `Server.repliesTo_of_unwinding`: the answers of one side do not depend on the other.
* `Server.interleaved_answers`: they do not on a server, in both directions.
-/

namespace Tabletop.Server

variable {s t : Server} {r : Request}

/-! ### Requests about the turn order -/

section Rolls

variable (s : Server) (rolls : SavedRolls) (shared : Keystream)

/-- Adding an entity does nothing with the saved rolls and the shared keystream. -/
theorem addEntity_withRolls :
    ({ s with rolls := rolls, shared := shared } : Server).addEntity r =
      ((s.addEntity r).1, { (s.addEntity r).2 with rolls := rolls, shared := shared }) := by
  cases hentity : r.entity with
  | error fault => simp only [addEntity, hentity]
  | ok entity =>
      cases hadd : s.tracker.add entity.1 entity.2 <;> simp only [addEntity, hentity, hadd]

/-- Removing an entity does nothing with the saved rolls and the shared keystream. -/
theorem removeEntity_withRolls (name : String) :
    ({ s with rolls := rolls, shared := shared } : Server).removeEntity name =
      ((s.removeEntity name).1,
        { (s.removeEntity name).2 with rolls := rolls, shared := shared }) := by
  cases hremove : s.tracker.remove name <;> simp only [removeEntity, hremove]

/-- An endpoint in the area of the turn order does **nothing with the saved rolls** and the shared
keystream. -/
theorem handle_withRolls {endpoint : Endpoint} (h : endpoint.area = "init") :
    ({ s with rolls := rolls, shared := shared } : Server).handle endpoint r =
      ((s.handle endpoint r).1,
        { (s.handle endpoint r).2 with rolls := rolls, shared := shared }) := by
  cases endpoint with
  | root | health | document | savedRolls | roll | savedRoll _ | formula _ =>
      simp [Endpoint.area] at h
  | turnOrder | clear => rfl
  | initiative =>
      rw [handle, handle]
      split
      · exact addEntity_withRolls s rolls shared
      · rfl
  | entity segment =>
      rw [handle, handle, withParameter, withParameter]
      split
      · rfl
      · split
        · exact removeEntity_withRolls s rolls shared _
        · rfl

/-- A request in the area of the turn order **does not depend on the saved rolls** and the shared
keystream. -/
theorem answer_withRolls (h : r.isUnder "init" = true) :
    ({ s with rolls := rolls, shared := shared } : Server).answer r =
      ((s.answer r).1, { (s.answer r).2 with rolls := rolls, shared := shared }) := by
  cases hendpoint : r.endpoint? with
  | none =>
      obtain ⟨reply, -, -, hanswer⟩ := answer_of_no_endpoint hendpoint
      rw [hanswer, hanswer]
      rfl
  | some endpoint =>
      have harea := (Request.isUnder_iff (Request.endpoint?_eq_some_iff.mp hendpoint).1).mp h
      rw [answer_of_endpoint? hendpoint, answer_of_endpoint? hendpoint,
        handle_withRolls s rolls shared harea]
      rfl

end Rolls

/-- A request about the turn order changes **nothing else**. -/
theorem answer_of_isUnder_init (h : r.isUnder "init" = true) :
    ∃ tracker, (s.answer r).2 = { s with tracker := tracker } := by
  have hroll : r.isUnder "roll" = false :=
    Bool.eq_false_iff.mpr fun hroll => absurd (Request.isUnder_unique h hroll) (by decide)
  exact answer_of_isIdle (Request.isIdle_of_not_isUnder hroll)

/-- Any other request changes nothing but **the saved rolls and the shared keystream**. -/
theorem answer_of_not_isUnder_init (h : r.isUnder "init" = false) :
    ∃ rolls shared, (s.answer r).2 = { s with rolls := rolls, shared := shared } := by
  have harea : ∀ {endpoint : Endpoint}, r.endpoint? = some endpoint → endpoint.area ≠ "init" := by
    intro endpoint hendpoint heq
    rw [(Request.isUnder_iff (Request.endpoint?_eq_some_iff.mp hendpoint).1).mpr heq] at h
    cases h
  obtain ⟨reply, houtcome, -⟩ := exists_outcome s r
  generalize (s.answer r).2 = next at houtcome
  cases houtcome with
  | shown => exact ⟨s.rolls, s.shared, rfl⟩
  | rolled => exact ⟨s.rolls, _, rfl⟩
  | @saved _ _ _ _ rolls => exact ⟨rolls, s.shared, rfl⟩
  | added hendpoint => exact absurd rfl (harea hendpoint)
  | removed hendpoint => exact absurd rfl (harea hendpoint)
  | cleared hendpoint => exact absurd rfl (harea hendpoint)

/-! ### Servers that look alike -/

/-- Servers that look alike to **requests about the turn order**: they differ in nothing but the
saved rolls and the shared keystream. -/
def SameTurns (s t : Server) : Prop :=
  t = { s with rolls := t.rolls, shared := t.shared }

/-- Servers that look alike to **all other requests**: they differ in nothing but the turn
order. -/
def SameRolls (s t : Server) : Prop :=
  t = { s with tracker := t.tracker }

/-- A request about the turn order is answered alike where the turn order is the same, and it
**stays the same**. -/
theorem SameTurns.answer (h : s.SameTurns t) (hr : r.isUnder "init" = true) :
    (s.answer r).1 = (t.answer r).1 ∧ (s.answer r).2.SameTurns (t.answer r).2 := by
  rw [h, answer_withRolls s t.rolls t.shared hr]
  exact ⟨rfl, rfl⟩

/-- Any other request leaves a server with **the same turn order**. -/
theorem SameTurns.answer_left (h : s.SameTurns t) (hr : r.isUnder "init" = false) :
    (s.answer r).2.SameTurns t := by
  obtain ⟨rolls, shared, hnext⟩ := answer_of_not_isUnder_init (s := s) hr
  rw [hnext]
  exact h

/-- A request about anything but the turn order is answered alike where all else is the same, and
it **stays the same**. -/
theorem SameRolls.answer (h : s.SameRolls t) (hr : r.isUnder "init" = false) :
    (s.answer r).1 = (t.answer r).1 ∧ (s.answer r).2.SameRolls (t.answer r).2 := by
  rw [h, answer_withTracker s t.tracker hr]
  exact ⟨rfl, rfl⟩

/-- A request about the turn order leaves a server that is **otherwise the same**. -/
theorem SameRolls.answer_left (h : s.SameRolls t) (hr : r.isUnder "init" = true) :
    (s.answer r).2.SameRolls t := by
  obtain ⟨tracker, hnext⟩ := answer_of_isUnder_init (s := s) hr
  rw [hnext]
  exact h

/-! ### Interleaved requests -/

/-- The replies to those of several requests that **satisfy a condition**, in their order, where
all of them are answered one after another. -/
def repliesTo (s : Server) (requests : List Request) (p : Request → Bool) : List Reply :=
  ((requests.zip (s.answerAll requests).1).filter fun exchange => p exchange.1).map Prod.snd

variable {p : Request → Bool} {requests : List Request}

/-- A request of this kind **adds its reply** to those of the others. -/
theorem repliesTo_cons_of_pos (h : p r = true) :
    s.repliesTo (r :: requests) p = (s.answer r).1 :: (s.answer r).2.repliesTo requests p := by
  rw [repliesTo, answerAll_cons, List.zip_cons_cons,
    List.filter_cons_of_pos (p := fun exchange : Request × Reply => p exchange.1) h, List.map_cons]
  rfl

/-- Any other request only leaves **the server** to the requests behind it. -/
theorem repliesTo_cons_of_neg (h : p r = false) :
    s.repliesTo (r :: requests) p = (s.answer r).2.repliesTo requests p := by
  rw [repliesTo, answerAll_cons, List.zip_cons_cons, List.filter_cons_of_neg (by simp [h])]
  rfl

/-- **Unwinding.** Where servers that look alike answer the requests of one side alike and go on to
look alike, and requests of the other side to one of them do not make a difference, the first side
gets the answers of a server of its own. -/
theorem repliesTo_of_unwinding {R : Server → Server → Prop}
    (hseen : ∀ {s t r}, R s t → p r = true →
      (s.answer r).1 = (t.answer r).1 ∧ R (s.answer r).2 (t.answer r).2)
    (hunseen : ∀ {s t r}, R s t → p r = false → R (s.answer r).2 t)
    (requests : List Request) (h : R s t) :
    s.repliesTo requests p = (t.answerAll (requests.filter p)).1 ∧
      R (s.answerAll requests).2 (t.answerAll (requests.filter p)).2 := by
  induction requests generalizing s t with
  | nil => exact ⟨rfl, h⟩
  | cons r requests ih =>
      cases hp : p r with
      | true =>
          obtain ⟨hreply, hnext⟩ := hseen h hp
          obtain ⟨hreplies, hlast⟩ := ih hnext
          rw [repliesTo_cons_of_pos hp, List.filter_cons_of_pos hp, hreply, hreplies]
          exact ⟨rfl, hlast⟩
      | false =>
          rw [repliesTo_cons_of_neg hp, List.filter_cons_of_neg (by simp [hp])]
          exact ih (hunseen h hp)

/-- **The turn order and the rolls do not interfere.** Of requests in any order to whatever server,
one that has just started among them, those about the turn order are answered as if there were no
others, and so are the others. What is left is the turn order that the former leave by themselves,
and all else as the latter leave it by themselves. -/
theorem interleaved_answers (s : Server) (requests : List Request) :
    let turns := requests.filter fun r => r.isUnder "init"
    let others := requests.filter fun r => !r.isUnder "init"
    (s.repliesTo requests fun r => r.isUnder "init") = (s.answerAll turns).1 ∧
      (s.repliesTo requests fun r => !r.isUnder "init") = (s.answerAll others).1 ∧
      (s.answerAll requests).2 =
        { (s.answerAll others).2 with tracker := (s.answerAll turns).2.tracker } := by
  intro turns others
  obtain ⟨hturns, hsameTurns⟩ := repliesTo_of_unwinding (R := SameTurns)
    (fun h hr => h.answer hr) (fun h hr => h.answer_left hr) requests (rfl : s.SameTurns s)
  obtain ⟨hothers, hsameRolls⟩ := repliesTo_of_unwinding (R := SameRolls)
    (p := fun r => !r.isUnder "init") (fun h hr => h.answer (by simpa using hr))
    (fun h hr => h.answer_left (by simpa using hr)) requests (rfl : s.SameRolls s)
  refine ⟨hturns, hothers, ?_⟩
  rw [hsameTurns, hsameRolls]

end Tabletop.Server
