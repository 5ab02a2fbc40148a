import Mathlib.Tactic.SplitIfs
import Tabletop.Proofs.Server.Outcome

/-!
# What a Request Depends On

The endpoints lie in **areas**, by the first segment of their paths, and outside of the area of the
turn order nothing depends on the tracker. Two servers that differ in nothing but the tracker
answer such a request alike, and differ in nothing but the tracker afterwards. The area can be
read off the path of any request, also of one that has no endpoint.

## Main definitions

* `Endpoint.area`, `Request.isUnder`: the area of an endpoint, and of a request.

## Main results

* `Request.isUnder_iff`: a request that is handled is under the area of its endpoint.
* `Server.answer_withTracker`: a request outside of the area of the turn order does not depend on
  the tracker.
-/

namespace Tabletop

/-- The first segment of the paths of an endpoint. -/
def Endpoint.area : Endpoint → String
  | root => ""
  | health => "health"
  | initiative | entity _ | turnOrder | clear => "init"
  | roll | savedRolls | savedRoll _ | formula _ => "roll"
  | document => "swagger.json"

/-- Whether the path of a request begins with a given segment. -/
def Request.isUnder (r : Request) (first : String) : Bool :=
  match Endpoint.pathOf r.path.toList with
  | '/' :: rest => (Endpoint.segments rest).head? = some first.toList
  | _ => false

/-- The segments of a path begin with **the area** of its endpoint. -/
theorem Endpoint.head?_of_ofSegments? {parts : List (List Char)} {endpoint : Endpoint}
    (h : ofSegments? parts = some endpoint) : parts.head? = some endpoint.area.toList := by
  have hparameter : ∀ {make : List Char → Endpoint} {parameter : List Char},
      withParameter make parameter = some endpoint → endpoint = make parameter := fun h =>
    (Option.some.inj (Option.ite_none_left_eq_some.mp h).2).symm
  unfold ofSegments? at h
  split at h
  · split_ifs at h with hroot hhealth hinit hroll hdocument <;> cases h <;> simp_all [area]
  · split_ifs at h with hinit hlist hclear hroll hsaved
    · cases h; simp_all [area]
    · cases h; simp_all [area]
    · cases h; simp_all [area]
    · cases hparameter h; simp_all [area]
  · split_ifs at h with hentity hsaved
    · cases hparameter h; simp_all [area]
    · cases hparameter h; simp_all [area]
  · cases h

/-- A request whose path has an endpoint is under **the area of that endpoint**, and no other. -/
theorem Request.isUnder_iff {r : Request} {endpoint : Endpoint} {first : String}
    (h : Endpoint.ofPath? r.path = some endpoint) :
    r.isUnder first = true ↔ endpoint.area = first := by
  rw [Endpoint.ofPath?] at h
  rw [isUnder]
  generalize Endpoint.pathOf r.path.toList = path at h ⊢
  split at h
  · simp [Endpoint.head?_of_ofSegments? h, String.toList_inj]
  · cases h

/-- No path begins with **two different** segments. -/
theorem Request.isUnder_unique {r : Request} {first other : String}
    (hfirst : r.isUnder first = true) (hother : r.isUnder other = true) : first = other := by
  rw [isUnder] at hfirst hother
  generalize Endpoint.pathOf r.path.toList = path at hfirst hother
  split at hfirst
  · exact String.toList_inj.mp
      (Option.some.inj ((of_decide_eq_true hfirst).symm.trans (of_decide_eq_true hother)))
  · cases hfirst

namespace Server

variable {r : Request}

section Tracker

variable (s : Server) (tracker : Tracker)

/-- Rolling a batch does nothing with the tracker. -/
theorem rollRequests_withTracker :
    ({ s with tracker := tracker } : Server).rollRequests r =
      ((s.rollRequests r).1, { (s.rollRequests r).2 with tracker := tracker }) := by
  cases hbatch : r.batch with
  | error fault => simp only [rollRequests, hbatch]
  | ok requests =>
      by_cases hsize : requests.length ≤ maxBatchSize
      · rw [rollRequests_of_le hbatch hsize, rollRequests_of_le hbatch hsize]
        rfl
      · simp only [rollRequests, hbatch, if_pos (Nat.not_le.mp hsize)]

/-- Saving a roll does nothing with the tracker. -/
theorem saveRoll_withTracker (name : String) :
    ({ s with tracker := tracker } : Server).saveRoll name r =
      ((s.saveRoll name r).1, { (s.saveRoll name r).2 with tracker := tracker }) := by
  cases hexpression : r.expression with
  | error fault => simp only [saveRoll, hexpression]
  | ok text => cases hsave : s.rolls.save name text <;> simp only [saveRoll, hexpression, hsave]

/-- An endpoint outside of the area of the turn order does **nothing with the tracker**. -/
theorem handle_withTracker {endpoint : Endpoint} (h : endpoint.area ≠ "init") :
    ({ s with tracker := tracker } : Server).handle endpoint r =
      ((s.handle endpoint r).1, { (s.handle endpoint r).2 with tracker := tracker }) := by
  cases endpoint with
  | root | health | document | savedRolls => rfl
  | initiative | entity _ | turnOrder | clear => exact absurd rfl h
  | roll =>
      rw [handle, handle]
      split
      · exact rollRequests_withTracker s tracker
      · rfl
  | savedRoll segment =>
      rw [handle, handle, withParameter, withParameter]
      split
      · rfl
      · split
        · exact saveRoll_withTracker s tracker _
        · rfl
  | formula segment =>
      rw [handle, handle, withParameter, withParameter]
      split <;> rfl

/-- A request outside of the area of the turn order **does not depend on the tracker**. -/
theorem answer_withTracker (h : r.isUnder "init" = false) :
    ({ s with tracker := tracker } : Server).answer r =
      ((s.answer r).1, { (s.answer r).2 with tracker := tracker }) := by
  cases hendpoint : r.endpoint? with
  | none =>
      obtain ⟨reply, -, -, hanswer⟩ := answer_of_no_endpoint hendpoint
      rw [hanswer, hanswer]
      rfl
  | some endpoint =>
      have harea : endpoint.area ≠ "init" := fun heq => by
        rw [(Request.isUnder_iff (Request.endpoint?_eq_some_iff.mp hendpoint).1).mpr heq] at h
        cases h
      rw [answer_of_endpoint? hendpoint, answer_of_endpoint? hendpoint,
        handle_withTracker s tracker harea]
      rfl

end Tracker

end Server

end Tabletop
