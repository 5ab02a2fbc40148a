import Tabletop.Proofs.Batch.Replay
import Tabletop.Proofs.Formula.Magnitude
import Tabletop.Proofs.Server.Reachable

/-!
# What Refusals Look Like

The body of a refusal and its status are put together in different places: the kind and the words
come with the error, the status from the failure, and the place of a fault is there or not. This
module shows that **they always agree**. The kind of a refusal says which status it can have, and
whether it points into a formula; only a few kinds occur, and fewer still in a batch.

A handler could give up only where it rolls dice: at a face that its die does not have, which no
keystream gives; at a die without faces; or at a sum that does not fit. All formulas that a
reachable server rolls, saves or lists were read from a text, so none of this happens.

## Main definitions

* `faultKinds`, `pointsIntoFormula`, `refusalStatuses`: the kinds of refusals, and what they say.
* `Json.IsRefusal`: a value that refuses something, with a kind.
* `Json.IsEntry`: an entry of the reply to a batch.
* `Reply.Regular`: a reply with a known status and, if it refuses something, a refusal for a body.
* `Request.Uses`: the formulas that answering a request has to do with.

## Main results

* `Failure.regular`: the reply to a failure is regular.
* `Server.regular_answer`: so is every other.
* `RollRequest.refusal_of_failed`: how a request of a batch fails.
* `Server.Reachable.refusals_consistent`: what can be said of every answer.
-/

namespace Tabletop

/-! ### Kinds of refusals -/

/-- The kinds of the faults in a formula. -/
def faultKinds : List String :=
  ["empty_input", "malformed_term", "non_positive_count", "invalid_sides", "trailing_garbage",
    "too_many_dice"]

/-- Whether the refusals of a kind **point into a formula**. -/
def pointsIntoFormula (kind : String) : Bool :=
  kind ∈ faultKinds ++ ["invalid_expression"]

/-- The **status codes** that the refusals of a kind can have. There are no other kinds. -/
def refusalStatuses (kind : String) : List Nat :=
  if kind = "not_found" then [404]
  else if kind = "duplicate_name" then [409]
  else if kind = "invalid_request" then [400, 415, 422]
  else if kind ∈ faultKinds ++
    ["invalid_expression", "invalid_name", "empty_name", "batch_too_large"] then [400]
  else []

/-- `value.IsRefusal kind`: the value is a **refusal** of the given kind, with some words. A
position and a fragment are there just if the kind points into a formula. -/
inductive Json.IsRefusal : Json → String → Prop
  | pointing {kind message : String} {position : Nat} {fragment : String} :
      pointsIntoFormula kind = true →
      IsRefusal (.object [("error", .string kind), ("message", .string message),
        ("position", .ofNat position), ("fragment", .string fragment)]) kind
  | plain {kind message : String} :
      pointsIntoFormula kind = false →
      IsRefusal (.object [("error", .string kind), ("message", .string message)]) kind

/-- An **entry** of the reply to a batch: a request with either a result or an error. Few kinds of
errors can come of a request. -/
inductive Json.IsEntry : Json → Prop
  | result {request result : Json} :
      IsEntry (.object [("request", request), ("result", result)])
  | error {request error : Json} {kind : String} :
      error.IsRefusal kind → kind ∈ faultKinds ++ ["not_found", "invalid_request"] →
      IsEntry (.object [("request", request), ("error", error)])

/-- A body is a refusal if **it has a fault just when its kind points into a formula**. -/
theorem ErrorBody.isRefusal {e : ErrorBody} (h : e.fault.isSome = pointsIntoFormula e.kind) :
    e.toJson.IsRefusal e.kind := by
  obtain ⟨kind, message, fault⟩ := e
  cases fault with
  | none => exact .plain h.symm
  | some fault => exact .pointing h.symm

/-- The kind of a fault is among the kinds of faults. -/
theorem Fault.Kind.name_mem (kind : Fault.Kind) : kind.name ∈ faultKinds := by
  cases kind <;> decide

/-- The body for a fault points into the formula. -/
theorem Fault.isRefusal_body (fault : Fault) : fault.body.toJson.IsRefusal fault.kind.name := by
  have hpoints : pointsIntoFormula fault.kind.name = true := by
    simp [pointsIntoFormula, fault.kind.name_mem]
  exact ErrorBody.isRefusal hpoints.symm

/-- The body for an error with saved rolls points into a formula if there is a fault in it. -/
theorem SavedRollError.isRefusal_body (e : SavedRollError) :
    e.body.toJson.IsRefusal e.body.kind := by
  cases e <;> exact ErrorBody.isRefusal rfl

/-- The body for an error with the turn order points nowhere. -/
theorem InitiativeError.isRefusal_body (e : InitiativeError) :
    e.body.toJson.IsRefusal e.body.kind := by
  cases e <;> exact ErrorBody.isRefusal rfl

/-! ### Failures -/

/-- The body of a refusal is **a refusal** of its kind. -/
theorem Failure.isRefusal (failure : Failure) :
    failure.errorBody.toJson.IsRefusal failure.errorBody.kind := by
  cases failure with
  | body fault => exact ErrorBody.isRefusal rfl
  | batchTooLarge size => exact ErrorBody.isRefusal rfl
  | formula fault => exact fault.isRefusal_body
  | savedRoll error => exact error.isRefusal_body
  | initiative error => exact error.isRefusal_body

/-- The status of a refusal is one of **its kind**. -/
theorem Failure.status_mem_refusalStatuses (failure : Failure) :
    failure.status ∈ refusalStatuses failure.errorBody.kind := by
  cases failure with
  | body fault => cases fault <;> decide
  | batchTooLarge size => exact List.mem_singleton_self 400
  | formula fault =>
      obtain ⟨kind, position, fragment⟩ := fault
      cases kind <;> exact List.mem_singleton_self 400
  | savedRoll error => cases error <;> exact List.mem_singleton_self _
  | initiative error => cases error <;> exact List.mem_singleton_self _

/-! ### Regular replies -/

/-- A reply is **regular** if its status is a known one, and if a JSON body with the status of an
error is a refusal, with a kind that can have this status. -/
structure Reply.Regular (reply : Reply) : Prop where
  /-- The status is one of eight. -/
  status_mem : reply.status ∈ [200, 202, 400, 404, 405, 409, 415, 422]
  /-- The body and the status agree. -/
  refusal : ∀ value, reply.body = .json value → 400 ≤ reply.status →
    ∃ kind, value.IsRefusal kind ∧ reply.status ∈ refusalStatuses kind

/-- A value that was asked for is a regular reply. -/
theorem Reply.Regular.json {status : Nat} (hstatus : status ∈ [200, 202]) (value : Json) :
    (Reply.json status value).Regular := by
  have hcases : status = 200 ∨ status = 202 := by simpa using hstatus
  refine ⟨?_, ?_⟩
  · rcases hcases with rfl | rfl <;> simp [Reply.json]
  · intro _ _ herror
    have hle : 400 ≤ status := herror
    omega

/-- A reply **without JSON** is regular if its status is. -/
theorem Reply.Regular.of_body {reply : Reply}
    (hstatus : reply.status ∈ [200, 202, 400, 404, 405, 409, 415, 422])
    (hbody : ∀ value, reply.body ≠ .json value) : reply.Regular :=
  ⟨hstatus, fun value hvalue => absurd hvalue (hbody value)⟩

/-- The reply to a failure is **regular**. -/
theorem Failure.regular (failure : Failure) : failure.reply.Regular := by
  refine ⟨?_, ?_⟩
  · have hsub : [400, 404, 409, 415, 422] ⊆ [200, 202, 400, 404, 405, 409, 415, 422] := by decide
    exact hsub failure.status_mem
  · rintro _ hvalue -
    cases hvalue
    exact ⟨_, failure.isRefusal, failure.status_mem_refusalStatuses⟩

/-- A reply that only tells something is regular. -/
theorem Reply.Tells.regular {reply : Reply} (h : reply.Tells) : reply.Regular := by
  cases h with
  | value value => exact .json (by simp) value
  | help text => exact .of_body (by simp [Reply.plain]) (by simp [Reply.plain])
  | refusal failure => exact failure.regular
  | badParameter parameter =>
      exact .of_body (by simp [Server.badParameter, Reply.plain])
        (by simp [Server.badParameter, Reply.plain])
  | unhandled hstatus hbody =>
      have hsub : [200, 404, 405] ⊆ [200, 202, 400, 404, 405, 409, 415, 422] := by decide
      exact .of_body (hsub hstatus) (by simp [hbody])

namespace Server

variable {s : Server} {r : Request}

/-- Dressing a regular reply leaves it regular. -/
theorem regular_dress {reply : Reply} (h : reply.Regular) : (s.dress r reply).Regular := by
  refine ⟨by simpa using h.status_mem, ?_⟩
  rw [status_dress]
  by_cases hmethod : r.method = .head
  · intro value hvalue
    rw [dress, if_pos hmethod, body_permit] at hvalue
    cases hvalue
  · rw [body_dress hmethod]
    exact h.refusal

/-! ### Rolling -/

/-- A formula, if there is one, **comes to a roll** from a keystream, and the reply is regular. -/
theorem regular_rollReply {φ : Type} (failed : φ → Failure) (formula : Except φ Formula) :
    (rollReply failed (rollIfGood Source.draw formula s.takeSource.1).1).Regular := by
  obtain ⟨outcome, _, hroll, -⟩ :=
    rollIfGood_steady Source.steady_seeded formula (s := s.takeSource.1) ⟨_, rfl⟩
  rw [hroll]
  cases outcome with
  | error failure => exact (failed failure).regular
  | ok roll => exact .json (by simp) roll.toJson

/-- A batch that is rolled from a keystream **comes to its items**. -/
theorem exists_items (s : Server) (requests : List RollRequest) :
    ∃ items next, rollBatch s.rolls requests s.takeSource.1 = (.ok items, next) := by
  obtain ⟨items, next, hroll, -⟩ :=
    rollBatchWith_steady Source.steady_seeded s.rolls requests (s := s.takeSource.1) ⟨_, rfl⟩
  exact ⟨items, next, hroll⟩

/-- The reply to a task that is rolled from a keystream is **regular**: no face is refused. -/
theorem regular_taskReply (s : Server) (task : RollTask) :
    (s.taskReply s.takeSource.1 task).Regular := by
  cases task with
  | formula text => exact regular_rollReply .formula (Formula.parse text)
  | named name => exact regular_rollReply .savedRoll (s.rolls.resolve name)
  | batch requests =>
      obtain ⟨items, _, hroll⟩ := s.exists_items requests
      rw [taskReply, hroll]
      exact .json (by simp) _

/-- **Every reply is regular**, whatever the server and the request are like. -/
theorem regular_answer (s : Server) (r : Request) : (s.answer r).1.Regular := by
  obtain ⟨reply, houtcome, hreply⟩ := exists_outcome s r
  rw [hreply]
  refine regular_dress ?_
  generalize (s.answer r).2 = next at houtcome
  cases houtcome with
  | shown _ _ htells => exact htells.regular
  | rolled => exact s.regular_taskReply _
  | added | removed | cleared | saved => exact .json (by simp) _

end Server

/-! ### Batches -/

/-- **How a request of a batch fails**: with a fault, because no roll is saved under the name, or
because it has no known form. -/
theorem RollRequest.refusal_of_failed {rolls : SavedRolls} {request : RollRequest}
    {failure : RollFailure} (h : request.formula rolls = .error failure) :
    failure.body.toJson.IsRefusal failure.body.kind ∧
      failure.body.kind ∈ faultKinds ++ ["not_found", "invalid_request"] := by
  cases request with
  | adhoc text =>
      rw [formula] at h
      cases hparse : Formula.parse text with
      | error fault =>
          rw [hparse] at h
          cases h
          exact ⟨fault.isRefusal_body, List.mem_append_left _ fault.kind.name_mem⟩
      | ok f =>
          rw [hparse] at h
          cases h
  | named name =>
      rw [formula, SavedRolls.resolve] at h
      cases hfind : rolls.find? name with
      | none =>
          rw [hfind] at h
          cases h
          exact ⟨SavedRollError.isRefusal_body (.notFound name),
            by simp [RollFailure.body, SavedRollError.body]⟩
      | some f =>
          rw [hfind] at h
          cases h
  | invalid value =>
      cases h
      exact ⟨ErrorBody.isRefusal rfl, by simp [RollFailure.body]⟩

/-- Every item of a batch is told in **an entry**. -/
theorem isEntry_of_mem {ε σ : Type} {draw : Draw ε σ} {rolls : SavedRolls}
    {requests : List RollRequest} {s s' : σ} {items : List BatchItem}
    (h : rollBatchWith draw rolls requests s = (.ok items, s')) {item : BatchItem}
    (hmem : item ∈ items) : item.toJson.IsEntry := by
  obtain ⟨request, outcome⟩ := item
  cases outcome with
  | ok roll => exact .result
  | error failure =>
      obtain ⟨hrefusal, hkind⟩ := RollRequest.refusal_of_failed (formula_of_mem_failed h hmem)
      exact .error hrefusal hkind

namespace Server

variable {s : Server} {r : Request}

/-- The reply to a batch is **a list of entries**. -/
theorem entries_of_answer (hmethod : r.method = .post)
    (hpath : Endpoint.ofPath? r.path = some .roll) (hstatus : (s.answer r).1.status = 202) :
    ∃ entries, (s.answer r).1.body = .json (.object [("results", .array entries)]) ∧
      ∀ entry ∈ entries, entry.IsEntry := by
  have hendpoint : r.endpoint? = some .roll :=
    Request.endpoint?_eq_some_iff.mpr ⟨hpath, by simp [hmethod, Endpoint.methods]⟩
  obtain ⟨reply, houtcome, hreply⟩ := exists_outcome s r
  rw [hreply, status_dress] at hstatus
  rw [hreply, body_dress (by simp [hmethod])]
  generalize (s.answer r).2 = next at houtcome
  cases houtcome with
  | shown _ hne _ => exact absurd hstatus hne
  | rolled htask =>
      obtain ⟨_, _, hother, -⟩ | ⟨_, _, hother, -⟩ | ⟨requests, -, -, -, -, rfl⟩ :=
        task?_cases htask
      · rw [hpath] at hother
        cases hother
      · rw [hpath] at hother
        cases hother
      · obtain ⟨items, _, hroll⟩ := s.exists_items requests
        refine ⟨items.map BatchItem.toJson, by rw [taskReply, hroll]; rfl, ?_⟩
        intro entry hentry
        obtain ⟨item, hitem, rfl⟩ := List.mem_map.mp hentry
        exact isEntry_of_mem hroll hitem
  | added hother | removed hother | cleared hother | saved hother =>
      rw [hendpoint] at hother
      cases hother

end Server

/-! ### All answers -/

/-- The requests for rolls that a task consists of. -/
def RollTask.requests : RollTask → List RollRequest
  | .formula text => [.adhoc text]
  | .named name => [.named name]
  | .batch requests => requests

/-- Answering a request **has to do with** a formula if the formula is rolled for it, or saved once
it is answered. -/
def Request.Uses (r : Request) (s : Server) (f : Formula) : Prop :=
  (∃ task, r.task? = some task ∧ ∃ request ∈ task.requests, request.formula s.rolls = .ok f) ∨
    ∃ roll ∈ (s.answer r).2.rolls.toList, roll.formula = f

/-- **Errors are consistent.** Every reply of a reachable server has one of eight status codes, and
a JSON body of an error is a refusal, whose kind can have the status and says whether there is a
position and a fragment. A batch is answered with entries that each hold a result or an error. And
no handler gives up: no face is refused, which would be a status of its own, and every formula that
is rolled, saved or listed is safe. -/
theorem Server.Reachable.refusals_consistent {s : Server} (h : s.Reachable) (r : Request) :
    (s.answer r).1.Regular ∧
    (r.method = .post → Endpoint.ofPath? r.path = some .roll → (s.answer r).1.status = 202 →
      ∃ entries, (s.answer r).1.body = .json (.object [("results", .array entries)]) ∧
        ∀ entry ∈ entries, entry.IsEntry) ∧
    ∀ f, r.Uses s f → f.Safe := by
  refine ⟨regular_answer s r, entries_of_answer, ?_⟩
  rintro f (⟨task, -, request, -, hformula⟩ | ⟨roll, hroll, rfl⟩)
  · obtain ⟨text, hparse⟩ := RollRequest.parsed_of_formula h.rolls hformula
    exact Formula.safe_of_parse hparse
  · obtain ⟨text, hparse⟩ := (h.answer r).rolls.parsed roll hroll
    exact Formula.safe_of_parse hparse

/-- A batch of a good formula, one with a fault, the name of no saved roll, and a number; and a
formula in a path. -/
theorem Server.refusals_consistent_batch :
    let batch : Request := ⟨.post, "/roll", some "application/json",
      "\x7b\"rolls\": [\"7\", \"1d\", \x7b\"saved_roll\": \"dart\"\x7d, 5]\x7d"⟩
    ∃ s : Server, start {} (Vector.replicate 8 0) = .ok s ∧ (s.answer batch).1.Regular ∧
      (∃ entries, (s.answer batch).1.body = .json (.object [("results", .array entries)]) ∧
        ∀ entry ∈ entries, entry.IsEntry) ∧
      Formula.Safe ⟨"1d6", [⟨.plus, .dice 1 6⟩]⟩ := by
  intro batch
  obtain ⟨s, hstart⟩ : ∃ s, start {} (Vector.replicate 8 0) = .ok s := ⟨_, rfl⟩
  have hstatus : (s.answer batch).1.status = 202 := by
    cases hstart
    decide +kernel
  obtain ⟨hregular, hentries, -⟩ := (Reachable.start hstart).refusals_consistent batch
  refine ⟨s, hstart, hregular, hentries rfl (by decide +kernel) hstatus, ?_⟩
  have hpath : Endpoint.ofPath? "/roll/1d6" = some (.formula "1d6".toList) := by decide +kernel
  have hdecode : Percent.decode? "1d6".toList = some "1d6" := by decide +kernel
  have hparse : Formula.parse "1d6" = .ok ⟨"1d6", [⟨.plus, .dice 1 6⟩]⟩ := by decide +kernel
  have htask : Request.task? ⟨.get, "/roll/1d6", none, ""⟩ = some (.formula "1d6") := by
    rw [Request.task?, hpath]
    exact congrArg (Option.map RollTask.formula) hdecode
  refine ((Reachable.start hstart).refusals_consistent ⟨.get, "/roll/1d6", none, ""⟩).2.2 _
    (.inl ⟨_, htask, _, List.mem_cons_self, ?_⟩)
  rw [RollRequest.formula, hparse]
  rfl

end Tabletop
