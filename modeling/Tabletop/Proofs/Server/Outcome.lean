import Tabletop.Proofs.Server.Routing

/-!
# What Comes of a Request

A request does **one of six things**. It rolls something, which takes a key from the shared
keystream whatever comes of the roll; it adds an entity, removes one or clears the turn order; it
saves a roll; or it leaves the server as it was, as does every request that is refused. This is
said once, by `Server.Outcome` and `Server.exists_outcome`, and everything that is known of the
servers that requests lead to follows from it.

What a rolling request asks for is its **task**. It is read off the request alone, so whether a
request rolls does not depend on the server.

## Main definitions

* `Reply.Tells`: the replies to requests that do nothing.
* `RollTask`, `Request.task?`: what a rolling request asks to be rolled.
* `Server.taskReply`: the reply to a task whose faces come from a given source.
* `Server.Outcome`: what comes of a request.

## Main results

* `Server.answer_of_task?`: a rolling request is answered from the next key.
* `Server.exists_outcome`: every request does one of the six things.
-/

namespace Tabletop

/-! ### Rolling requests -/

/-- What a rolling request **asks to be rolled**. -/
inductive RollTask where
  /-- The formula that a text denotes. -/
  | formula (text : String)
  /-- The roll saved under a name. -/
  | named (name : String)
  /-- A batch. -/
  | batch (requests : List RollRequest)
  deriving Repr

/-- Whether a method asks to be shown something. -/
def Method.isReading : Method → Bool
  | get | head => true
  | _ => false

/-- What is shown can be asked for **with its body or without**. -/
theorem Method.isReading_iff (method : Method) :
    method.isReading = true ↔ method = .get ∨ method = .head := by
  cases method <;> simp [isReading]

/-- The **task** of a rolling request: a `GET` or `HEAD` on a formula or a saved roll, where the
segment stands for a text, or a `POST` of a batch that is not too large. Whether the text is a
formula, and whether there is a roll of that name, does not matter. -/
def Request.task? (r : Request) : Option RollTask :=
  match Endpoint.ofPath? r.path with
  | some (.formula segment) =>
    if r.method.isReading then (Percent.decode? segment).map .formula else none
  | some (.savedRoll segment) =>
    if r.method.isReading then (Percent.decode? segment).map .named else none
  | some .roll =>
    match r.method, r.batch with
    | .post, .ok requests => if requests.length ≤ maxBatchSize then some (.batch requests) else none
    | _, _ => none
  | _ => none

/-! ### Replies that tell something -/

/-- The status codes of refusals. -/
theorem Failure.status_mem (failure : Failure) : failure.status ∈ [400, 404, 409, 415, 422] := by
  rcases failure with fault | size | fault | error | error
  · cases fault <;> decide
  · simp [status]
  · simp [status]
  · cases error <;> simp [status]
  · cases error <;> simp [status]

/-- No refusal is taken for a success. -/
theorem Failure.status_ne_accepted (failure : Failure) : failure.reply.status ≠ 202 := by
  intro heq
  have hstatus := failure.status_mem
  rw [show failure.status = 202 from heq] at hstatus
  simp at hstatus

/-- A reply that **only tells** something: what was asked for, why the request is refused, or that a
segment stands for no text. Where no endpoint handles the request it has no body. -/
inductive Reply.Tells : Reply → Prop
  | value (value : Json) : Tells (.json 200 value)
  | help (text : String) : Tells (.plain 200 text)
  | refusal (failure : Failure) : Tells failure.reply
  | badParameter (parameter : String) : Tells (Server.badParameter parameter)
  | unhandled {reply : Reply} : reply.status ∈ [200, 404, 405] → reply.body = .empty → Tells reply

/-- A reply that only tells something is not that of an accepted request. -/
theorem Reply.Tells.status_ne_accepted {reply : Reply} (h : reply.Tells) : reply.status ≠ 202 := by
  cases h with
  | value value => simp [Reply.json]
  | help text => simp [Reply.plain]
  | refusal failure => exact failure.status_ne_accepted
  | badParameter parameter => simp [Server.badParameter, Reply.plain]
  | unhandled hstatus _ =>
      intro heq
      rw [heq] at hstatus
      simp at hstatus

namespace Server

/-- The reply to a batch. -/
def batchReply : Except BadFace (List BatchItem) → Reply
  | .ok items => .json 202 (.object [("results", .array (items.map BatchItem.toJson))])
  | .error bad => badFaceReply bad

/-- The reply to a task whose faces come from the **given source**. -/
def taskReply (s : Server) (source : Source) : RollTask → Reply
  | .formula text => rollReply .formula (rollText Source.draw text source).1
  | .named name => rollReply .savedRoll (rollSaved Source.draw s.rolls name source).1
  | .batch requests => batchReply (rollBatch s.rolls requests source).1

variable {s : Server} {r : Request}

/-- Taking a key leaves everything else as it was. -/
theorem takeSource_snd (s : Server) : s.takeSource.2 = { s with shared := s.shared.takeKey.2 } :=
  rfl

/-- A batch that is not too large is rolled from the next key. -/
theorem rollRequests_of_le {requests : List RollRequest} (hbatch : r.batch = .ok requests)
    (hsize : requests.length ≤ maxBatchSize) :
    s.rollRequests r = (s.taskReply s.takeSource.1 (.batch requests), s.takeSource.2) := by
  rw [rollRequests, hbatch]
  simp only [if_neg (Nat.not_lt.mpr hsize), taskReply]
  change (match (rollBatch s.rolls requests s.takeSource.1).1 with
    | .ok items => _
    | .error bad => _) = _
  cases (rollBatch s.rolls requests s.takeSource.1).1 <;> rfl

/-- The three ways of asking for a roll. -/
theorem task?_cases {task : RollTask} (h : r.task? = some task) :
    (∃ segment text, Endpoint.ofPath? r.path = some (.formula segment) ∧
      r.method.isReading = true ∧ Percent.decode? segment = some text ∧ task = .formula text) ∨
    (∃ segment name, Endpoint.ofPath? r.path = some (.savedRoll segment) ∧
      r.method.isReading = true ∧ Percent.decode? segment = some name ∧ task = .named name) ∨
    ∃ requests, Endpoint.ofPath? r.path = some .roll ∧ r.method = .post ∧
      r.batch = .ok requests ∧ requests.length ≤ maxBatchSize ∧ task = .batch requests := by
  rw [Request.task?] at h
  split at h
  · rename_i segment hpath
    obtain ⟨hreads, h⟩ := Option.ite_none_right_eq_some.mp h
    obtain ⟨text, htext, rfl⟩ := Option.map_eq_some_iff.mp h
    exact .inl ⟨segment, text, hpath, hreads, htext, rfl⟩
  · rename_i segment hpath
    obtain ⟨hreads, h⟩ := Option.ite_none_right_eq_some.mp h
    obtain ⟨name, hname, rfl⟩ := Option.map_eq_some_iff.mp h
    exact .inr (.inl ⟨segment, name, hpath, hreads, hname, rfl⟩)
  · rename_i hpath
    split at h
    · rename_i requests hmethod hbatch
      obtain ⟨hsize, h⟩ := Option.ite_none_right_eq_some.mp h
      exact .inr (.inr ⟨requests, hpath, hmethod, hbatch, hsize, (Option.some.inj h).symm⟩)
    · cases h
  · cases h

/-- **A rolling request is answered from the next key**, and takes nothing but that key. -/
theorem handle_of_task? {task : RollTask} (h : r.task? = some task) :
    ∃ endpoint, r.endpoint? = some endpoint ∧
      s.handle endpoint r = (s.taskReply s.takeSource.1 task, s.takeSource.2) := by
  rcases task?_cases h with ⟨segment, text, hpath, hreads, htext, rfl⟩ |
    ⟨segment, name, hpath, hreads, hname, rfl⟩ | ⟨requests, hpath, hmethod, hbatch, hsize, rfl⟩
  · refine ⟨_, Request.endpoint?_eq_some_iff.mpr ⟨hpath, ?_⟩, ?_⟩
    · rcases r.method.isReading_iff.mp hreads with hmethod | hmethod <;>
        simp [hmethod, Endpoint.methods]
    · rw [handle, withParameter, htext]
      rfl
  · refine ⟨_, Request.endpoint?_eq_some_iff.mpr ⟨hpath, ?_⟩, ?_⟩
    · rcases r.method.isReading_iff.mp hreads with hmethod | hmethod <;>
        simp [hmethod, Endpoint.methods]
    · have hput : r.method ≠ .put := fun heq => by
        rw [heq] at hreads
        cases hreads
      rw [handle, withParameter, hname]
      exact if_neg hput
  · refine ⟨_, Request.endpoint?_eq_some_iff.mpr ⟨hpath, ?_⟩, ?_⟩
    · simp [hmethod, Endpoint.methods]
    · rw [handle, if_pos hmethod, rollRequests_of_le hbatch hsize]

/-- A rolling request **takes one key**, and its task is rolled from it. -/
theorem answer_of_task? {task : RollTask} (h : r.task? = some task) :
    s.answer r = (s.dress r (s.taskReply s.takeSource.1 task), s.takeSource.2) := by
  obtain ⟨endpoint, hendpoint, hhandle⟩ := handle_of_task? (s := s) h
  rw [answer_of_endpoint? hendpoint, hhandle]

/-! ### The six things -/

/-- **What comes of a request**: the reply of its endpoint, before it is dressed, and the server
that is left. Each of the six says what the request was like, and which operation on the turn
order or on the saved rolls has succeeded. -/
inductive Outcome (s : Server) (r : Request) : Reply → Server → Prop
  /-- Something is shown, or the request is refused. -/
  | shown {reply : Reply} :
      r.task? = none → reply.status ≠ 202 → reply.Tells → Outcome s r reply s
  /-- A task is rolled from the next key. -/
  | rolled {task : RollTask} : r.task? = some task →
      Outcome s r (s.taskReply s.takeSource.1 task) s.takeSource.2
  /-- An entity is added. -/
  | added {name : String} {value : Int} {entry : Entry} {tracker : Tracker} :
      r.endpoint? = some .initiative → r.method = .post → r.entity = .ok (name, value) →
      s.tracker.add name value = .ok (entry, tracker) →
      Outcome s r (.json 202 entry.toJson) { s with tracker := tracker }
  /-- An entity is removed. -/
  | removed {segment : List Char} {name : String} {entry : Entry} {tracker : Tracker} :
      r.endpoint? = some (.entity segment) → r.method = .delete →
      Percent.decode? segment = some name → s.tracker.remove name = .ok (entry, tracker) →
      Outcome s r (.json 202 entry.toJson) { s with tracker := tracker }
  /-- The turn order is cleared. -/
  | cleared : r.endpoint? = some .clear → r.method = .delete →
      Outcome s r (.json 202 (.object [("removed", .ofNat s.tracker.size)]))
        { s with tracker := .empty }
  /-- A roll is saved. -/
  | saved {segment : List Char} {name text : String} {roll : SavedRoll} {rolls : SavedRolls} :
      r.endpoint? = some (.savedRoll segment) → r.method = .put →
      Percent.decode? segment = some name → r.expression = .ok text →
      s.rolls.save name text = .ok (roll, rolls) →
      Outcome s r (.json 202 roll.toJson) { s with rolls := rolls }

namespace Outcome

/-- Telling something leaves the server as it was. -/
theorem told (htask : r.task? = none) {reply : Reply} (h : reply.Tells) : s.Outcome r reply s :=
  .shown htask h.status_ne_accepted h

/-- Adding an entity succeeds or is refused. -/
theorem addEntity (hendpoint : r.endpoint? = some .initiative) (hmethod : r.method = .post)
    (htask : r.task? = none) : s.Outcome r (s.addEntity r).1 (s.addEntity r).2 := by
  rw [Server.addEntity]
  split
  · exact told htask (.refusal _)
  · rename_i name value hentity
    split
    · exact told htask (.refusal _)
    · rename_i entry tracker hadd
      exact .added hendpoint hmethod hentity hadd

/-- Removing an entity succeeds or is refused. -/
theorem removeEntity {segment : List Char} {name : String}
    (hendpoint : r.endpoint? = some (.entity segment)) (hmethod : r.method = .delete)
    (hname : Percent.decode? segment = some name) (htask : r.task? = none) :
    s.Outcome r (s.removeEntity name).1 (s.removeEntity name).2 := by
  rw [Server.removeEntity]
  split
  · exact told htask (.refusal _)
  · rename_i entry tracker hremove
    exact .removed hendpoint hmethod hname hremove

/-- Saving a roll succeeds or is refused. -/
theorem saveRoll {segment : List Char} {name : String}
    (hendpoint : r.endpoint? = some (.savedRoll segment)) (hmethod : r.method = .put)
    (hname : Percent.decode? segment = some name) (htask : r.task? = none) :
    s.Outcome r (s.saveRoll name r).1 (s.saveRoll name r).2 := by
  rw [Server.saveRoll]
  split
  · exact told htask (.refusal _)
  · rename_i text hexpression
    split
    · exact told htask (.refusal _)
    · rename_i roll rolls hsave
      exact .saved hendpoint hmethod hname hexpression hsave

/-- A batch that is no task is refused. -/
theorem rollRequests (hpath : Endpoint.ofPath? r.path = some .roll) (hmethod : r.method = .post)
    (htask : r.task? = none) : s.Outcome r (s.rollRequests r).1 (s.rollRequests r).2 := by
  cases hbatch : r.batch with
  | error fault =>
      rw [Server.rollRequests, hbatch]
      exact told htask (.refusal _)
  | ok requests =>
      by_cases hsize : requests.length ≤ maxBatchSize
      · simp [Request.task?, hpath, hmethod, hbatch, hsize] at htask
      · rw [Server.rollRequests, hbatch]
        simp only [if_pos (Nat.not_le.mp hsize)]
        exact told htask (.refusal _)

end Outcome

/-- An endpoint does one of the six things. -/
theorem outcome_handle {endpoint : Endpoint} (h : r.endpoint? = some endpoint)
    (htask : r.task? = none) :
    s.Outcome r (s.handle endpoint r).1 (s.handle endpoint r).2 := by
  obtain ⟨hpath, hmem⟩ := Request.endpoint?_eq_some_iff.mp h
  cases endpoint with
  | root => exact .told htask (.value _)
  | health => exact .told htask (.value _)
  | document => exact .told htask (.value _)
  | turnOrder => exact .told htask (.value _)
  | savedRolls => exact .told htask (.value _)
  | clear => exact .cleared h (List.mem_singleton.mp hmem)
  | initiative =>
      by_cases hmethod : r.method = .post
      · rw [handle, if_pos hmethod]
        exact .addEntity h hmethod htask
      · rw [handle, if_neg hmethod]
        exact .told htask (.help _)
  | roll =>
      by_cases hmethod : r.method = .post
      · rw [handle, if_pos hmethod]
        exact .rollRequests hpath hmethod htask
      · rw [handle, if_neg hmethod]
        exact .told htask (.help _)
  | entity segment =>
      rw [handle, withParameter]
      cases hname : Percent.decode? segment with
      | none => exact .told htask (.badParameter _)
      | some name =>
          by_cases hmethod : r.method = .delete
          · simp only [if_pos hmethod]
            exact .removeEntity h hmethod hname htask
          · simp only [if_neg hmethod]
            rw [showEntity]
            split
            · exact .told htask (.refusal _)
            · exact .told htask (.value _)
  | savedRoll segment =>
      rw [handle, withParameter]
      cases hname : Percent.decode? segment with
      | none => exact .told htask (.badParameter _)
      | some name =>
          have hput : r.method = .put := by
            cases hmethod : r.method <;>
              simp_all [Request.task?, Method.isReading, Endpoint.methods]
          simp only [if_pos hput]
          exact .saveRoll h hput hname htask
  | formula segment =>
      rw [handle, withParameter]
      cases htext : Percent.decode? segment with
      | none => exact .told htask (.badParameter _)
      | some text =>
          cases hmethod : r.method <;>
            simp_all [Request.task?, Method.isReading, Endpoint.methods]

/-- **Every request does one of the six things**, and its reply is that of its endpoint, dressed. -/
theorem exists_outcome (s : Server) (r : Request) :
    ∃ reply, s.Outcome r reply (s.answer r).2 ∧ (s.answer r).1 = s.dress r reply := by
  cases htask : r.task? with
  | some task =>
      rw [answer_of_task? htask]
      exact ⟨_, .rolled htask, rfl⟩
  | none =>
      cases hendpoint : r.endpoint? with
      | some endpoint =>
          rw [answer_of_endpoint? hendpoint]
          exact ⟨_, outcome_handle hendpoint htask, rfl⟩
      | none =>
          obtain ⟨reply, hstatus, hbody, hanswer⟩ := answer_of_no_endpoint hendpoint
          rw [hanswer]
          exact ⟨reply, .told htask (.unhandled hstatus hbody), rfl⟩

end Server

end Tabletop
