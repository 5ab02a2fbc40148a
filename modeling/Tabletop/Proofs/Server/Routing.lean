import Tabletop.Server.Answer

/-!
# How a Request Is Handled

A request is handled at the endpoint of its path, if there is one and it has the method of the
request. This is `Request.endpoint?`, and it depends on nothing but the request. What the endpoint
replies is then only **dressed**: a `HEAD` request gets it without its body, and pages of other
origins get the headers that they need. Neither touches the status, and the server that is left is
the one that the endpoint leaves.

A request that no endpoint handles gets a reply that does not depend on the server, but for those
headers, and leaves the server as it was.

## Main definitions

* `Request.endpoint?`: the endpoint that handles a request.
* `Server.dress`: the reply of an endpoint as it is sent.

## Main results

* `Server.answer_of_endpoint?`: the answer to a request that is handled at an endpoint.
* `Server.answer_of_no_endpoint`: the answer to any other.
-/

namespace Tabletop

/-- The endpoint that **handles** a request: the one of its path, if it has the method. -/
def Request.endpoint? (r : Request) : Option Endpoint :=
  (Endpoint.ofPath? r.path).filter fun endpoint => r.method ∈ endpoint.methods

/-- An endpoint handles a request that has **its path and one of its methods**. -/
theorem Request.endpoint?_eq_some_iff {r : Request} {endpoint : Endpoint} :
    r.endpoint? = some endpoint ↔
      Endpoint.ofPath? r.path = some endpoint ∧ r.method ∈ endpoint.methods := by
  simp [Request.endpoint?, Option.filter_eq_some_iff]

/-- No endpoint has the method `OPTIONS`. -/
theorem Endpoint.options_not_mem_methods (endpoint : Endpoint) :
    Method.options ∉ endpoint.methods := by
  cases endpoint <;> simp [methods]

namespace Server

variable {s : Server} {r : Request}

/-! ### Dressing a reply -/

/-- What other origins need to know does not change **the status**. -/
@[simp]
theorem status_permit (anyOrigin : Bool) (method : Method) (reply : Reply) :
    (permit anyOrigin method reply).status = reply.status := by
  cases anyOrigin with
  | false => rfl
  | true => by_cases h : method = .options <;> simp [permit, h, Reply.withHeader]

/-- Nor does it change the body. -/
@[simp]
theorem body_permit (anyOrigin : Bool) (method : Method) (reply : Reply) :
    (permit anyOrigin method reply).body = reply.body := by
  cases anyOrigin with
  | false => rfl
  | true => by_cases h : method = .options <;> simp [permit, h, Reply.withHeader]

/-- The reply of an endpoint as it is **sent**: without its body if only the head is asked for,
and with the headers for pages of other origins. -/
def dress (s : Server) (r : Request) (reply : Reply) : Reply :=
  permit s.anyOrigin r.method (if r.method = .head then reply.withoutBody else reply)

/-- Dressing a reply leaves its **status** as it is. -/
@[simp]
theorem status_dress (reply : Reply) : (s.dress r reply).status = reply.status := by
  rw [dress, status_permit]
  split <;> rfl

/-- It leaves the body too, **unless only the head** was asked for. -/
theorem body_dress (h : r.method ≠ .head) (reply : Reply) :
    (s.dress r reply).body = reply.body := by
  rw [dress, if_neg h, body_permit]

/-! ### Handled requests and others -/

/-- A request that an endpoint handles gets **its reply**, dressed, and leaves what it leaves. -/
theorem answer_of_endpoint? {endpoint : Endpoint} (h : r.endpoint? = some endpoint) :
    s.answer r = (s.dress r (s.handle endpoint r).1, (s.handle endpoint r).2) := by
  obtain ⟨hpath, hmethod⟩ := Request.endpoint?_eq_some_iff.mp h
  have hoptions : r.method ≠ .options := fun heq =>
    endpoint.options_not_mem_methods (heq ▸ hmethod)
  rw [answer, route, hpath]
  simp only [if_neg hoptions, if_pos hmethod]
  rfl

/-- A request that **no endpoint handles** leaves the server as it was, and its reply says nothing
of it. -/
theorem answer_of_no_endpoint (h : r.endpoint? = none) :
    ∃ reply : Reply, reply.status ∈ [200, 404, 405] ∧ reply.body = .empty ∧
      ∀ s : Server, s.answer r = (s.dress r reply, s) := by
  suffices hroute : ∃ reply : Reply, reply.status ∈ [200, 404, 405] ∧ reply.body = .empty ∧
      ∀ s : Server, s.route r = (reply, s) by
    obtain ⟨reply, hstatus, hbody, hroute⟩ := hroute
    refine ⟨reply, hstatus, hbody, fun s => ?_⟩
    rw [answer, hroute, dress, Reply.withoutBody, ← hbody, ite_self]
  cases hpath : Endpoint.ofPath? r.path with
  | none =>
      refine ⟨.bare (if r.method = .options then 200 else 404), ?_, rfl, fun s => ?_⟩
      · by_cases hoptions : r.method = .options <;> simp [Reply.bare, hoptions]
      · rw [route, hpath]
  | some endpoint =>
      have hmethod : r.method ∉ endpoint.methods := fun hmem => by
        rw [Request.endpoint?_eq_some_iff.mpr ⟨hpath, hmem⟩] at h
        cases h
      by_cases hoptions : r.method = .options
      · refine ⟨(Reply.bare 200).withHeader "allow" endpoint.allow, ?_, rfl, fun s => ?_⟩
        · simp [Reply.bare, Reply.withHeader]
        · rw [route, hpath]
          exact if_pos hoptions
      · refine ⟨(Reply.bare 405).withHeader "allow" endpoint.allow, ?_, rfl, fun s => ?_⟩
        · simp [Reply.bare, Reply.withHeader]
        · rw [route, hpath]
          exact (if_neg hoptions).trans (if_neg hmethod)

end Server

end Tabletop
