import Tabletop.Proofs.SavedRolls.Lookup
import Tabletop.Proofs.Server.Reachable
import Tabletop.Proofs.Server.Shown

/-!
# What Requests Do to the Stores

The turn order and the saved rolls are the two stores of the server. A request **changes** a store
only if it is answered with the status of something accepted, and then it changes just what its
reply speaks of. That an accepted batch changes neither is a case of its own: nothing but a batch
has that status among the rolling requests, but a batch has it whatever comes of its rolls.

## Main definitions

* `Server.Accepted`: what an accepted request does to the stores.

## Main results

* `Server.Reachable.stores_of_answer`: what any request does to the stores.
-/

namespace Tabletop.Server

/-- What a request that is **accepted** does to the stores. The body is that of the reply, and shows
what was added, removed or saved. -/
inductive Accepted (s : Server) (r : Request) : Body → Server → Prop
  /-- A batch of rolls changes neither store. -/
  | rolled {body : Body} {next : Server} :
      Endpoint.ofPath? r.path = some .roll → r.method = .post →
      next.tracker = s.tracker → next.rolls = s.rolls → Accepted s r body next
  /-- The entry in the reply is added under a new name, and the counter goes up by one. -/
  | added {entry : Entry} {value : Json} {next : Server} :
      Endpoint.ofPath? r.path = some .initiative → r.method = .post →
      s.tracker.find? entry.name = none → entry.sequence = s.tracker.nextSequence →
      next.tracker = ⟨s.tracker.entries ++ [entry], s.tracker.nextSequence + 1⟩ →
      next.rolls = s.rolls → entry.ShownAs value → Accepted s r (.json value) next
  /-- The entry in the reply has the name in the path and is taken away. The others are left. -/
  | removed {segment : List Char} {name : String} {entry : Entry} {value : Json} {next : Server} :
      Endpoint.ofPath? r.path = some (.entity segment) → r.method = .delete →
      Percent.decode? segment = some name → entry.name = Text.strip name →
      s.tracker.entries.Perm (entry :: next.tracker.entries) →
      next.tracker.nextSequence = s.tracker.nextSequence →
      next.rolls = s.rolls → entry.ShownAs value → Accepted s r (.json value) next
  /-- Nothing is left of the turn order, and the counter starts again. -/
  | cleared {body : Body} {next : Server} :
      Endpoint.ofPath? r.path = some .clear → r.method = .delete →
      next.tracker = .empty → next.rolls = s.rolls → Accepted s r body next
  /-- The name in the path is set to the formula of the text in the body, which the reply shows, and
  no other name. -/
  | saved {segment : List Char} {name text : String} {f : Formula} {value : Json}
      {next : Server} :
      Endpoint.ofPath? r.path = some (.savedRoll segment) → r.method = .put →
      Percent.decode? segment = some name → r.expression = .ok text → Formula.parse text = .ok f →
      next.rolls.find? = Function.update s.rolls.find? name (some f) →
      next.tracker = s.tracker → SavedRoll.Shows (name, text) value →
      Accepted s r (.json value) next

/-- Among the rolling requests **only batches** are accepted; a single roll is shown. -/
theorem eq_batch_of_status {s : Server} {source : Source} {task : RollTask}
    (h : (s.taskReply source task).status = 202) : ∃ requests, task = .batch requests := by
  have hroll : ∀ {φ : Type} (failed : φ → Failure) (drawn : Except BadFace (Except φ Roll)),
      (rollReply failed drawn).status ≠ 202 := by
    rintro φ failed (bad | failure | roll)
    · simp [rollReply, badFaceReply, Reply.plain]
    · exact (failed failure).status_ne_accepted
    · simp [rollReply, Reply.json]
  cases task with
  | formula text => exact absurd h (hroll _ _)
  | named name => exact absurd h (hroll _ _)
  | batch requests => exact ⟨requests, rfl⟩

/-- **Only accepted requests change the stores**, and each of them changes just what its reply
speaks of. -/
theorem Reachable.stores_of_answer {s : Server} (h : s.Reachable) (r : Request) :
    ((s.answer r).1.status ≠ 202 →
      (s.answer r).2.tracker = s.tracker ∧ (s.answer r).2.rolls = s.rolls) ∧
    ((s.answer r).1.status = 202 → s.Accepted r (s.answer r).1.body (s.answer r).2) := by
  obtain ⟨reply, houtcome, hreply⟩ := exists_outcome s r
  rw [hreply, status_dress]
  generalize (s.answer r).2 = next at houtcome
  cases houtcome with
  | shown _ hstatus => exact ⟨fun _ => ⟨rfl, rfl⟩, fun h => absurd h hstatus⟩
  | rolled htask =>
      refine ⟨fun _ => ⟨rfl, rfl⟩, fun hstatus => ?_⟩
      obtain ⟨requests, rfl⟩ := eq_batch_of_status hstatus
      obtain ⟨_, _, -, -, -, heq⟩ | ⟨_, _, -, -, -, heq⟩ | ⟨_, hpath, hmethod, -⟩ :=
        task?_cases htask
      · cases heq
      · cases heq
      · exact .rolled hpath hmethod rfl rfl
  | @added name value entry tracker hendpoint hmethod _ hadd =>
      refine ⟨fun hstatus => absurd rfl hstatus, fun _ => ?_⟩
      obtain ⟨hfind, hentry, rfl⟩ := Tracker.add_eq_ok hadd
      have hnew : s.tracker.find? entry.name = none := by
        rw [hentry]
        exact hfind
      rw [body_dress (by simp [hmethod])]
      exact .added (Request.endpoint?_eq_some_iff.mp hendpoint).1 hmethod hnew (hentry ▸ rfl)
        (hentry ▸ rfl) rfl entry.shownAs_toJson
  | @removed segment name entry tracker hendpoint hmethod hname hremove =>
      refine ⟨fun hstatus => absurd rfl hstatus, fun _ => ?_⟩
      obtain ⟨hfind, rfl⟩ := Tracker.remove_eq_ok hremove
      have hentry : entry.name = Text.strip name :=
        ((find?_key_eq_some_iff h.consistent.names).mp hfind).2
      rw [body_dress (by simp [hmethod])]
      exact .removed (Request.endpoint?_eq_some_iff.mp hendpoint).1 hmethod hname
        hentry (h.consistent.perm_dismiss hfind) rfl rfl entry.shownAs_toJson
  | cleared hendpoint hmethod =>
      refine ⟨fun hstatus => absurd rfl hstatus, fun _ => ?_⟩
      exact .cleared (Request.endpoint?_eq_some_iff.mp hendpoint).1 hmethod rfl rfl
  | @saved segment name text roll rolls hendpoint hmethod hname hexpression hsave =>
      refine ⟨fun hstatus => absurd rfl hstatus, fun _ => ?_⟩
      obtain ⟨-, rfl, hparse, -⟩ := SavedRolls.save_eq_ok hsave
      have hshows : SavedRoll.Shows (roll.name, text) roll.toJson :=
        SavedRoll.shows_toJson hparse
      rw [body_dress (by simp [hmethod])]
      exact .saved (Request.endpoint?_eq_some_iff.mp hendpoint).1 hmethod hname hexpression hparse
        (SavedRolls.find?_of_save hsave) rfl hshows

/-- A goblin joins the turn order of a server that has just started. -/
theorem stores_of_answer_goblin :
    let r : Request := ⟨.post, "/init", some "application/json",
      "\x7b\"entityName\": \"Goblin\", \"initiativeValue\": 12\x7d"⟩
    ∃ s : Server, start {} (Vector.replicate 8 0) = .ok s ∧ (s.answer r).1.status = 202 ∧
      s.Accepted r (s.answer r).1.body (s.answer r).2 := by
  intro r
  obtain ⟨s, hstart⟩ : ∃ s, start {} (Vector.replicate 8 0) = .ok s := ⟨_, rfl⟩
  have hstatus : (s.answer r).1.status = 202 := by
    cases hstart
    decide +kernel
  exact ⟨s, hstart, hstatus, ((Reachable.start hstart).stores_of_answer r).2 hstatus⟩

end Tabletop.Server
