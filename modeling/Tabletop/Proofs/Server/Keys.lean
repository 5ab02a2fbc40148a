import Tabletop.Proofs.Server.Frame
import Tabletop.Proofs.Server.Reachable

/-!
# The Keys of Rolling Requests

On a server with a seed, **the key of a roll depends on how many rolling requests came before** and
on nothing else that was sent. Each rolling request takes eight words of the shared keystream and
no other request takes any, so the position of that stream counts the rolling requests.

Therefore requests that neither roll nor save a roll can be deleted from a history or inserted into
it, and whatever else is asked about rolls is answered as before. Between the two histories the
servers differ in nothing but the turn order, which nothing about rolls depends on.

## Main definitions

* `Keystream.keyAt`: the keys that a keystream consists of.
* `Request.isRolling`, `Request.isIdle`: requests that take a key, and those that leave the saved
  rolls alone as well.
* `Edit`: a request that is kept, deleted or inserted, and so an edited history as a list.

## Main results

* `Server.shared_answerAll`: the position of the shared keystream counts the rolling requests.
* `Server.answers_of_seed`: the answers of a server with a seed, in both respects.
-/

namespace Tabletop

/-- The eight words that **key `k`** of a keystream consists of. -/
def Keystream.keyAt (key : Key) (k : Nat) : Key :=
  Vector.ofFn fun i => word key (8 * k + i)

namespace Request

/-- Whether a request **takes a key** of the shared keystream. -/
def isRolling (r : Request) : Bool :=
  r.task?.isSome

/-- Whether a request is a `PUT` on a saved roll. -/
def isSaving (r : Request) : Bool :=
  match Endpoint.ofPath? r.path with
  | some (.savedRoll _) => r.method = .put
  | _ => false

/-- Whether a request takes no key and **cannot save a roll**. -/
def isIdle (r : Request) : Bool :=
  !r.isRolling && !r.isSaving

variable {r : Request}

/-- What rolls is asked for under `/roll`. -/
theorem isUnder_of_task? {task : RollTask} (h : r.task? = some task) :
    r.isUnder "roll" = true := by
  obtain ⟨_, _, hpath, -⟩ | ⟨_, _, hpath, -⟩ | ⟨_, hpath, -⟩ := Server.task?_cases h <;>
    exact (isUnder_iff hpath).mpr rfl

/-- Saved rolls are saved under `/roll`. -/
theorem isUnder_of_isSaving (h : r.isSaving = true) : r.isUnder "roll" = true := by
  rw [isSaving] at h
  split at h
  · rename_i hpath
    exact (isUnder_iff hpath).mpr rfl
  · cases h

/-- What is not under `/roll` is idle. -/
theorem isIdle_of_not_isUnder (h : r.isUnder "roll" = false) : r.isIdle = true := by
  have hrolling : r.isRolling = false := by
    cases htask : r.task? with
    | none => rw [isRolling, htask]; rfl
    | some task => rw [isUnder_of_task? htask] at h; cases h
  have hsaving : r.isSaving = false :=
    Bool.eq_false_iff.mpr fun hsaving => by rw [isUnder_of_isSaving hsaving] at h; cases h
  rw [isIdle, hrolling, hsaving]
  rfl

end Request

namespace Server

variable {s : Server} {r : Request}

/-! ### The shared keystream -/

/-- A request that does not roll takes **no key**. -/
theorem shared_answer_of_no_task (h : r.task? = none) : (s.answer r).2.shared = s.shared := by
  obtain ⟨reply, houtcome, -⟩ := exists_outcome s r
  generalize (s.answer r).2 = next at houtcome
  cases houtcome with
  | rolled htask => rw [htask] at h; cases h
  | shown | added | removed | cleared | saved => rfl

/-- The position of the shared keystream **counts the rolling requests**, eight words for each. -/
theorem shared_answerAll (s : Server) (requests : List Request) :
    (s.answerAll requests).2.shared =
      ⟨s.shared.key, s.shared.position + 8 * requests.countP Request.isRolling⟩ := by
  induction requests generalizing s with
  | nil => rfl
  | cons r requests ih =>
      simp only [answerAll_cons, ih]
      cases htask : r.task? with
      | none =>
          rw [shared_answer_of_no_task htask,
            List.countP_cons_of_neg (by simp [Request.isRolling, htask])]
      | some task =>
          rw [answer_of_task? htask, List.countP_cons_of_pos (by simp [Request.isRolling, htask]),
            Nat.mul_succ, Nat.add_comm _ 8, ← Nat.add_assoc]
          rfl

/-! ### Edited histories -/

/-- An idle request changes **nothing but the turn order**. -/
theorem answer_of_isIdle (h : r.isIdle = true) :
    ∃ tracker, (s.answer r).2 = { s with tracker := tracker } := by
  have htask : r.task? = none := by
    simp_all [Request.isIdle, Request.isRolling]
  obtain ⟨reply, houtcome, -⟩ := exists_outcome s r
  generalize (s.answer r).2 = next at houtcome
  cases houtcome with
  | shown => exact ⟨s.tracker, rfl⟩
  | rolled hrolled => rw [htask] at hrolled; cases hrolled
  | @added _ _ _ tracker => exact ⟨tracker, rfl⟩
  | @removed _ _ _ tracker => exact ⟨tracker, rfl⟩
  | cleared => exact ⟨.empty, rfl⟩
  | saved hendpoint hmethod =>
      have hpath := (Request.endpoint?_eq_some_iff.mp hendpoint).1
      simp [Request.isIdle, Request.isSaving, hpath, hmethod] at h

end Server

/-- What is done to a request in **editing** a history. -/
inductive Edit where
  /-- The request is there before and after. -/
  | kept (r : Request)
  /-- The request is there before. -/
  | deleted (r : Request)
  /-- The request is there after. -/
  | inserted (r : Request)
  deriving Repr

namespace Edit

/-- The history before it is edited. -/
def before : List Edit → List Request
  | [] => []
  | kept r :: edits | deleted r :: edits => r :: before edits
  | inserted _ :: edits => before edits

/-- The history after it is edited. -/
def after : List Edit → List Request
  | [] => []
  | kept r :: edits | inserted r :: edits => r :: after edits
  | deleted _ :: edits => after edits

/-- Whether only idle requests are deleted and inserted. -/
def isIdle : Edit → Bool
  | kept _ => true
  | deleted r | inserted r => r.isIdle

/-- The replies before and after an edit, where those to the requests about rolls that are kept
are **the same**. -/
inductive Unaffected : List Edit → List Reply → List Reply → Prop
  | nil : Unaffected [] [] []
  | kept {r : Request} {edits : List Edit} {old new : Reply} {olds news : List Reply} :
      (r.isUnder "roll" = true → old = new) → Unaffected edits olds news →
      Unaffected (kept r :: edits) (old :: olds) (new :: news)
  | deleted {r : Request} {edits : List Edit} {old : Reply} {olds news : List Reply} :
      Unaffected edits olds news → Unaffected (deleted r :: edits) (old :: olds) news
  | inserted {r : Request} {edits : List Edit} {new : Reply} {olds news : List Reply} :
      Unaffected edits olds news → Unaffected (inserted r :: edits) olds (new :: news)

end Edit

namespace Server

variable {s : Server} {r : Request}

/-- Servers that differ in nothing but the turn order **still do** after both have answered a
request, and if the request is about rolls, they have answered it alike. -/
theorem answer_agrees (s : Server) (tracker : Tracker) (r : Request) :
    (∃ tracker', (({ s with tracker := tracker } : Server).answer r).2 =
      { (s.answer r).2 with tracker := tracker' }) ∧
    (r.isUnder "roll" = true →
      (s.answer r).1 = (({ s with tracker := tracker } : Server).answer r).1) := by
  cases hunder : r.isUnder "roll" with
  | true =>
      have hinit : r.isUnder "init" = false :=
        Bool.eq_false_iff.mpr fun hinit => absurd (Request.isUnder_unique hunder hinit) (by decide)
      rw [answer_withTracker s tracker hinit]
      exact ⟨⟨tracker, rfl⟩, fun _ => rfl⟩
  | false =>
      have hidle := Request.isIdle_of_not_isUnder hunder
      obtain ⟨tracker₁, h₁⟩ := answer_of_isIdle (s := s) hidle
      obtain ⟨tracker₂, h₂⟩ := answer_of_isIdle (s := { s with tracker := tracker }) hidle
      rw [h₁, h₂]
      exact ⟨⟨tracker₂, rfl⟩, nofun⟩

/-- Deleting and inserting idle requests **does not affect** the answers about rolls. -/
theorem unaffected_answerAll {edits : List Edit} (hidle : ∀ edit ∈ edits, edit.isIdle = true)
    (s : Server) (tracker : Tracker) :
    Edit.Unaffected edits (s.answerAll (Edit.before edits)).1
      (({ s with tracker := tracker } : Server).answerAll (Edit.after edits)).1 := by
  induction edits generalizing s tracker with
  | nil => exact .nil
  | cons edit edits ih =>
      have hrest := ih fun edit hmem => hidle edit (List.mem_cons_of_mem _ hmem)
      cases edit with
      | kept r =>
          obtain ⟨⟨tracker', hnext⟩, hreply⟩ := answer_agrees s tracker r
          rw [Edit.before, Edit.after, answerAll_cons, answerAll_cons, hnext]
          exact .kept hreply (hrest (s.answer r).2 tracker')
      | deleted r =>
          obtain ⟨tracker', hnext⟩ := answer_of_isIdle (s := s) (hidle _ List.mem_cons_self)
          rw [Edit.before, Edit.after, answerAll_cons, hnext]
          exact .deleted (hrest { s with tracker := tracker' } tracker)
      | inserted r =>
          obtain ⟨tracker', hnext⟩ := answer_of_isIdle (s := { s with tracker := tracker })
            (hidle _ List.mem_cons_self)
          rw [Edit.before, Edit.after, answerAll_cons, hnext]
          exact .inserted (hrest s tracker')

/-- The **answers of a server with a seed**. The rolling request that `k` others came before is
answered with key `k` of the stream of the seed, and takes it; no other request takes anything of
that stream. So deleting and inserting requests that neither roll nor save a roll does not affect
the answers about rolls. -/
theorem answers_of_seed {settings : Settings} {key : Key} {seed : Nat} {s : Server}
    (hseed : settings.seed = some seed) (hstart : start settings key = .ok s) :
    let stream := Key.ofSeed (UInt64.ofNat seed)
    (∀ (past : List Request) (r : Request),
      let t := (s.answerAll past).2
      let k := past.countP Request.isRolling
      (∀ task, r.task? = some task →
        (t.answer r).1 = t.dress r
          (t.taskReply (.seeded (.ofKey (Keystream.keyAt stream k))) task) ∧
        (t.answer r).2.shared = ⟨stream, 8 * (k + 1)⟩) ∧
      (r.task? = none → (t.answer r).2.shared = ⟨stream, 8 * k⟩)) ∧
    ∀ edits : List Edit, (∀ edit ∈ edits, edit.isIdle = true) →
      Edit.Unaffected edits (s.answerAll (Edit.before edits)).1
        (s.answerAll (Edit.after edits)).1 := by
  intro stream
  constructor
  · intro past r t k
    have hshared : t.shared = ⟨stream, 8 * k⟩ := by
      obtain ⟨rolls, -, rfl⟩ := start_eq_ok hstart
      rw [shared_answerAll, hseed]
      exact congrArg (Keystream.mk stream) (Nat.zero_add _)
    constructor
    · intro task htask
      rw [answer_of_task? htask, takeSource_snd, takeSource, hshared]
      exact ⟨rfl, rfl⟩
    · intro htask
      rw [shared_answer_of_no_task htask, hshared]
  · intro edits hidle
    exact unaffected_answerAll hidle s s.tracker

/-- A refused formula takes the first key, so a formula after it is rolled from the second. Asking
for the turn order instead of help in between makes no difference. -/
theorem answers_of_seed_seven :
    let refused : Request := ⟨.get, "/roll/bogus", none, ""⟩
    let good : Request := ⟨.get, "/roll/2d6", none, ""⟩
    let edits : List Edit := [.kept refused, .deleted ⟨.get, "/roll", none, ""⟩,
      .inserted ⟨.get, "/init/list", none, ""⟩, .kept good]
    ∃ s t : Server, start { seed := some 7 } (Vector.replicate 8 0) = .ok s ∧
      t = (s.answerAll [refused]).2 ∧ (t.answer good).1 =
        t.dress good (t.taskReply
          (.seeded (.ofKey (Keystream.keyAt (Key.ofSeed 7) 1))) (.formula "2d6")) ∧
      Edit.Unaffected edits (s.answerAll (Edit.before edits)).1
        (s.answerAll (Edit.after edits)).1 := by
  intro refused good edits
  obtain ⟨s, hstart⟩ : ∃ s, start { seed := some 7 } (Vector.replicate 8 0) = .ok s := ⟨_, rfl⟩
  obtain ⟨hkeys, hedits⟩ := answers_of_seed rfl hstart
  have hcount : [refused].countP Request.isRolling = 1 := by decide +kernel
  have htask : good.task? = some (.formula "2d6") := by
    have hpath : Endpoint.ofPath? good.path = some (.formula "2d6".toList) := by decide +kernel
    have htext : Percent.decode? "2d6".toList = some "2d6" := by decide +kernel
    rw [Request.task?, hpath]
    exact congrArg (Option.map RollTask.formula) htext
  have hreply := ((hkeys [refused] good).1 _ htask).1
  rw [hcount] at hreply
  exact ⟨s, _, hstart, rfl, hreply, hedits edits (by decide +kernel)⟩

end Server

end Tabletop
