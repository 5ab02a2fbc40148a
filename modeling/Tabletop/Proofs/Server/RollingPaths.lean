import Tabletop.Proofs.Dice.Recording
import Tabletop.Proofs.SavedRolls.Lookup
import Tabletop.Proofs.Server.Bodies
import Tabletop.Proofs.Server.Outcome
import Tabletop.Proofs.Server.Paths

/-!
# The Ways of Rolling a Text

A text can be rolled by sending it in a path, by sending it in a batch, or by saving it and rolling
what was saved. From the same server **all three come to the same**, because each takes one key,
the next one, and rolls what the text denotes from it: the text in the path is decoded to what the
bodies say, and what was saved is what the text denotes. Saving itself takes no key.

A text that denotes nothing is refused each time, with the same words and at the same place.
Saving puts the name in front of the words, and saves nothing.

## Main definitions

* `RollingPaths`: the requests that roll a text, or save it under a name and roll that.
* `RollingPaths.plain`: one such choice of requests for every text and every name.

## Main results

* `Server.rolling_paths_agree`: their replies.
-/

namespace Tabletop

/-! ### What paths ask for -/

section Asking

variable {r : Request} {text name : String} {segment : List Char}

/-- A segment that stands for a text asks for **the formula** of this text. -/
theorem Request.task?_of_decode? (hmethod : r.method = .get)
    (hpath : Endpoint.ofPath? r.path = some (.formula segment))
    (hdecode : Percent.decode? segment = some text) : r.task? = some (.formula text) := by
  rw [Request.task?, hpath, hmethod]
  simp only [Method.isReading, if_true, hdecode, Option.map_some]

/-- A text in a path, every byte of it encoded, is the formula to be rolled. -/
theorem Request.task?_of_encodes (hmethod : r.method = .get)
    (hencodes : Percent.Encodes text.toUTF8.toList segment)
    (hpath : r.path = "/roll/" ++ String.ofList segment) (htext : text ≠ "") :
    r.task? = some (.formula text) :=
  Request.task?_of_decode? hmethod (hpath ▸ hencodes.ofPath? htext)
    (Percent.decode?_of_encodes hencodes)

/-- A name in a path is **that of the saved roll** to be rolled. -/
theorem Request.task?_of_isRollName (hmethod : r.method = .get)
    (hpath : r.path = "/roll/savedroll/" ++ name) (hname : isRollName name = true) :
    r.task? = some (.named name) := by
  rw [Request.task?, hpath, ofPath?_of_isRollName hname, hmethod]
  simp only [Method.isReading, if_true, decode?_of_isRollName hname, Option.map_some]

/-- A name in a path is that which a roll **is saved under**. -/
theorem Server.answer_of_saving (s : Server) (hmethod : r.method = .put)
    (hpath : r.path = "/roll/savedroll/" ++ name) (hname : isRollName name = true) :
    s.answer r = (s.dress r (s.saveRoll name r).1, (s.saveRoll name r).2) := by
  have hendpoint : r.endpoint? = some (.savedRoll name.toList) := by
    refine Request.endpoint?_eq_some_iff.mpr ⟨?_, ?_⟩
    · rw [hpath, ofPath?_of_isRollName hname]
    · simp [hmethod, Endpoint.methods]
  rw [Server.answer_of_endpoint? hendpoint, Server.handle, Server.withParameter,
    decode?_of_isRollName hname]
  simp only [if_pos hmethod]

end Asking

/-! ### The requests -/

/-- The requests that roll a text **in all ways**. In a path every byte of the text is encoded,
and bodies may be written in any way that denotes the same. -/
structure RollingPaths (text name : String) where
  /-- Asks for the text in the path to be rolled. -/
  shown : Request
  shown_method : shown.method = .get
  shown_path : ∃ segment, Percent.Encodes text.toUTF8.toList segment ∧
    shown.path = "/roll/" ++ String.ofList segment
  /-- Asks for a batch of the text alone. -/
  batch : Request
  batch_method : batch.method = .post
  batch_path : batch.path = "/roll"
  batch_json : batch.contentType.any MediaType.isJson = true
  batch_body : Json.parse batch.body = some (.object [("rolls", .array [.string text])])
  /-- Saves the text under the name. -/
  saving : Request
  saving_method : saving.method = .put
  saving_path : saving.path = "/roll/savedroll/" ++ name
  saving_json : saving.contentType.any MediaType.isJson = true
  saving_body : Json.parse saving.body = some (.object [("expression", .string text)])
  /-- Asks for the saved roll of the name. -/
  saved : Request
  saved_method : saved.method = .get
  saved_path : saved.path = "/roll/savedroll/" ++ name

/-- The usual media type announces JSON. -/
theorem MediaType.isJson_json : isJson "application/json" = true := by
  decide +kernel

/-- Every text and every name have such requests, with **compact bodies**. -/
def RollingPaths.plain (text name : String) : RollingPaths text name where
  shown := ⟨.get, "/roll/" ++ String.ofList (Percent.encode text), none, ""⟩
  shown_method := rfl
  shown_path := ⟨_, Percent.encodes_encode text, rfl⟩
  batch := ⟨.post, "/roll", some "application/json",
    (Json.object [("rolls", .array [.string text])]).compact⟩
  batch_method := rfl
  batch_path := rfl
  batch_json := MediaType.isJson_json
  batch_body := Json.parse_compact_texts "rolls" text
  saving := ⟨.put, "/roll/savedroll/" ++ name, some "application/json",
    (Json.object [("expression", .string text)]).compact⟩
  saving_method := rfl
  saving_path := rfl
  saving_json := MediaType.isJson_json
  saving_body := Json.parse_compact_text "expression" text
  saved := ⟨.get, "/roll/savedroll/" ++ name, none, ""⟩
  saved_method := rfl
  saved_path := rfl

namespace RollingPaths

variable {text name : String} (paths : RollingPaths text name)

/-- The text in the path **is the formula to be rolled**. -/
theorem task?_shown (htext : text ≠ "") : paths.shown.task? = some (.formula text) := by
  obtain ⟨segment, hencodes, hpath⟩ := paths.shown_path
  exact Request.task?_of_encodes paths.shown_method hencodes hpath htext

/-- The text in the body is the batch to be rolled. -/
theorem task?_batch : paths.batch.task? = some (.batch [.adhoc text]) := by
  have hpath : Endpoint.ofPath? "/roll" = some .roll := by decide +kernel
  rw [Request.task?, paths.batch_path, hpath, paths.batch_method,
    Request.batch_of_parse paths.batch_json paths.batch_body]
  rfl

/-- The name in the path is that of the saved roll to be rolled. -/
theorem task?_saved (hname : isRollName name = true) :
    paths.saved.task? = some (.named name) :=
  Request.task?_of_isRollName paths.saved_method paths.saved_path hname

/-- The text in the body **is saved** under the name in the path. -/
theorem answer_saving (hname : isRollName name = true) (s : Server) :
    s.answer paths.saving =
      (s.dress paths.saving (s.saveRoll name paths.saving).1,
        (s.saveRoll name paths.saving).2) :=
  s.answer_of_saving paths.saving_method paths.saving_path hname

end RollingPaths

/-! ### Their replies -/

/-- A reply **says** a JSON value, with a status. -/
def Reply.Says (reply : Reply) (status : Nat) (value : Json) : Prop :=
  reply.status = status ∧ reply.body = .json value

namespace Server

variable {s : Server}

/-- Dressing a reply does not change what it says, unless only the head is asked for. -/
theorem says_dress {r : Request} (hmethod : r.method ≠ .head) (status : Nat) (value : Json) :
    (s.dress r (.json status value)).Says status value :=
  ⟨status_dress _, body_dress hmethod _⟩

/-- A task is rolled from a keystream, so what it denotes **comes to a roll**. -/
theorem exists_roll (s : Server) (f : Formula) :
    ∃ roll next, f.rollWith Source.draw s.takeSource.1 = (.ok roll, next) := by
  obtain ⟨roll, next, hroll, -⟩ := f.rollWith_steady Source.steady_seeded ⟨_, rfl⟩
  exact ⟨roll, next, hroll⟩

/-- The reply to a batch of the text alone, with the outcome of its one item. -/
def soleItem (text : String) (outcome : String × Json) : Json :=
  .object [("results",
    .array [.object [("request", .object [("expression", .string text)]), outcome]])]

/-- A refusal at the place of a fault. -/
def refusal (fault : Fault) (kind message : String) : Json :=
  .object [("error", .string kind), ("message", .string message),
    ("position", .ofNat fault.position), ("fragment", .string fault.fragment)]

section Replies

variable {text name : String} {f : Formula} {fault : Fault} {source next : Source} {roll : Roll}

/-- The roll of a text that denotes a formula. -/
theorem taskReply_formula (hparse : Formula.parse text = .ok f)
    (hroll : f.rollWith Source.draw source = (.ok roll, next)) :
    s.taskReply source (.formula text) = .json 200 roll.toJson := by
  simp only [taskReply, rollText, rollIfGood, hparse, hroll, Drawn.andThen_ok, rollReply]

/-- The refusal of a text that denotes none. -/
theorem taskReply_formula_fault (hparse : Formula.parse text = .error fault) :
    s.taskReply source (.formula text) = .json 400 fault.body.toJson := by
  simp only [taskReply, rollText, rollIfGood, hparse, rollReply]
  rfl

/-- The batch of a text that denotes a formula holds **its roll**. -/
theorem taskReply_batch (hparse : Formula.parse text = .ok f)
    (hroll : f.rollWith Source.draw source = (.ok roll, next)) :
    s.taskReply source (.batch [.adhoc text]) =
      .json 202 (soleItem text ("result", roll.toJson)) := by
  simp only [taskReply, rollBatch, rollBatchWith, RollRequest.rollWith, RollRequest.formula, hparse,
    Except.mapError, rollIfGood, hroll, Drawn.andThen_ok, batchReply, List.map_cons, List.map_nil,
    BatchItem.toJson]
  rfl

/-- The batch of a text that denotes none holds **its refusal**. -/
theorem taskReply_batch_fault (hparse : Formula.parse text = .error fault) :
    s.taskReply source (.batch [.adhoc text]) =
      .json 202 (soleItem text ("error", fault.body.toJson)) := by
  simp only [taskReply, rollBatch, rollBatchWith, RollRequest.rollWith, RollRequest.formula, hparse,
    Except.mapError, rollIfGood, Drawn.andThen_ok, batchReply, List.map_cons, List.map_nil,
    BatchItem.toJson]
  rfl

/-- The roll of a name that has a formula. -/
theorem taskReply_named (hresolve : s.rolls.resolve name = .ok f)
    (hroll : f.rollWith Source.draw source = (.ok roll, next)) :
    s.taskReply source (.named name) = .json 200 roll.toJson := by
  simp only [taskReply, rollSaved, rollIfGood, hresolve, hroll, Drawn.andThen_ok, rollReply]

variable {r : Request}

/-- A text that denotes a formula **is saved** under the name and under no other, and the name then
resolves to that formula. -/
theorem saveRoll_of_parse (hexpression : r.expression = .ok text) (hname : isRollName name = true)
    (hparse : Formula.parse text = .ok f) :
    ∃ rolls : SavedRolls, rolls.find? = Function.update s.rolls.find? name (some f) ∧
      rolls.resolve name = .ok f ∧
      s.saveRoll name r = (.json 202 (SavedRoll.toJson ⟨name, f⟩), { s with rolls := rolls }) := by
  obtain ⟨rolls, hsave⟩ : ∃ rolls, s.rolls.save name text = .ok (⟨name, f⟩, rolls) := by
    rw [SavedRolls.save, if_pos hname, hparse]
    exact ⟨_, rfl⟩
  exact ⟨rolls, SavedRolls.find?_of_save hsave, SavedRolls.resolve_of_save hsave,
    by simp only [saveRoll, hexpression, hsave]⟩

/-- A text that denotes none **is not saved**. -/
theorem saveRoll_of_fault (hexpression : r.expression = .ok text) (hname : isRollName name = true)
    (hparse : Formula.parse text = .error fault) :
    s.saveRoll name r = ((Failure.savedRoll (.invalidExpression name fault)).reply, s) := by
  have hsave : s.rolls.save name text = .error (.invalidExpression name fault) := by
    rw [SavedRolls.save, if_pos hname, hparse]
  simp only [saveRoll, hexpression, hsave]

end Replies

/-! ### Agreement -/

section Agreement

variable {text name : String} (paths : RollingPaths text name)

/-- A text that denotes a formula is **rolled alike**. -/
theorem rolls_agree (s : Server) (htext : text ≠ "") (hname : isRollName name = true)
    {f : Formula} (hparse : Formula.parse text = .ok f) :
    ∃ roll : Roll, (s.answer paths.shown).1.Says 200 roll.toJson ∧
      (s.answer paths.batch).1.Says 202 (soleItem text ("result", roll.toJson)) ∧
      (s.answer paths.saving).1.status = 202 ∧
      ((s.answer paths.saving).2.answer paths.saved).1.Says 200 roll.toJson := by
  obtain ⟨roll, next, hroll⟩ := s.exists_roll f
  obtain ⟨rolls, -, hresolve, hsaveRoll⟩ := saveRoll_of_parse (s := s)
    (Request.expression_of_parse paths.saving_json paths.saving_body) hname hparse
  refine ⟨roll, ?_, ?_, ?_, ?_⟩
  · rw [answer_of_task? (paths.task?_shown htext), taskReply_formula hparse hroll]
    exact says_dress (by simp [paths.shown_method]) _ _
  · rw [answer_of_task? paths.task?_batch, taskReply_batch hparse hroll]
    exact says_dress (by simp [paths.batch_method]) _ _
  · rw [paths.answer_saving hname, hsaveRoll]
    exact status_dress _
  · -- Saving takes no key, so the saved roll is rolled from the key that the others take.
    have hnamed := taskReply_named (s := { s with rolls := rolls }) hresolve hroll
    rw [paths.answer_saving hname, hsaveRoll, answer_of_task? (paths.task?_saved hname)]
    change (dress _ _ (taskReply _ s.takeSource.1 _)).Says _ _
    rw [hnamed]
    exact says_dress (by simp [paths.saved_method]) _ _

/-- A text that denotes none is **refused alike**, and nothing is saved. -/
theorem refusals_agree (s : Server) (htext : text ≠ "") (hname : isRollName name = true)
    {fault : Fault} (hparse : Formula.parse text = .error fault) :
    (s.answer paths.shown).1.Says 400 (refusal fault fault.kind.name fault.message) ∧
    (s.answer paths.batch).1.Says 202
      (soleItem text ("error", refusal fault fault.kind.name fault.message)) ∧
    (s.answer paths.saving).1.Says 400 (refusal fault "invalid_expression"
      ("invalid expression for saved roll '" ++ name ++ "': " ++ fault.message)) ∧
    (s.answer paths.saving).2 = s := by
  have hexpression := Request.expression_of_parse paths.saving_json paths.saving_body
  rw [answer_of_task? (paths.task?_shown htext), taskReply_formula_fault hparse,
    answer_of_task? paths.task?_batch, taskReply_batch_fault hparse, paths.answer_saving hname,
    saveRoll_of_fault hexpression hname hparse]
  exact ⟨says_dress (by simp [paths.shown_method]) _ _,
    says_dress (by simp [paths.batch_method]) _ _,
    says_dress (by simp [paths.saving_method]) _ _, rfl⟩

/-- **All ways of rolling a text agree.** What the path gives, the batch and the saved roll give as
well; and where the path is refused, so are the item of the batch and the saving, with the same
words at the same place. -/
theorem rolling_paths_agree (s : Server) (htext : text ≠ "") (hname : isRollName name = true) :
    (∀ f, Formula.parse text = .ok f → ∃ value : Json,
      (s.answer paths.shown).1.Says 200 value ∧
      (s.answer paths.batch).1.Says 202 (soleItem text ("result", value)) ∧
      (s.answer paths.saving).1.status = 202 ∧
      ((s.answer paths.saving).2.answer paths.saved).1.Says 200 value) ∧
    ∀ fault, Formula.parse text = .error fault → ∃ kind message : String,
      (s.answer paths.shown).1.Says 400 (refusal fault kind message) ∧
      (s.answer paths.batch).1.Says 202 (soleItem text ("error", refusal fault kind message)) ∧
      (s.answer paths.saving).1.Says 400 (refusal fault "invalid_expression"
        ("invalid expression for saved roll '" ++ name ++ "': " ++ message)) ∧
      (s.answer paths.saving).2 = s := by
  constructor
  · intro f hparse
    obtain ⟨roll, hagree⟩ := rolls_agree paths s htext hname hparse
    exact ⟨roll.toJson, hagree⟩
  · intro fault hparse
    exact ⟨_, _, refusals_agree paths s htext hname hparse⟩

/-- A formula is rolled in all ways, and a text that is none is refused in all. -/
theorem rolling_paths_agree_hit :
    let s : Server := ⟨.empty, .empty, .ofSeed 7, "localhost", false⟩
    let good : RollingPaths "2d6+1" "hit" := .plain _ _
    let bad : RollingPaths "2d" "hit" := .plain _ _
    (∃ value, (s.answer good.shown).1.Says 200 value ∧
      ((s.answer good.saving).2.answer good.saved).1.Says 200 value) ∧
    (s.answer bad.shown).1.status = 400 ∧ (s.answer bad.saving).1.status = 400 := by
  intro s good bad
  have hgood : Formula.parse "2d6+1" =
      .ok ⟨"2d6+1", [⟨.plus, .dice 2 6⟩, ⟨.plus, .constant 1⟩]⟩ := by
    decide +kernel
  have hbad : Formula.parse "2d" = .error ⟨.malformedTerm, 0, "2d"⟩ := by decide +kernel
  have hname : isRollName "hit" = true := by decide +kernel
  obtain ⟨value, hshown, -, -, hsaved⟩ :=
    (rolling_paths_agree good s (by decide) hname).1 _ hgood
  obtain ⟨_, _, hrefused, -, hunsaved, -⟩ :=
    (rolling_paths_agree bad s (by decide) hname).2 _ hbad
  exact ⟨⟨value, hshown, hsaved⟩, hrefused.1, hunsaved.1⟩

end Agreement

end Server

end Tabletop
