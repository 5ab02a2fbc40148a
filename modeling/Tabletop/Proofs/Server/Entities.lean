import Tabletop.Proofs.Initiative.Lookup
import Tabletop.Proofs.Server.Members
import Tabletop.Proofs.Server.Paths
import Tabletop.Proofs.Server.Reachable
import Tabletop.Proofs.Server.RollingPaths
import Tabletop.Proofs.Server.Shown

/-!
# Entities under Their Paths

An entity can be asked for, and removed, at the path of **whatever name it was added under**. The
name may hold slashes, percent signs and blanks: the path is split before it is decoded, and the
decoded name is stripped as it was when the entity was added.

The entry stays what it is until a request removes it or clears the turn order. That is shown for
one request, by what can come of it, and then for any number of them.

## Main definitions

* `EntityPaths`: the requests that add an entity, show it and remove it.
* `Request.Spares`: requests that neither remove an entity nor clear the turn order.

## Main results

* `Server.find?_answerAll_of_spares`: such requests leave the entry of the entity as it is.
* `Server.entity_under_path`: adding, showing and removing an entity.
-/

namespace Tabletop

/-! ### The requests -/

/-- The requests about **an entity under a name**. In the path every byte of the name is encoded,
and the body may be written in any way that denotes the same. -/
structure EntityPaths (name : String) (value : Int) where
  /-- Adds the entity. -/
  adding : Request
  adding_method : adding.method = .post
  adding_path : adding.path = "/init"
  adding_json : adding.contentType.any MediaType.isJson = true
  adding_body : Json.parse adding.body = some (.object
    [("entityName", .string name), ("initiativeValue", .ofInt value)])
  /-- Asks for the entity. -/
  showing : Request
  showing_method : showing.method = .get
  showing_path : ∃ segment, Percent.Encodes name.toUTF8.toList segment ∧
    showing.path = "/init/entity/" ++ String.ofList segment
  /-- Removes the entity. -/
  removing : Request
  removing_method : removing.method = .delete
  removing_path : removing.path = showing.path

/-- The body for a name and an integer of 64 bits **is read back**, if it is written compactly. -/
theorem parse_compact_entity (name : String) {value : Int} (h : fitsSigned value = true) :
    Json.parse (Json.compact
      (.object [("entityName", .string name), ("initiativeValue", .ofInt value)])) =
        some (.object [("entityName", .string name), ("initiativeValue", .ofInt value)]) := by
  have hvalue : (Json.ofInt value).All (fun _ => True) Number.ReadsBack :=
    .number (Number.Fits.readsBack (.inl h))
  have hall : Json.All (fun _ => True) Number.ReadsBack
      (.object [("entityName", .string name), ("initiativeValue", .ofInt value)]) :=
    .object (fun _ _ => trivial)
      (List.forall_mem_cons.mpr ⟨.string, List.forall_mem_singleton.mpr hvalue⟩)
  refine Json.parse_compact (.object ?_) hall
  exact List.forall_mem_cons.mpr ⟨.string, List.forall_mem_singleton.mpr .number⟩

/-- Every name and every integer of 64 bits have such requests, with **compact bodies**. -/
def EntityPaths.plain (name : String) (value : Int) (h : fitsSigned value = true) :
    EntityPaths name value where
  adding := ⟨.post, "/init", some "application/json",
    (Json.object [("entityName", .string name), ("initiativeValue", .ofInt value)]).compact⟩
  adding_method := rfl
  adding_path := rfl
  adding_json := MediaType.isJson_json
  adding_body := parse_compact_entity name h
  showing := ⟨.get, "/init/entity/" ++ String.ofList (Percent.encode name), none, ""⟩
  showing_method := rfl
  showing_path := ⟨_, Percent.encodes_encode name, rfl⟩
  removing := ⟨.delete, "/init/entity/" ++ String.ofList (Percent.encode name), none, ""⟩
  removing_method := rfl
  removing_path := rfl

/-- A request **spares** an entity if it neither removes it nor clears the turn order. -/
def Request.Spares (r : Request) (name : String) : Prop :=
  r.endpoint? ≠ some .clear ∧
    ∀ segment text, r.endpoint? = some (.entity segment) → r.method = .delete →
      Percent.decode? segment = some text → Text.strip text ≠ name

namespace Server

variable {s : Server} {r : Request} {requests : List Request} {name : String} {value : Int}
variable {entry : Entry}

/-! ### What keeps an entry -/

/-- A request that spares an entity **leaves its entry** as it is. -/
theorem find?_answer_of_spares (h : s.tracker.find? name = some entry) (hr : r.Spares name) :
    (s.answer r).2.tracker.find? name = some entry := by
  obtain ⟨reply, houtcome, -⟩ := exists_outcome s r
  generalize (s.answer r).2 = next at houtcome
  cases houtcome with
  | shown => exact h
  | rolled => exact h
  | added _ _ _ hadd =>
      obtain ⟨-, -, rfl⟩ := Tracker.add_eq_ok hadd
      exact Tracker.find?_enrol_of_some h
  | removed hendpoint hmethod hname hremove =>
      obtain ⟨-, rfl⟩ := Tracker.remove_eq_ok hremove
      have hne := hr.2 _ _ hendpoint hmethod hname
      exact (Tracker.find?_dismiss _ _ _).trans ((if_neg hne.symm).trans h)
  | cleared hendpoint => exact absurd hendpoint hr.1
  | saved => exact h

/-- Any number of requests that spare an entity **leave its entry** as it is. -/
theorem find?_answerAll_of_spares (h : s.tracker.find? name = some entry)
    (hrequests : ∀ r ∈ requests, r.Spares name) :
    (s.answerAll requests).2.tracker.find? name = some entry := by
  induction requests generalizing s with
  | nil => exact h
  | cons r requests ih =>
      obtain ⟨hr, hothers⟩ := List.forall_mem_cons.mp hrequests
      exact ih (find?_answer_of_spares h hr) hothers

/-! ### Adding, showing and removing -/

/-- The refusal of a name without an entity. -/
def noEntity (name : String) : Json :=
  .object [("error", .string "not_found"), ("message", .string ("entity not found: " ++ name))]

/-- Under a new name the newcomer is **enrolled**, and its entry told. -/
theorem addEntity_of_new (hentity : r.entity = .ok (name, value)) (hname : Text.strip name ≠ "")
    (hnew : s.tracker.find? (Text.strip name) = none) :
    s.addEntity r = (.json 202 (s.tracker.newcomer (Text.strip name) value).toJson,
      { s with tracker := s.tracker.enrol (Text.strip name) value }) := by
  have hblank : ¬ (Text.strip name).isEmpty = true := by
    simpa using hname
  simp only [addEntity, hentity, Tracker.add_new hblank hnew]

/-- The entry of a name that is there is **told**. -/
theorem showEntity_of_known (hfind : s.tracker.find? (Text.strip name) = some entry) :
    s.showEntity name = .json 200 entry.toJson := by
  rw [showEntity, Tracker.get_known hfind]

/-- There is **no entity** under any other name. -/
theorem showEntity_of_unknown (hfind : s.tracker.find? (Text.strip name) = none) :
    s.showEntity name = .json 404 (noEntity (Text.strip name)) := by
  rw [showEntity, Tracker.get_unknown hfind]
  rfl

/-- The entry of a name that is there is told **and taken away**. -/
theorem removeEntity_of_known (hfind : s.tracker.find? (Text.strip name) = some entry) :
    s.removeEntity name =
      (.json 202 entry.toJson, { s with tracker := s.tracker.dismiss (Text.strip name) }) := by
  simp only [removeEntity, Tracker.remove_known hfind]

section Paths

variable (paths : EntityPaths name value)

/-- The body **adds the entity**. -/
theorem answer_adding (s : Server) :
    s.answer paths.adding = (s.dress paths.adding (s.addEntity paths.adding).1,
      (s.addEntity paths.adding).2) := by
  have hpath : Endpoint.ofPath? "/init" = some .initiative := by decide +kernel
  have hendpoint : paths.adding.endpoint? = some .initiative := by
    refine Request.endpoint?_eq_some_iff.mpr ⟨?_, ?_⟩
    · rw [paths.adding_path, hpath]
    · simp [paths.adding_method, Endpoint.methods]
  rw [answer_of_endpoint? hendpoint, handle, if_pos paths.adding_method]

/-- The name in the path is that of the entity **to be shown**. -/
theorem answer_showing (hname : name ≠ "") (s : Server) :
    s.answer paths.showing = (s.dress paths.showing (s.showEntity name), s) := by
  obtain ⟨segment, hencodes, hpath⟩ := paths.showing_path
  have hendpoint : paths.showing.endpoint? = some (.entity segment) := by
    refine Request.endpoint?_eq_some_iff.mpr ⟨?_, ?_⟩
    · rw [hpath, hencodes.ofPath?_entity hname]
    · simp [paths.showing_method, Endpoint.methods]
  rw [answer_of_endpoint? hendpoint, handle, withParameter, Percent.decode?_of_encodes hencodes]
  simp [paths.showing_method]

/-- The name in the path is that of the entity **to be removed**. -/
theorem answer_removing (hname : name ≠ "") (s : Server) :
    s.answer paths.removing =
      (s.dress paths.removing (s.removeEntity name).1, (s.removeEntity name).2) := by
  obtain ⟨segment, hencodes, hpath⟩ := paths.showing_path
  have hendpoint : paths.removing.endpoint? = some (.entity segment) := by
    refine Request.endpoint?_eq_some_iff.mpr ⟨?_, ?_⟩
    · rw [paths.removing_path, hpath, hencodes.ofPath?_entity hname]
    · simp [paths.removing_method, Endpoint.methods]
  rw [answer_of_endpoint? hendpoint, handle, withParameter, Percent.decode?_of_encodes hencodes]
  simp only [if_pos paths.removing_method]

/-- **An entity is under the path of its name.** Whoever adds an entity under a name that is not
blank, and that no entity has when it is stripped, gets its entry: the stripped name, the value, and
the next number. As long as only requests come that spare the entity, this entry is shown at the
path of the name, and removed there. Then there is nothing to be shown any more. -/
theorem entity_under_path (s : Server) (hname : Text.strip name ≠ "")
    (hnew : s.tracker.find? (Text.strip name) = none) (hvalue : fitsSigned value = true) :
    let entry : Json := .object [("entityName", .string (Text.strip name)),
      ("initiativeValue", .number (.integer value)),
      ("insertionSequence", .number (.integer s.tracker.nextSequence))]
    (s.answer paths.adding).1.Says 202 entry ∧
      ∀ requests : List Request, (∀ r ∈ requests, r.Spares (Text.strip name)) →
        let later := ((s.answer paths.adding).2.answerAll requests).2
        (later.answer paths.showing).1.Says 200 entry ∧
          (later.answer paths.removing).1.Says 202 entry ∧
          ((later.answer paths.removing).2.answer paths.showing).1.Says 404
            (noEntity (Text.strip name)) := by
  intro entry
  have hne : name ≠ "" := by
    rintro rfl
    exact hname (by decide +kernel)
  have hshown : (s.tracker.newcomer (Text.strip name) value).toJson = entry :=
    Entry.shownAs_toJson _
  have hadded : s.answer paths.adding = (s.dress paths.adding (.json 202 entry),
      { s with tracker := s.tracker.enrol (Text.strip name) value }) := by
    have hentity := Request.entity_of_parse paths.adding_json paths.adding_body hvalue
    rw [answer_adding, addEntity_of_new hentity hname hnew, hshown]
  refine ⟨?_, fun requests hspare => ?_⟩
  · rw [hadded]
    exact says_dress (by simp [paths.adding_method]) _ _
  · intro later
    have hfind : later.tracker.find? (Text.strip name) =
        some (s.tracker.newcomer (Text.strip name) value) := by
      refine find?_answerAll_of_spares ?_ hspare
      rw [hadded]
      exact Tracker.find?_enrol_self hnew
    have hremoved : later.answer paths.removing = (later.dress paths.removing (.json 202 entry),
        { later with tracker := later.tracker.dismiss (Text.strip name) }) := by
      rw [answer_removing paths hne, removeEntity_of_known hfind, hshown]
    refine ⟨?_, ?_, ?_⟩
    · rw [answer_showing paths hne, showEntity_of_known hfind, hshown]
      exact says_dress (by simp [paths.showing_method]) _ _
    · rw [hremoved]
      exact says_dress (by simp [paths.removing_method]) _ _
    · have hgone : (later.tracker.dismiss (Text.strip name)).find? (Text.strip name) = none := by
        rw [Tracker.find?_dismiss, if_pos rfl]
      rw [hremoved, answer_showing paths hne, showEntity_of_unknown hgone]
      exact says_dress (by simp [paths.showing_method]) _ _

end Paths

/-- A name with blanks around it, a slash, a percent sign and a letter of two bytes, while a request
for another entity comes in between. -/
theorem entity_under_path_slash :
    let s : Server := ⟨.empty, .empty, .ofSeed 7, "localhost", false⟩
    let paths : EntityPaths " a/é 50% " (-3) := .plain _ _ rfl
    let between : Request := ⟨.delete, "/init/entity/troll", none, ""⟩
    let entry : Json := .object [("entityName", .string "a/é 50%"),
      ("initiativeValue", .number (.integer (-3))), ("insertionSequence", .number (.integer 0))]
    (s.answer paths.adding).1.Says 202 entry ∧
      (((s.answer paths.adding).2.answer between).2.answer paths.showing).1.Says 200 entry := by
  intro s paths between entry
  have hstrip : Text.strip " a/é 50% " = "a/é 50%" := by decide +kernel
  have hendpoint : between.endpoint? = some (.entity "troll".toList) := by decide +kernel
  have hspare : between.Spares "a/é 50%" := by
    refine ⟨by rw [hendpoint]; simp, fun segment text hsegment _ htext => ?_⟩
    rw [hendpoint] at hsegment
    cases hsegment
    have htroll : Percent.decode? "troll".toList = some "troll" := by decide +kernel
    rw [htroll] at htext
    cases htext
    decide +kernel
  have hentity := entity_under_path paths s (by rw [hstrip]; decide) rfl rfl
  rw [hstrip] at hentity
  obtain ⟨hadded, hlater⟩ := hentity
  exact ⟨hadded, (hlater [between] (List.forall_mem_singleton.mpr hspare)).1⟩

end Server

end Tabletop
