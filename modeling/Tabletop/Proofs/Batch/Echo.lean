import Tabletop.Batch
import Tabletop.Proofs.Json.Normal

/-!
# Echoes of Requests

Each outcome of a batch comes with its request, written as JSON. Whoever **reads the echo as a
request** gets the same request again, if it had a known form. A value of no known form is echoed in
its plain form, and that may have one: where a key was repeated it holds its last value alone, and
if this is a text the echo asks for a roll although the request was refused.

Besides repeated keys there are embedded texts, which are echoed as what they denote, and floats
that are not read back exactly. Without these, the echo of a refused request is read as this request
just when no key of a known form was last given a text.

## Main definitions

* `RollRequest.readAgain?`: the request that is read from the echo of a request.
* `RollRequest.lastText?`: the text that a key was last given.

## Main results

* `RollRequest.readAgain?_of_invalid`: what the echo of a refused request is read as.
* `RollRequest.echo_reads_back`: which echoes are read as their request.
* `RollRequest.repeated_key_reads_as_formula`: an echo that is not.
-/

open Tabletop.Json

namespace Tabletop.RollRequest

variable {text : String} {items : List Json} {item v : Json} {r : RollRequest}

/-- The request that is read from the **echo** of a request. -/
def readAgain? (r : RollRequest) : Option RollRequest :=
  (Json.parse r.toJson.compact).bind ofJson?

/-- The text that a key of an object **was last given**, if its last value is a text. -/
def lastText? (key : String) (item : Json) : Option String :=
  (item.member? key).bind Json.text?

/-- A value **without embedded texts**, in which every float is read back. -/
def Faithful (item : Json) : Prop :=
  item.All (· ≠ embeddedKey) fun n => ∀ x, n = .float x → n.ReadsBack

/-! ### Requests of a known form -/

/-- A request with a known form is read from its echo **as it is**. -/
theorem readAgain?_of_known (h : ∀ v, r ≠ invalid v) : r.readAgain? = some r := by
  cases r with
  | adhoc expression =>
      rw [readAgain?, toJson, parse_compact_text]
      rfl
  | named savedRoll =>
      rw [readAgain?, toJson, parse_compact_text]
      rfl
  | invalid v => exact absurd rfl (h v)

/-! ### Refused requests -/

/-- A request is refused where **no form is known**, and keeps the plain form of the value. -/
theorem ofUnknown?_of_invalid (h : ofJson? item = some (invalid v)) :
    ofUnknown? item = some (invalid v) := by
  unfold ofJson? at h
  split at h
  · cases h
  · split at h
    · cases h
    · split at h
      · cases h
      · exact h
  · exact h

/-- Without the key of embedded texts, a value of no known form is kept in its **plain form**. -/
theorem ofUnknown?_of_all {num : Number → Prop} (h : item.All (· ≠ embeddedKey) num) :
    ofUnknown? item = some (invalid item.normal) := by
  rw [ofUnknown?, h.expand?]
  rfl

/-- What is kept of a refused value without embedded texts is **its plain form**. -/
theorem eq_normal_of_invalid {num : Number → Prop} (h : item.All (· ≠ embeddedKey) num)
    (hr : ofJson? item = some (invalid v)) : v = item.normal := by
  have hunknown := ofUnknown?_of_invalid hr
  rw [ofUnknown?_of_all h] at hunknown
  cases hunknown
  rfl

/-- In the plain form every key occurs once, so the sole text of a key is **the last one**. -/
theorem soleText?_normal (key : String) (members : List (String × Json)) :
    soleText? key (normalMembers [] members) = lastText? key (.object members) := by
  rw [soleText?, soleMember?_normal, lastText?]
  cases (Json.object members).member? key with
  | none => rfl
  | some value => exact text?_normal value

/-- The request that a value stands for if in every object **only the last value** of a key
counts. -/
def lastForm (item : Json) : RollRequest :=
  match lastText? expressionKey item with
  | some expression => adhoc expression
  | none =>
    match lastText? savedRollKey item with
    | some name => named name
    | none => invalid item.normal

/-- The plain form of a refused value stands for the request with **the last values** of its
keys. -/
theorem ofJson?_normal {num : Number → Prop} (h : item.All (· ≠ embeddedKey) num)
    (hr : ofJson? item = some (invalid v)) : ofJson? item.normal = some (lastForm item) := by
  have hunknown : ofUnknown? item.normal = some (invalid item.normal) := by
    rw [ofUnknown?_of_all h.normal, normal_normal]
  cases item with
  | string expression => cases hr
  | object members =>
      rw [Json.normal, ofJson?, soleText?_normal, soleText?_normal, lastForm]
      cases lastText? expressionKey (.object members) with
      | some expression => rfl
      | none =>
          cases lastText? savedRollKey (.object members) with
          | some name => rfl
          | none => exact hunknown
  | null => exact hunknown
  | bool => exact hunknown
  | number => exact hunknown
  | array items => exact hunknown

/-- The echo of a refused request is read as the request with **the last values** of its keys. -/
theorem readAgain?_of_invalid (hparse : Json.parse text = some (.array items))
    (hitem : item ∈ items) (hfaithful : Faithful item) (hr : ofJson? item = some (invalid v)) :
    (invalid v).readAgain? = some (lastForm item) := by
  have hwithin : item.Within maxDepth := by
    cases within_of_parse hparse with
    | array hitems => exact (hitems item hitem).mono (Nat.le_succ _)
  have hfits : item.All (fun _ => True) Number.Fits := by
    cases fits_of_parse hparse with
    | array hitems => exact hitems item hitem
  have hnumbers : item.All (· ≠ embeddedKey) Number.ReadsBack := by
    refine (hfaithful.and hfits).imp (fun _ hkey => hkey.1) fun n hn => ?_
    cases n with
    | integer value => exact hn.2.readsBack
    | float x => exact hn.1 x rfl
  rw [readAgain?, toJson, eq_normal_of_invalid hfaithful hr,
    parse_compact hwithin.normal hnumbers.normal, Option.bind_some, ofJson?_normal hfaithful hr]

/-- By the last of its members a value has no known form just when **neither key** has a text. -/
theorem lastForm_eq_invalid_iff :
    lastForm item = invalid item.normal ↔
      lastText? expressionKey item = none ∧ lastText? savedRollKey item = none := by
  rw [lastForm]
  cases lastText? expressionKey item with
  | some expression => simp
  | none => cases lastText? savedRollKey item <;> simp

/-! ### All requests -/

/-- **An echo stands for its request.** Of every list that a text denotes, and for each request in
it: a request of a known form is read again from its echo. So is a refused request without embedded
texts and without floats that are not read back, just when neither key of a known form was last
given a text. -/
theorem echo_reads_back (hparse : Json.parse text = some (.array items)) (hitem : item ∈ items)
    (hr : ofJson? item = some r) :
    ((∀ v, r ≠ invalid v) → r.readAgain? = some r) ∧
      ∀ v, r = invalid v → Faithful item →
        (r.readAgain? = some r ↔
          lastText? expressionKey item = none ∧ lastText? savedRollKey item = none) := by
  refine ⟨readAgain?_of_known, ?_⟩
  rintro v rfl hfaithful
  rw [readAgain?_of_invalid hparse hitem hfaithful hr, Option.some_inj,
    eq_normal_of_invalid hfaithful hr, lastForm_eq_invalid_iff]

/-- A value of no known form, with other keys. -/
theorem echo_reads_back_nested :
    let item : Json := .object [("dice", .string "1d6"), ("bonus", .array [.ofInt (-2), .null])]
    Json.parse "[\x7b\"dice\": \"1d6\", \"bonus\": [-2, null]\x7d]" = some (.array [item]) ∧
      ofJson? item = some (invalid item.normal) ∧ Faithful item ∧
      (invalid item.normal).readAgain? = some (invalid item.normal) := by
  intro item
  have hparse : Json.parse "[\x7b\"dice\": \"1d6\", \"bonus\": [-2, null]\x7d]" =
      some (.array [item]) := rfl
  have hinvalid : ofJson? item = some (invalid item.normal) := rfl
  have hfaithful : Faithful item := by
    have hbonus : Faithful (.array [.ofInt (-2), .null]) :=
      .array (List.forall_mem_cons.mpr ⟨.number nofun, List.forall_mem_singleton.mpr .null⟩)
    exact .object (by decide)
      (List.forall_mem_cons.mpr ⟨.string, List.forall_mem_singleton.mpr hbonus⟩)
  exact ⟨hparse, hinvalid, hfaithful,
    ((echo_reads_back hparse List.mem_cons_self hinvalid).2 _ rfl hfaithful).mpr ⟨rfl, rfl⟩⟩

/-- **A repeated key** makes a value that is refused, and an echo that asks for a roll. -/
theorem repeated_key_reads_as_formula :
    ∃ item v, Json.parse "[\x7b\"expression\":\"1d6\",\"expression\":\"2d6\"\x7d]" =
        some (.array [item]) ∧
      ofJson? item = some (invalid v) ∧ (invalid v).readAgain? = some (adhoc "2d6") :=
  ⟨.object [("expression", .string "1d6"), ("expression", .string "2d6")],
    .object [("expression", .string "2d6")], rfl, rfl, rfl⟩

end Tabletop.RollRequest
