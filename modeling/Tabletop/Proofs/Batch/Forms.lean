import Tabletop.Batch
import Tabletop.Proofs.Json.Embedded
import Tabletop.Proofs.Lists.Traversal

/-!
# The Forms of Requests

A list of requests is read item by item, and each item has **one form**. A string is a formula. An
object with the key of a formula, once and with a string, is this formula; without that, an object
with the key of a name, once and with a string, is this name. Anything else is a request of no known
form, and the others are read all the same.

This is so unless an item of no known form is **broken**: it embeds a text that denotes nothing.
Then there is nothing to keep of the item, and the whole list is refused.

## Main definitions

* `RollRequest.Sole`: a key that occurs exactly once, with its value.
* `RollRequest.Formless`: values of no known form.
* `RollRequest.HasForm`: the request that a value stands for.

## Main results

* `RollRequest.ofJson?_eq_some_iff`, `RollRequest.ofJson?_eq_none_iff`: how an item is read.
* `RollRequest.forms_of_list`: how a list is read.
* `RollRequest.broken_item_refuses_list`: a list that is refused for one of its items.
-/

open Tabletop.Json

namespace Tabletop.RollRequest

variable {members others shuffled : List (String × Json)} {key s : String} {item value : Json}
variable {items : List Json} {r : RollRequest} {requests : List RollRequest} {text : String}

/-! ### Keys that occur once -/

/-- Among the members the key occurs **exactly once**, and has the value. -/
def Sole (key : String) (value : Json) (members : List (String × Json)) : Prop :=
  (members.countP fun m => m.1 == key) = 1 ∧ (key, value) ∈ members

/-- The value of a key is found just when **one member alone** has this key. -/
theorem soleMember?_eq_some_iff :
    soleMember? key members = some value ↔ Sole key value members := by
  have hmem : (key, value) ∈ members ↔ (key, value) ∈ members.filter fun m => m.1 == key := by
    simp
  rw [Sole, List.countP_eq_length_filter, List.length_eq_one_iff, hmem, soleMember?]
  constructor
  · intro h
    split at h
    · rename_i m hfilter
      cases h
      have hkey : m.1 = key := by
        have hm : m ∈ members.filter fun m => m.1 == key := hfilter ▸ List.mem_singleton_self m
        simpa using (List.mem_filter.mp hm).2
      exact ⟨⟨m, hfilter⟩, by rw [hfilter, ← hkey]; exact List.mem_singleton_self m⟩
    · cases h
  · rintro ⟨⟨m, hfilter⟩, hvalue⟩
    rw [hfilter, List.mem_singleton] at hvalue
    rw [hfilter, ← hvalue]

/-- The text of a key is found just when one member alone has this key, and **a string** for its
value. -/
theorem soleText?_eq_some_iff : soleText? key members = some s ↔ Sole key (.string s) members := by
  rw [← soleMember?_eq_some_iff, soleText?, Option.bind_eq_some_iff]
  constructor
  · rintro ⟨value, hvalue, htext⟩
    cases value with
    | string value =>
        cases htext
        exact hvalue
    | _ => cases htext
  · exact fun h => ⟨_, h, rfl⟩

/-- No text is found under a key that is missing, is repeated, or has **another value** than a
string. -/
theorem soleText?_eq_none_iff :
    soleText? key members = none ↔ ∀ s, ¬ Sole key (.string s) members := by
  rw [Option.eq_none_iff_forall_ne_some]
  exact forall_congr' fun s => not_congr soleText?_eq_some_iff

/-- The order of the members **does not matter**, nor do members with other keys. -/
theorem sole_iff_of_perm (hothers : ∀ m ∈ others, m.1 ≠ key)
    (h : List.Perm shuffled (members ++ others)) :
    Sole key value shuffled ↔ Sole key value members := by
  have hcount : (others.countP fun m => m.1 == key) = 0 :=
    List.countP_eq_zero.mpr fun m hm => by simpa using hothers m hm
  have hmem : (key, value) ∉ others := fun hm => hothers _ hm rfl
  rw [Sole, Sole, h.countP_eq, List.countP_append, hcount, h.mem_iff, List.mem_append,
    or_iff_left hmem, Nat.add_zero]

/-! ### Forms -/

/-- The value has **no known form**: it is no string, and in an object neither key of a known form
occurs exactly once and has a string. -/
def Formless (item : Json) : Prop :=
  (∀ s, item ≠ .string s) ∧ ∀ members, item = .object members → ∀ s,
    ¬ Sole expressionKey (.string s) members ∧ ¬ Sole savedRollKey (.string s) members

/-- **The request** that a value stands for. -/
inductive HasForm : Json → RollRequest → Prop
  | text {s : String} : HasForm (.string s) (adhoc s)
  | expression {members : List (String × Json)} {s : String} :
      Sole expressionKey (.string s) members → HasForm (.object members) (adhoc s)
  | savedRoll {members : List (String × Json)} {s : String} :
      (∀ other, ¬ Sole expressionKey (.string other) members) →
      Sole savedRollKey (.string s) members → HasForm (.object members) (named s)
  | unknown {item expanded : Json} :
      Formless item → item.expand? = some expanded → HasForm item (invalid expanded.normal)

/-- A value of no known form is kept **if it can be expanded**, in the plain form of what that
gives. -/
theorem ofUnknown?_eq_some_iff :
    ofUnknown? item = some r ↔ ∃ expanded, item.expand? = some expanded ∧
      r = invalid expanded.normal := by
  rw [ofUnknown?, Option.map_eq_some_iff]
  exact exists_congr fun expanded => and_congr_right fun _ => eq_comm

/-- A value of no known form is read as **what is kept of it**. -/
theorem Formless.ofJson? (h : Formless item) : RollRequest.ofJson? item = ofUnknown? item := by
  unfold RollRequest.ofJson?
  split
  · exact absurd rfl (h.1 _)
  · rename_i members
    have hsole := h.2 members rfl
    rw [soleText?_eq_none_iff.mpr fun s => (hsole s).1, soleText?_eq_none_iff.mpr
      fun s => (hsole s).2]
  · rfl

/-- A value has a known form **or none**. -/
theorem formless_or_known (item : Json) :
    Formless item ∨ ∃ r, HasForm item r ∧ ∀ v, r ≠ invalid v := by
  cases item with
  | string s => exact .inr ⟨_, .text, nofun⟩
  | object members =>
      by_cases hexpression : ∃ s, Sole expressionKey (.string s) members
      · obtain ⟨s, hs⟩ := hexpression
        exact .inr ⟨_, .expression hs, nofun⟩
      · rw [not_exists] at hexpression
        by_cases hsaved : ∃ s, Sole savedRollKey (.string s) members
        · obtain ⟨s, hs⟩ := hsaved
          exact .inr ⟨_, .savedRoll hexpression hs, nofun⟩
        · rw [not_exists] at hsaved
          refine .inl ⟨nofun, fun _ heq s => ?_⟩
          cases heq
          exact ⟨hexpression s, hsaved s⟩
  | null => exact .inl ⟨nofun, nofun⟩
  | bool => exact .inl ⟨nofun, nofun⟩
  | number => exact .inl ⟨nofun, nofun⟩
  | array => exact .inl ⟨nofun, nofun⟩

/-- A value that has a form is **read as the request** of that form. -/
theorem HasForm.ofJson? (h : HasForm item r) : RollRequest.ofJson? item = some r := by
  cases h with
  | text => rfl
  | expression hs => simp only [RollRequest.ofJson?, soleText?_eq_some_iff.mpr hs]
  | savedRoll hno hs =>
      simp only [RollRequest.ofJson?, soleText?_eq_none_iff.mpr hno, soleText?_eq_some_iff.mpr hs]
  | unknown hformless hexpand =>
      rw [hformless.ofJson?]
      exact ofUnknown?_eq_some_iff.mpr ⟨_, hexpand, rfl⟩

/-- An item is read as the request **that it stands for**. -/
theorem ofJson?_eq_some_iff : ofJson? item = some r ↔ HasForm item r := by
  -- Each value has a form, and what it is read as is the request of that form.
  refine ⟨fun h => ?_, HasForm.ofJson?⟩
  rcases formless_or_known item with hformless | ⟨known, hknown, -⟩
  · rw [hformless.ofJson?] at h
    obtain ⟨expanded, hexpand, rfl⟩ := ofUnknown?_eq_some_iff.mp h
    exact .unknown hformless hexpand
  · rw [hknown.ofJson?] at h
    cases h
    exact hknown

/-- An item stands for no request just when it has **no known form and is broken**. -/
theorem ofJson?_eq_none_iff : ofJson? item = none ↔ Formless item ∧ Broken item := by
  rcases formless_or_known item with hformless | ⟨known, hknown, hne⟩
  · rw [hformless.ofJson?, ofUnknown?, Option.map_eq_none_iff, expand?_eq_none_iff]
    exact (and_iff_right hformless).symm
  · rw [hknown.ofJson?]
    refine iff_of_false nofun fun ⟨hformless, hbroken⟩ => ?_
    have hunknown := hformless.ofJson?
    rw [hknown.ofJson?, ofUnknown?, expand?_eq_none_iff.mpr hbroken] at hunknown
    cases hunknown

/-- A known form does not depend on **the order** of the members, nor on members with other
keys. -/
theorem hasForm_iff_of_perm
    (hothers : ∀ m ∈ others, m.1 ≠ expressionKey ∧ m.1 ≠ savedRollKey)
    (h : List.Perm shuffled (members ++ others)) (hknown : ∀ v, r ≠ invalid v) :
    HasForm (.object shuffled) r ↔ HasForm (.object members) r := by
  have hexpression : ∀ value,
      Sole expressionKey value shuffled ↔ Sole expressionKey value members :=
    fun _ => sole_iff_of_perm (fun m hm => (hothers m hm).1) h
  have hsaved : ∀ value, Sole savedRollKey value shuffled ↔ Sole savedRollKey value members :=
    fun _ => sole_iff_of_perm (fun m hm => (hothers m hm).2) h
  constructor
  · rintro (_ | hs | ⟨hno, hs⟩ | _)
    · exact .expression ((hexpression _).mp hs)
    · exact .savedRoll (fun other hother => hno other ((hexpression _).mpr hother))
        ((hsaved _).mp hs)
    · exact absurd rfl (hknown _)
  · rintro (_ | hs | ⟨hno, hs⟩ | _)
    · exact .expression ((hexpression _).mpr hs)
    · exact .savedRoll (fun other hother => hno other ((hexpression _).mp hother))
        ((hsaved _).mpr hs)
    · exact absurd rfl (hknown _)

/-! ### Lists of requests -/

/-- **Every item of a list has its form.** Of a text that denotes a list the requests are those
that its items stand for, one for each item and in their order, and each item stands for one at
most. The list is refused just when an item of no known form is broken, so never without the key of
embedded texts. A known form does not depend on the order of an object's members, nor on members
with other keys. -/
theorem forms_of_list (hparse : Json.parse text = some (.array items)) :
    (∀ requests, parseList? text = some requests ↔ List.Forall₂ HasForm items requests) ∧
    (∀ item r other, HasForm item r → HasForm item other → r = other) ∧
    (parseList? text = none ↔ ∃ item ∈ items, Formless item ∧ Broken item) ∧
    ((∀ item ∈ items, item.All (· ≠ embeddedKey) fun _ => True) →
      ∃ requests, parseList? text = some requests) ∧
    ∀ members others shuffled r,
      (∀ m ∈ others, m.1 ≠ expressionKey ∧ m.1 ≠ savedRollKey) →
      List.Perm shuffled (members ++ others) → (∀ v, r ≠ invalid v) →
      (HasForm (.object shuffled) r ↔ HasForm (.object members) r) := by
  have hlist : parseList? text = items.mapM ofJson? := by rw [parseList?, hparse]
  have hnone : parseList? text = none ↔ ∃ item ∈ items, Formless item ∧ Broken item := by
    rw [hlist, mapM_eq_none_iff]
    exact exists_congr fun item => and_congr_right fun _ => ofJson?_eq_none_iff
  refine ⟨fun requests => ?_, fun item r other h h' => ?_, hnone, fun hplain => ?_,
    fun _ _ _ _ => hasForm_iff_of_perm⟩
  · rw [hlist, mapM_eq_some_iff]
    simp only [ofJson?_eq_some_iff]
  · exact Option.some.inj (h.ofJson?.symm.trans h'.ofJson?)
  · rw [← Option.isSome_iff_exists, Option.isSome_iff_ne_none, Ne, hnone]
    rintro ⟨item, hitem, -, hbroken⟩
    exact (hplain item hitem).not_broken hbroken

/-- A string, an object with a name and a key of a formula that holds no string, and a number. -/
theorem forms_of_list_mixed :
    ∃ items, Json.parse "[\"1d4\",\x7b\"saved_roll\":\"a\",\"expression\":5\x7d,5]" =
        some (.array items) ∧
      List.Forall₂ HasForm items [adhoc "1d4", named "a", invalid (.ofInt 5)] := by
  have hparse : Json.parse "[\"1d4\",\x7b\"saved_roll\":\"a\",\"expression\":5\x7d,5]" =
      some (.array [.string "1d4", .object [("saved_roll", .string "a"), ("expression", .ofInt 5)],
        .ofInt 5]) := rfl
  have hlist : parseList? "[\"1d4\",\x7b\"saved_roll\":\"a\",\"expression\":5\x7d,5]" =
      some [adhoc "1d4", named "a", invalid (.ofInt 5)] := by
    simp only [parseList?, hparse]
    rfl
  exact ⟨_, hparse, ((forms_of_list hparse).1 _).mp hlist⟩

/-- **A broken item** makes the whole list be refused, although the text denotes a list. -/
theorem broken_item_refuses_list :
    ∃ item, Json.parse "[\x7b\"$serde_json::private::RawValue\":5\x7d]" =
        some (.array [item]) ∧
      parseList? "[\x7b\"$serde_json::private::RawValue\":5\x7d]" = none := by
  have hparse : Json.parse "[\x7b\"$serde_json::private::RawValue\":5\x7d]" =
      some (.array [.object [(embeddedKey, .ofInt 5)]]) := rfl
  refine ⟨_, hparse, ?_⟩
  simp only [parseList?, hparse]
  rfl

end Tabletop.RollRequest
