import Mathlib.Data.List.Forall2

/-!
# Lists Read Item by Item

A list that is gone through with a partial function gives a list **item by item**, if the function
gives something for each item, and nothing otherwise.

A list that grows at its end is a history. Something holds **since** an item if it held there and of
every item behind it, so that one more item either starts it anew or lets it go on.

## Main definitions

* `Since`: something held at an item, and something else of all that came later.

## Main results

* `mapM_eq_some_iff`, `mapM_eq_none_iff`: when there is a list, and which.
* `exists_of_mem_forall₂`: what stands in the place of an item.
* `map_eq_map_of_forall₂`: what two lists that correspond have in common.
* `since_concat_iff`: what one more item does to what holds since an earlier one.
-/

namespace Tabletop

variable {α β : Type} {f : α → Option β} {R : α → β → Prop} {as : List α} {bs : List β} {a : α}

/-- Going through a list succeeds with the results **of its members**, one by one. -/
theorem mapM_eq_some_iff : as.mapM f = some bs ↔ List.Forall₂ (fun a b => f a = some b) as bs := by
  induction as generalizing bs with
  | nil => simp [eq_comm]
  | cons a as ih =>
      rw [List.mapM_cons]
      constructor
      · intro h
        obtain ⟨b, hb, h⟩ := Option.bind_eq_some_iff.mp h
        obtain ⟨others, hothers, heq⟩ := Option.bind_eq_some_iff.mp h
        cases heq
        exact .cons hb (ih.mp hothers)
      · rintro (_ | ⟨hb, hothers⟩)
        rw [hb, ih.mpr hothers]
        rfl

/-- Going through a list fails just when it does **at a member**. -/
theorem mapM_eq_none_iff : as.mapM f = none ↔ ∃ a ∈ as, f a = none := by
  induction as with
  | nil => exact iff_of_false nofun nofun
  | cons a as ih =>
      rw [List.mapM_cons, List.exists_mem_cons_iff, ← ih]
      cases f a <;> cases as.mapM f <;> simp

/-- Where two lists correspond, **something stands in the place** of every item. -/
theorem exists_of_mem_forall₂ (h : List.Forall₂ R as bs) (ha : a ∈ as) : ∃ b ∈ bs, R a b := by
  induction h with
  | nil => cases ha
  | @cons first b _ bs hfirst _ ih =>
      rcases List.mem_cons.mp ha with rfl | ha
      · exact ⟨b, List.mem_cons_self, hfirst⟩
      · obtain ⟨other, hother, hrel⟩ := ih ha
        exact ⟨other, List.mem_cons_of_mem _ hother, hrel⟩

section Histories

variable {before after : List α} {last : α} {P : List α → α → Prop} {Q : α → Prop}

/-- An item of a list with one more item is **that one or an earlier one**. -/
theorem concat_eq_append_cons (h : as ++ [last] = before ++ a :: after) :
    (last = a ∧ after = [] ∧ as = before) ∨
      ∃ rest, as = before ++ a :: rest ∧ after = rest ++ [last] := by
  rcases List.eq_nil_or_concat' after with rfl | ⟨rest, later, rfl⟩
  · obtain ⟨hbefore, hlast⟩ := List.append_inj' h rfl
    exact .inl ⟨List.singleton_inj.mp hlast, rfl, hbefore⟩
  · rw [← List.cons_append, ← List.append_assoc] at h
    obtain ⟨hbefore, hlast⟩ := List.append_inj' h rfl
    exact .inr ⟨rest, hbefore, by rw [hlast]⟩

/-- The one condition held **at some item**, seen from what was before it, and the other one of
every item **since**. -/
def Since (P : List α → α → Prop) (Q : α → Prop) (as : List α) : Prop :=
  ∃ before a after, as = before ++ a :: after ∧ P before a ∧ ∀ later ∈ after, Q later

/-- In an empty list there is no item since which anything held. -/
theorem not_since_nil : ¬ Since P Q [] := by
  rintro ⟨before, a, after, heq, -⟩
  exact absurd heq.symm (by simp)

/-- One more item **starts it**, or it goes on if the item lets it. -/
theorem since_concat_iff : Since P Q (as ++ [last]) ↔ P as last ∨ Since P Q as ∧ Q last := by
  constructor
  · rintro ⟨before, a, after, heq, hstart, hlater⟩
    rcases concat_eq_append_cons heq with ⟨rfl, -, rfl⟩ | ⟨rest, rfl, rfl⟩
    · exact .inl hstart
    · rw [List.forall_mem_append, List.forall_mem_singleton] at hlater
      exact .inr ⟨⟨before, a, rest, rfl, hstart, hlater.1⟩, hlater.2⟩
  · rintro (hstart | ⟨⟨before, a, after, rfl, hstart, hlater⟩, hlast⟩)
    · exact ⟨as, last, [], rfl, hstart, nofun⟩
    · refine ⟨before, a, after ++ [last], by simp, hstart, ?_⟩
      rw [List.forall_mem_append, List.forall_mem_singleton]
      exact ⟨hlater, hlast⟩

end Histories

end Tabletop
