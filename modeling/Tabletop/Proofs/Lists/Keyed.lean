import Mathlib.Data.List.Nodup
import Tabletop.Lists.Keyed

/-!
# Lists with Keys

Entries have names, saved rolls have names, and members of objects have keys. Where **no two members
of a list have the same key**, looking for a key finds the one member that has it, in whatever order
they stand.

Where the keys are texts and ascend, setting a member keeps them so. What is found under each key
afterwards needs nothing of the order: whatever is passed over on the way has another key.

## Main results

* `find?_key_eq_some_iff`: looking for a key that no two members share.
* `pairwise_setKey`, `find?_setKey`: the keys still ascend, and what is found under them.
-/

namespace Tabletop

/-! ### Lists whose members differ in a key -/

section Keys

variable {α β : Type} {key : α → β} {as : List α}

/-- A member with a new key goes with members that differ in it. -/
theorem nodup_map_append_singleton (h : (as.map key).Nodup) {a : α}
    (ha : ∀ other ∈ as, key other ≠ key a) : ((as ++ [a]).map key).Nodup := by
  have hperm := (List.perm_append_singleton a as).map key
  exact hperm.nodup_iff.mpr (List.nodup_cons.mpr ⟨by simpa using ha, h⟩)

variable [DecidableEq β]

/-- Looking for a key finds **the** member that has it. -/
theorem find?_key_eq_some_iff (h : (as.map key).Nodup) {a : α} {b : β} :
    as.find? (fun other => key other == b) = some a ↔ a ∈ as ∧ key a = b := by
  induction as with
  | nil => simp
  | cons head as ih =>
      obtain ⟨hnot, hnodup⟩ := List.nodup_cons.mp h
      by_cases hkey : key head = b
      · rw [List.find?_cons_of_pos (by simpa using hkey), Option.some_inj, List.mem_cons]
        constructor
        · rintro rfl
          exact ⟨.inl rfl, hkey⟩
        · rintro ⟨rfl | htail, heq⟩
          · rfl
          · exact absurd (List.mem_map.mpr ⟨a, htail, heq.trans hkey.symm⟩) hnot
      · rw [List.find?_cons_of_neg (by simpa using hkey), ih hnodup, List.mem_cons]
        have hne : key a = b → a ≠ head := fun heq hhead => hkey (hhead ▸ heq)
        tauto

/-- What a key finds does not depend on the order of the members. -/
theorem find?_key_eq_of_perm {bs : List α} (hperm : as.Perm bs) (h : (bs.map key).Nodup)
    (b : β) :
    as.find? (fun other => key other == b) = bs.find? (fun other => key other == b) := by
  have h' : (as.map key).Nodup := (hperm.map key).nodup_iff.mpr h
  refine Option.ext fun a => ?_
  rw [find?_key_eq_some_iff h', find?_key_eq_some_iff h, hperm.mem_iff]

/-- Erasing the first member with a key leaves the members with another one. -/
theorem eraseP_key_eq_filter (h : (as.map key).Nodup) (b : β) :
    as.eraseP (fun other => key other == b) = as.filter (fun other => key other != b) := by
  induction as with
  | nil => rfl
  | cons a as ih =>
      obtain ⟨hnot, hnodup⟩ := List.nodup_cons.mp h
      by_cases hkey : key a = b
      · have hall : ∀ other ∈ as, (key other != b) = true := by
          intro other hmem
          have hne : key other ≠ b := fun heq =>
            hnot (List.mem_map.mpr ⟨other, hmem, heq.trans hkey.symm⟩)
          simpa using hne
        simp [hkey, List.filter_eq_self.mpr hall]
      · simp [hkey, ih hnodup]

/-- The members with a key are **the one** that is found, if there is one. -/
theorem filter_key_eq_toList_find? (h : (as.map key).Nodup) (b : β) :
    as.filter (fun other => key other == b) = (as.find? fun other => key other == b).toList := by
  induction as with
  | nil => rfl
  | cons a as ih =>
      obtain ⟨hnot, hnodup⟩ := List.nodup_cons.mp h
      by_cases hkey : key a = b
      · have hnone : as.filter (fun other => key other == b) = [] := by
          refine List.filter_eq_nil_iff.mpr fun other hmem => ?_
          have hne : key other ≠ b := fun heq =>
            hnot (List.mem_map.mpr ⟨other, hmem, heq.trans hkey.symm⟩)
          simpa using hne
        rw [List.filter_cons_of_pos (by simp [hkey]), hnone,
          List.find?_cons_of_pos (by simp [hkey])]
        rfl
      · rw [List.filter_cons_of_neg (by simpa using hkey), ih hnodup,
          List.find?_cons_of_neg (by simpa using hkey)]

end Keys

/-! ### Lists whose keys ascend -/

section Ascending

variable {α : Type} {key : α → String} {as : List α} {a b : α}

/-- Setting a member adds **no other**. -/
theorem mem_of_mem_setKey (h : b ∈ setKey key a as) : b = a ∨ b ∈ as := by
  induction as with
  | nil => exact .inl (List.mem_singleton.mp h)
  | cons first as ih =>
      rw [setKey] at h
      split at h
      · exact List.mem_cons.mp h
      · split at h
        · exact (List.mem_cons.mp h).imp_right (List.mem_cons_of_mem first)
        · rcases List.mem_cons.mp h with rfl | h
          · exact .inr List.mem_cons_self
          · exact (ih h).imp_right (List.mem_cons_of_mem first)

/-- Setting a member keeps the keys **in ascending order**. -/
theorem pairwise_setKey (h : as.Pairwise fun b c => key b < key c) :
    (setKey key a as).Pairwise fun b c => key b < key c := by
  induction as with
  | nil => exact List.pairwise_singleton _ _
  | cons first as ih =>
      obtain ⟨hfirst, hothers⟩ := List.pairwise_cons.mp h
      rw [setKey]
      split
      · rename_i hlt
        refine List.pairwise_cons.mpr ⟨fun b hb => ?_, h⟩
        rcases List.mem_cons.mp hb with rfl | hb
        · exact hlt
        · exact String.lt_trans hlt (hfirst b hb)
      · split
        · rename_i heq
          refine List.pairwise_cons.mpr ⟨fun b hb => ?_, hothers⟩
          rw [heq]
          exact hfirst b hb
        · rename_i hnot hne
          refine List.pairwise_cons.mpr ⟨fun b hb => ?_, ih hothers⟩
          rcases mem_of_mem_setKey hb with rfl | hb
          · by_contra hge
            exact hne (String.le_antisymm (String.not_lt.mp hge) (String.not_lt.mp hnot))
          · exact hfirst b hb

/-- Under the key of a member that was set **it** is found, and under any other what was found
before. -/
theorem find?_setKey (a : α) (as : List α) (k : String) :
    (setKey key a as).find? (fun b => key b == k) =
      if k = key a then some a else as.find? fun b => key b == k := by
  have hhead : ∀ others : List α, (a :: others).find? (fun b => key b == k) =
      if k = key a then some a else others.find? fun b => key b == k := by
    intro others
    by_cases hkey : k = key a
    · rw [if_pos hkey, List.find?_cons_of_pos (by simp [hkey])]
    · rw [if_neg hkey, List.find?_cons_of_neg (by simpa using Ne.symm hkey)]
  induction as with
  | nil => exact hhead []
  | cons first as ih =>
      rw [setKey]
      split
      · exact hhead (first :: as)
      · split
        · rename_i heq
          rw [hhead]
          by_cases hkey : k = key a
          · rw [if_pos hkey, if_pos hkey]
          · rw [if_neg hkey, if_neg hkey,
              List.find?_cons_of_neg (by simpa [← heq] using Ne.symm hkey)]
        · rename_i hne
          by_cases hfirst : key first = k
          · have hkey : k ≠ key a := fun h => hne (h.symm.trans hfirst.symm)
            rw [if_neg hkey, List.find?_cons_of_pos (by simp [hfirst]),
              List.find?_cons_of_pos (by simp [hfirst])]
          · rw [List.find?_cons_of_neg (by simpa using hfirst), ih,
              List.find?_cons_of_neg (by simpa using hfirst)]

/-- A key behind all others is set **at the end**. -/
theorem setKey_of_lt (h : ∀ b ∈ as, key b < key a) : setKey key a as = as ++ [a] := by
  induction as with
  | nil => rfl
  | cons first as ih =>
      obtain ⟨hfirst, hothers⟩ := List.forall_mem_cons.mp h
      have hnot : ¬ key a < key first := String.lt_asymm hfirst
      have hne : key a ≠ key first := fun heq => String.lt_irrefl _ (heq ▸ hfirst)
      rw [setKey, if_neg hnot, if_neg hne, ih hothers, List.cons_append]

/-- Keys that ascend **come once** each. -/
theorem nodup_of_pairwise_lt (h : as.Pairwise fun b c => key b < key c) : (as.map key).Nodup := by
  refine List.pairwise_map.mpr (h.imp fun {b c} hlt heq => ?_)
  rw [heq] at hlt
  exact String.lt_irrefl _ hlt

end Ascending

end Tabletop
