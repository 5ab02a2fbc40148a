import Mathlib.Data.List.DropRight
import Tabletop.Initiative
import Tabletop.Proofs.Lists.Keyed

/-!
# The Turn Order of a Tracker

The turn order is a sorted list, worked out anew whenever it is asked for. It depends on
**which** entries the tracker has and not on the order in which it keeps them, since no two
of them have the same number: `Tracker.Consistent` is the invariant that says so, and
`Tracker.Consistent.turnOrder_eq` is what follows from it. How an operation changes the turn
order is then shown by giving a sorted list of the entries that it leaves.

## Main definitions

* `Tracker.Consistent`: names and numbers are unique, and numbers are used up in order.
* `Tracker.newcomer`, `Tracker.enrol`, `Tracker.dismiss`: the entry that is added under a
  name, and the trackers with it and without it.

## Main results

* `Tracker.Consistent.turnOrder_eq`: the turn order is the only sorted list of the entries.
* `Tracker.Consistent.turnOrder_enrol`: a newcomer stands after the last entry whose value is
  at least its own.
* `Tracker.Consistent.turnOrder_dismiss`: the others keep their order.
-/

namespace Tabletop

/-- Where the members that satisfy a condition are the **last** ones, none of them is left
when they are dropped from the end. -/
theorem not_of_mem_rdropWhile {α : Type} {R : α → α → Prop} {p : α → Bool}
    (hp : ∀ a b, R a b → p a = true → p b = true) {as : List α} (hR : as.Pairwise R) {a : α}
    (ha : a ∈ as.rdropWhile p) : ¬p a = true := by
  induction as using List.reverseRecOn with
  | nil => simp at ha
  | append_singleton as last ih =>
      obtain ⟨hinit, -, hlast⟩ := List.pairwise_append.mp hR
      rw [List.rdropWhile_concat] at ha
      by_cases hend : p last = true
      · rw [if_pos hend] at ha
        exact ih hinit ha
      · rw [if_neg hend, List.mem_append, List.mem_singleton] at ha
        rcases ha with hmem | rfl
        · exact fun hpa => hend (hp a last (hlast a hmem last (by simp)) hpa)
        · exact hend

/-! ### The order of entries -/

namespace Entry

variable {a b c : Entry}

/-- An entry acts no later than another if its value is **higher**, or equal and its number no
higher. -/
theorem actsBy_iff :
    a.actsBy b = true ↔ b.value < a.value ∨ a.value = b.value ∧ a.sequence ≤ b.sequence := by
  simp [actsBy]

/-- Acting no later is **transitive**. -/
theorem actsBy_trans (a b c : Entry) (hab : a.actsBy b = true) (hbc : b.actsBy c = true) :
    a.actsBy c = true := by
  rw [actsBy_iff] at hab hbc ⊢
  omega

/-- Of two entries **one** acts no later than the other. -/
theorem actsBy_total (a b : Entry) : (a.actsBy b || b.actsBy a) = true := by
  rw [Bool.or_eq_true, actsBy_iff, actsBy_iff]
  omega

/-- Entries that act by **each other** have the same number. -/
theorem sequence_eq_of_actsBy (hab : a.actsBy b = true) (hba : b.actsBy a = true) :
    a.sequence = b.sequence := by
  rw [actsBy_iff] at hab hba
  omega

/-- Values **descend** along the turn order. -/
theorem value_le_of_actsBy (hab : a.actsBy b = true) : b.value ≤ a.value := by
  rw [actsBy_iff] at hab
  omega

end Entry

/-! ### Consistent trackers -/

namespace Tracker

/-- A tracker is **consistent** when its entries differ in their names and in their numbers,
and all of them were numbered before the next one. -/
structure Consistent (t : Tracker) : Prop where
  /-- No two entries have the same name. -/
  names : (t.entries.map Entry.name).Nodup
  /-- No two entries have the same number. -/
  sequences : (t.entries.map Entry.sequence).Nodup
  /-- Every number was given out. -/
  below : ∀ entry ∈ t.entries, entry.sequence < t.nextSequence

/-- The turn order has **the same entries** as the tracker. -/
theorem turnOrder_perm (t : Tracker) : t.turnOrder.Perm t.entries :=
  List.mergeSort_perm t.entries Entry.actsBy

/-- The turn order is **sorted**. -/
theorem turnOrder_sorted (t : Tracker) :
    t.turnOrder.Pairwise fun a b => a.actsBy b = true :=
  List.pairwise_mergeSort Entry.actsBy_trans Entry.actsBy_total t.entries

/-- A tracker without entities is consistent. -/
theorem consistent_empty : empty.Consistent :=
  ⟨List.nodup_nil, List.nodup_nil, by simp [empty]⟩

namespace Consistent

variable {t u : Tracker}

/-- It does not matter in which order a tracker keeps its entries. -/
theorem of_perm (h : t.Consistent) (hperm : u.entries.Perm t.entries)
    (hnext : u.nextSequence = t.nextSequence) : u.Consistent where
  names := (hperm.map Entry.name).nodup_iff.mpr h.names
  sequences := (hperm.map Entry.sequence).nodup_iff.mpr h.sequences
  below := fun entry hmem => hnext ▸ h.below entry (hperm.mem_iff.mp hmem)

/-- The turn order lists the names once each. -/
theorem turnOrder_names (h : t.Consistent) : (t.turnOrder.map Entry.name).Nodup :=
  (t.turnOrder_perm.map Entry.name).nodup_iff.mpr h.names

/-- An entry is found in the turn order as in the tracker. -/
theorem find?_turnOrder (h : t.Consistent) (name : String) :
    t.turnOrder.find? (fun entry => entry.name == name) = t.find? name :=
  find?_key_eq_of_perm t.turnOrder_perm h.names name

/-- The turn order is **the only** sorted list of the entries. Two of them that act by each
other have the same number, so they are one. -/
theorem turnOrder_eq (h : t.Consistent) {order : List Entry} (hperm : order.Perm t.entries)
    (hsorted : order.Pairwise fun a b => a.actsBy b = true) : t.turnOrder = order := by
  refine List.Perm.eq_of_pairwise ?_ t.turnOrder_sorted hsorted
    (t.turnOrder_perm.trans hperm.symm)
  intro a b ha hb hab hba
  exact List.inj_on_of_nodup_map h.sequences (t.turnOrder_perm.mem_iff.mp ha)
    (hperm.mem_iff.mp hb) (Entry.sequence_eq_of_actsBy hab hba)

/-- The turn order does not depend on the order in which a tracker keeps its entries. -/
theorem turnOrder_eq_of_perm (h : t.Consistent) (hperm : u.entries.Perm t.entries) :
    u.turnOrder = t.turnOrder :=
  (h.turnOrder_eq (u.turnOrder_perm.trans hperm) u.turnOrder_sorted).symm

end Consistent

/-! ### Adding an entity -/

/-- The entry that is added for a name. -/
def newcomer (t : Tracker) (name : String) (value : Int) : Entry :=
  ⟨name, value, t.nextSequence⟩

/-- The tracker with an entry added for a name. -/
def enrol (t : Tracker) (name : String) (value : Int) : Tracker :=
  ⟨t.entries ++ [t.newcomer name value], t.nextSequence + 1⟩

section Adding

variable {t : Tracker} {name : String} {value : Int}

/-- Nothing is added under **a blank name**. -/
theorem add_blank (hblank : (Text.strip name).isEmpty = true) :
    t.add name value = .error .emptyName := by
  rw [add, if_pos hblank]

/-- Nothing is added under a name that is **there already**. -/
theorem add_duplicate (hblank : ¬(Text.strip name).isEmpty = true) {entry : Entry}
    (hfind : t.find? (Text.strip name) = some entry) :
    t.add name value = .error (.duplicateName (Text.strip name)) := by
  rw [add, if_neg hblank, hfind]

/-- Under any other name **the newcomer** is enrolled. -/
theorem add_new (hblank : ¬(Text.strip name).isEmpty = true)
    (hfind : t.find? (Text.strip name) = none) :
    t.add name value =
      .ok (t.newcomer (Text.strip name) value, t.enrol (Text.strip name) value) := by
  rw [add, if_neg hblank, hfind]
  rfl

/-- An entity that was added has a **name of its own**, and the next number. -/
theorem add_eq_ok {t' : Tracker} {entry : Entry} (h : t.add name value = .ok (entry, t')) :
    t.find? (Text.strip name) = none ∧ entry = t.newcomer (Text.strip name) value ∧
      t' = t.enrol (Text.strip name) value := by
  by_cases hblank : (Text.strip name).isEmpty = true
  · rw [add_blank hblank] at h
    cases h
  · cases hfind : t.find? (Text.strip name) with
    | some other =>
        rw [add_duplicate hblank hfind] at h
        cases h
    | none =>
        rw [add_new hblank hfind] at h
        cases h
        exact ⟨rfl, rfl, rfl⟩

/-- **Adding keeps the tracker consistent**: the name is new, and so is the number. -/
theorem Consistent.enrol (h : t.Consistent) (hfind : t.find? name = none) (value : Int) :
    (t.enrol name value).Consistent := by
  have hnew : ∀ entry ∈ t.entries, entry.name ≠ name := by
    simpa [find?] using hfind
  refine ⟨nodup_map_append_singleton h.names hnew, nodup_map_append_singleton h.sequences
    fun entry hmem => Nat.ne_of_lt (h.below entry hmem), ?_⟩
  intro entry hmem
  rw [Tracker.enrol, List.mem_append, List.mem_singleton] at hmem
  rcases hmem with hold | rfl
  · exact Nat.lt_succ_of_lt (h.below entry hold)
  · exact Nat.lt_succ_self t.nextSequence

/-- Up to the last entry whose value is at least a given one, all values are. -/
theorem value_le_of_mem_rdropWhile {entry : Entry}
    (hmem : entry ∈ t.turnOrder.rdropWhile fun other => other.value < value) :
    value ≤ entry.value := by
  have hnot := not_of_mem_rdropWhile (fun a b hab ha => ?_) t.turnOrder_sorted hmem
  · simpa using hnot
  · have hle := Entry.value_le_of_actsBy hab
    simp only [decide_eq_true_eq] at ha ⊢
    omega

/-- **A newcomer acts after** the last entry whose value is at least its own: every entry
there was added earlier, and those after it have lower values. -/
theorem Consistent.turnOrder_enrol (h : t.Consistent) (hfind : t.find? name = none)
    (value : Int) :
    (t.enrol name value).turnOrder =
      t.turnOrder.rdropWhile (fun entry => entry.value < value) ++
        t.newcomer name value :: t.turnOrder.rtakeWhile (fun entry => entry.value < value) := by
  have hsplit : t.turnOrder.rdropWhile (fun entry => entry.value < value) ++
      t.turnOrder.rtakeWhile (fun entry => entry.value < value) = t.turnOrder :=
    List.rdropWhile_append_rtakeWhile
  have hsorted := t.turnOrder_sorted
  rw [← hsplit, List.pairwise_append] at hsorted
  obtain ⟨hfront, hback, hcross⟩ := hsorted
  refine (h.enrol hfind value).turnOrder_eq ?_ ?_
  · refine List.perm_middle.trans ?_
    rw [hsplit]
    exact (t.turnOrder_perm.cons _).trans (List.perm_append_singleton _ _).symm
  · refine List.pairwise_append.mpr ⟨hfront, List.pairwise_cons.mpr ⟨?_, hback⟩, ?_⟩
    · intro entry hmem
      have hlower : entry.value < value := by simpa using List.mem_rtakeWhile_imp hmem
      exact Entry.actsBy_iff.mpr (.inl hlower)
    · intro entry hmem other hother
      rcases List.mem_cons.mp hother with rfl | hlater
      · have hvalue := value_le_of_mem_rdropWhile hmem
        have hmem' : entry ∈ t.entries :=
          t.turnOrder_perm.mem_iff.mp ((List.rdropWhile_prefix _ _).subset hmem)
        have hnumber := h.below entry hmem'
        simp only [Entry.actsBy_iff, newcomer]
        omega
      · exact hcross entry hmem other hlater

end Adding

/-! ### Finding and removing an entity -/

/-- The tracker without the entry of a name. -/
def dismiss (t : Tracker) (name : String) : Tracker :=
  { t with entries := t.entries.filter fun entry => entry.name != name }

section Removing

variable {t : Tracker} {name : String} {entry : Entry}

/-- The entry of a name that is there is shown. -/
theorem get_known (hfind : t.find? (Text.strip name) = some entry) :
    t.get name = .ok entry := by
  rw [get, hfind]

/-- There is nothing to be shown under any other name. -/
theorem get_unknown (hfind : t.find? (Text.strip name) = none) :
    t.get name = .error (.notFound (Text.strip name)) := by
  rw [get, hfind]

/-- The entry of a name that is there is **removed**, and told. -/
theorem remove_known (hfind : t.find? (Text.strip name) = some entry) :
    t.remove name = .ok (entry, t.dismiss (Text.strip name)) := by
  rw [remove, hfind]
  rfl

/-- There is nothing to be removed under any other name. -/
theorem remove_unknown (hfind : t.find? (Text.strip name) = none) :
    t.remove name = .error (.notFound (Text.strip name)) := by
  rw [remove, hfind]

/-- An entity that was removed **was there**. -/
theorem remove_eq_ok {t' : Tracker} (h : t.remove name = .ok (entry, t')) :
    t.find? (Text.strip name) = some entry ∧ t' = t.dismiss (Text.strip name) := by
  cases hfind : t.find? (Text.strip name) with
  | some other =>
      rw [remove_known hfind] at h
      cases h
      exact ⟨rfl, rfl⟩
  | none =>
      rw [remove_unknown hfind] at h
      cases h

/-- Removing a name takes away **the one entry** that has it. -/
theorem Consistent.perm_dismiss (h : t.Consistent) (hfind : t.find? name = some entry) :
    t.entries.Perm (entry :: (t.dismiss name).entries) := by
  obtain ⟨hmem, hname⟩ := (find?_key_eq_some_iff h.names).mp hfind
  obtain ⟨other, front, back, -, hother, hentries, herase⟩ :=
    List.exists_of_eraseP (p := fun other => other.name == name) hmem (by simpa using hname)
  have hsame : other = entry := by
    have hfind' : t.find? name = some other :=
      (find?_key_eq_some_iff h.names).mpr ⟨by rw [hentries]; simp, by simpa using hother⟩
    exact Option.some.inj (hfind'.symm.trans hfind)
  rw [dismiss, ← eraseP_key_eq_filter h.names, herase, hentries, hsame]
  exact List.perm_middle

/-- Removing keeps the tracker consistent. -/
theorem Consistent.dismiss (h : t.Consistent) (name : String) : (t.dismiss name).Consistent where
  names := h.names.sublist (List.filter_sublist.map Entry.name)
  sequences := h.sequences.sublist (List.filter_sublist.map Entry.sequence)
  below := fun entry hmem => h.below entry (List.mem_filter.mp hmem).1

/-- **The others keep their order.** -/
theorem Consistent.turnOrder_dismiss (h : t.Consistent) (name : String) :
    (t.dismiss name).turnOrder = t.turnOrder.filter fun entry => entry.name != name :=
  (h.dismiss name).turnOrder_eq (t.turnOrder_perm.filter _) (t.turnOrder_sorted.filter _)

end Removing

end Tracker

end Tabletop
