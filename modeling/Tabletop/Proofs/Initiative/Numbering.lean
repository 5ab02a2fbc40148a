import Tabletop.Proofs.Formula.Surroundings
import Tabletop.Proofs.Initiative.Commuting
import Tabletop.Proofs.Lists.Traversal

/-!
# The Numbers of the Entries

The tracker gives every entity that is added a number, and numbers decide between equal values. This
module proves that the numbers **record the order of the additions**: they count the successful ones
since the turn order was last cleared. Nothing else uses a number up, and nothing gives an entity
another one.

What a call can do at all is said once, by `Tracker.Effect`. Two facts about histories follow from
it by induction: the counter is the number of newcomers in the transcript, and the entries are those
that were added and have been spared since.

The counter is a natural number here. It is the length of a list of answered calls, so it fits into
64 bits as long as fewer than `2 ^ 64` entities are added between two clearings.

## Main definitions

* `Tracker.Effect`: what a call answers, and the tracker that it leaves.
* `Tracker.transcript`, `Tracker.newcomers`: the calls with their answers, and the entries that were
  added since the turn order was last cleared.
* `Tracker.Numbered`: what the entries and the counter have to do with a transcript.
* `Entry.ActsBefore`: the strict order of the turns.

## Main results

* `Tracker.effect_call`: every call has one of four effects.
* `Tracker.numbered_run`: the counter after every history.
* `Tracker.mem_run_iff`: the entries after every history.
* `Tracker.numbers_record_additions`: both, with the turn order that they determine.
-/

namespace Tabletop

/-! ### One more call -/

section Calls

variable {σ κ α : Type} {call : σ → κ → α × σ}

/-- Calls are **answered once** each. -/
theorem length_runCalls (state : σ) (calls : List κ) :
    (runCalls call state calls).1.length = calls.length := by
  induction calls generalizing state with
  | nil => rfl
  | cons c calls ih => rw [runCalls, List.length_cons, ih, List.length_cons]

/-- The last of several calls is made **in the state** that the others leave. -/
theorem runCalls_concat (state : σ) (calls : List κ) (c : κ) :
    runCalls call state (calls ++ [c]) =
      ((runCalls call state calls).1 ++ [(call (runCalls call state calls).2 c).1],
        (call (runCalls call state calls).2 c).2) := by
  induction calls generalizing state with
  | nil => rfl
  | cons first calls ih => rw [List.cons_append, runCalls, ih, runCalls, List.cons_append]

end Calls

/-- An entry acts **before** another: its value is higher, or the values are equal and its number is
lower. -/
def Entry.ActsBefore (a b : Entry) : Prop :=
  b.value < a.value ∨ a.value = b.value ∧ a.sequence < b.sequence

namespace Tracker

variable {t : Tracker} {c : Call} {entry : Entry} {told : List (Call × Answer Entry)}

/-! ### What a call can do -/

/-- The entry that a call **added**, by its answer. -/
def Call.newcomer? : Call → Answer Entry → Option Entry
  | .add _ _, .entry entry => some entry
  | _, _ => none

/-- What a call can do: what it **answers**, and the tracker that it **leaves**. -/
inductive Effect (t : Tracker) : Call → Answer Entry × Tracker → Prop where
  /-- An entity is added under a name that nobody has. -/
  | enrolled {name : String} {value : Int} (hblank : ¬(Text.strip name).isEmpty = true)
      (hfind : t.find? (Text.strip name) = none) :
      Effect t (.add name value)
        (.entry (t.newcomer (Text.strip name) value), t.enrol (Text.strip name) value)
  /-- An entity is removed. -/
  | dismissed {name : String} {entry : Entry} (hfind : t.find? (Text.strip name) = some entry) :
      Effect t (.remove name) (.entry entry, t.dismiss (Text.strip name))
  /-- The turn order is cleared. -/
  | cleared : Effect t .clear (.count t.size, empty)
  /-- Everything is kept: the call only looks, or it fails. -/
  | kept {c : Call} {answer : Answer Entry} (hclear : c ≠ .clear)
      (hadd : c.newcomer? answer = none)
      (hremove : ∀ name, c = .remove name → t.find? (Text.strip name) = none) :
      Effect t c (answer, t)

/-- **Every call** has one of these effects. -/
theorem effect_call (t : Tracker) (c : Call) : t.Effect c (t.call c) := by
  cases c with
  | add name value =>
      rw [call]
      by_cases hblank : (Text.strip name).isEmpty = true
      · rw [add_blank hblank]
        exact .kept (by simp) rfl (by simp)
      · cases hfind : t.find? (Text.strip name) with
        | some entry =>
            rw [add_duplicate hblank hfind]
            exact .kept (by simp) rfl (by simp)
        | none =>
            rw [add_new hblank hfind]
            exact .enrolled hblank hfind
  | remove name =>
      rw [call]
      cases hfind : t.find? (Text.strip name) with
      | some entry =>
          rw [remove_known hfind]
          exact .dismissed hfind
      | none =>
          rw [remove_unknown hfind]
          exact .kept (by simp) rfl (by simpa using hfind)
  | get name =>
      rw [call]
      cases t.get name <;> exact .kept (by simp) rfl (by simp)
  | clear => exact .cleared
  | list | size | isEmpty => exact .kept (by simp) rfl (by simp)

/-- An entity that was added has **the next number**. -/
theorem eq_newcomer_of_call {name : String} {value : Int}
    (h : (t.call (.add name value)).1 = .entry entry) :
    entry = t.newcomer (Text.strip name) value := by
  have heffect := t.effect_call (.add name value)
  revert h heffect
  generalize t.call (.add name value) = result
  rintro h (⟨-, -⟩ | - | _ | ⟨-, hadd, -⟩)
  case enrolled => exact (Answer.entry.inj h).symm
  case kept answer =>
    obtain rfl : answer = .entry entry := h
    cases hadd

/-! ### Transcripts -/

/-- The calls of a history with **their answers**. -/
def transcript (history : List (Arrangement × Call)) : List (Call × Answer Entry) :=
  (history.map Prod.snd).zip (empty.run history).1

/-- The entries that were **added** since the turn order was last cleared, the first one first. -/
def newcomers (told : List (Call × Answer Entry)) : List Entry :=
  (told.rtakeWhile fun step => step.1 ≠ .clear).filterMap fun step => step.1.newcomer? step.2

/-- When the turn order is cleared, **the count starts anew**. -/
theorem newcomers_concat_clear (told : List (Call × Answer Entry)) (answer : Answer Entry) :
    newcomers (told ++ [(.clear, answer)]) = [] := by
  rw [newcomers, List.rtakeWhile_concat_neg _ _ _ (by simp), List.filterMap_nil]

/-- Any other call counts if it **adds** an entity. -/
theorem newcomers_concat (hclear : c ≠ .clear) (told : List (Call × Answer Entry))
    (answer : Answer Entry) :
    newcomers (told ++ [(c, answer)]) = newcomers told ++ (c.newcomer? answer).toList := by
  rw [newcomers, List.rtakeWhile_concat_pos _ _ _ (by simpa using hclear), List.filterMap_append,
    newcomers]
  cases hnew : c.newcomer? answer <;> simp [hnew]

/-- Nothing is counted for a call that adds **nobody**. -/
theorem newcomers_concat_of_none {answer : Answer Entry} (hclear : c ≠ .clear)
    (hadd : c.newcomer? answer = none) (told : List (Call × Answer Entry)) :
    newcomers (told ++ [(c, answer)]) = newcomers told := by
  rw [newcomers_concat hclear, hadd]
  exact List.append_nil _

/-- The last call of a history is made of the tracker that **the others have left**. -/
theorem run_concat (history : List (Arrangement × Call)) (step : Arrangement × Call) :
    empty.run (history ++ [step]) =
      ((empty.run history).1 ++ [(((empty.run history).2.rearrange step.1).call step.2).1],
        (((empty.run history).2.rearrange step.1).call step.2).2) :=
  runCalls_concat empty history step

/-- One more call is told **behind the others**. -/
theorem transcript_concat (history : List (Arrangement × Call)) (step : Arrangement × Call) :
    transcript (history ++ [step]) = transcript history ++
      [(step.2, (((empty.run history).2.rearrange step.1).call step.2).1)] := by
  have hlength : (history.map Prod.snd).length = (empty.run history).1.length := by
    rw [List.length_map, run, length_runCalls]
  rw [transcript, run_concat, List.map_append, List.zip_append hlength]
  rfl

/-! ### What every call keeps -/

/-- A tracker is **numbered** by a transcript: it is consistent, the names are those under which
entities can be found, and the next number is how many were added since the last clearing. -/
structure Numbered (t : Tracker) (told : List (Call × Answer Entry)) : Prop where
  consistent : t.Consistent
  names : ∀ entry ∈ t.entries, Text.strip entry.name = entry.name ∧ entry.name ≠ ""
  next : t.nextSequence = (newcomers told).length

/-- No entity has a number yet. -/
theorem numbered_empty : empty.Numbered [] where
  consistent := consistent_empty
  names := nofun
  next := rfl

/-- The order in which a tracker keeps its entries does not show in their numbers. -/
theorem Numbered.rearrange (h : t.Numbered told) (a : Arrangement) :
    (t.rearrange a).Numbered told where
  consistent := h.consistent.of_perm (a.perm t.entries) rfl
  names := fun entry hmem => h.names entry ((a.perm t.entries).mem_iff.mp hmem)
  next := h.next

/-- **One more call** leaves a tracker that is numbered by the longer transcript. -/
theorem Numbered.call (h : t.Numbered told) (c : Call) :
    (t.call c).2.Numbered (told ++ [(c, (t.call c).1)]) := by
  have heffect := t.effect_call c
  revert heffect
  generalize t.call c = result
  rintro (⟨hblank, hfind⟩ | hfind | _ | ⟨hclear, hadd, -⟩)
  case enrolled name value =>
    refine ⟨h.consistent.enrol hfind value, fun entry hmem => ?_, ?_⟩
    · rcases List.mem_append.mp hmem with hold | hnew
      · exact h.names entry hold
      · rw [List.mem_singleton.mp hnew]
        refine ⟨strip_strip name, fun hempty => hblank ?_⟩
        rw [show Text.strip name = "" from hempty]
        rfl
    · have hclear : Call.add name value ≠ .clear := by simp
      rw [newcomers_concat hclear, List.length_append, ← h.next]
      rfl
  case dismissed name entry =>
    refine ⟨h.consistent.dismiss _, fun other hmem => h.names other (List.mem_filter.mp hmem).1, ?_⟩
    have hclear : Call.remove name ≠ .clear := by simp
    rw [newcomers_concat_of_none hclear rfl]
    exact h.next
  case cleared =>
    refine ⟨consistent_empty, nofun, ?_⟩
    rw [newcomers_concat_clear]
    rfl
  case kept answer =>
    refine ⟨h.consistent, h.names, ?_⟩
    rw [newcomers_concat_of_none hclear hadd]
    exact h.next

/-- **After every history** the tracker is numbered by its transcript. -/
theorem numbered_run (history : List (Arrangement × Call)) :
    (empty.run history).2.Numbered (transcript history) := by
  induction history using List.reverseRecOn with
  | nil => exact numbered_empty
  | append_singleton history step ih =>
      rw [run_concat, transcript_concat]
      exact (ih.rearrange step.1).call step.2

/-! ### The entries of a history -/

/-- An entry is there after a call if the call **added it**, or if it was there and the call spares
it. -/
theorem mem_call_iff (t : Tracker) (c : Call) (entry : Entry) :
    entry ∈ (t.call c).2.entries ↔
      c.newcomer? (t.call c).1 = some entry ∨ entry ∈ t.entries ∧ c.Spares entry.name := by
  have heffect := t.effect_call c
  revert heffect
  generalize t.call c = result
  rintro (⟨-, -⟩ | - | _ | ⟨hclear, hadd, hremove⟩)
  case enrolled name value =>
    rw [enrol, List.mem_append, List.mem_singleton, or_comm, Call.newcomer?, Option.some_inj,
      eq_comm]
    exact or_congr_right (and_iff_left trivial).symm
  case dismissed name found =>
    rw [dismiss, List.mem_filter, bne_iff_ne, ne_comm]
    exact (or_iff_right (by simp [Call.newcomer?])).symm
  case cleared => simp [empty, Call.newcomer?, Call.Spares]
  case kept answer =>
    rw [hadd, or_iff_right (by simp), iff_self_and]
    intro hmem
    cases c with
    | clear => exact hclear rfl
    | remove name =>
        -- A removal that fails has found nobody of its name, so it spares whoever is there.
        have hnone := hremove name rfl
        rw [find?, List.find?_eq_none] at hnone
        exact fun heq => hnone entry hmem (by simp [heq])
    | add | get | list | size | isEmpty => trivial

/-- In a history, a call **added** an entry. -/
def Added (entry : Entry) (before : List (Arrangement × Call)) (step : Arrangement × Call) : Prop :=
  step.2.newcomer? (((empty.run before).2.rearrange step.1).call step.2).1 = some entry

/-- The entries after a history are those that **were added and have been spared since**. -/
theorem mem_run_iff (history : List (Arrangement × Call)) (entry : Entry) :
    entry ∈ (empty.run history).2.entries ↔
      Since (Added entry) (fun later => later.2.Spares entry.name) history := by
  induction history using List.reverseRecOn with
  | nil => exact iff_of_false nofun not_since_nil
  | append_singleton history step ih =>
      have hrearrange : entry ∈ ((empty.run history).2.rearrange step.1).entries ↔
          entry ∈ (empty.run history).2.entries := (step.1.perm _).mem_iff
      rw [run_concat, mem_call_iff, hrearrange, ih, since_concat_iff, Added]

/-! ### The turn order -/

/-- Entries with **different numbers** that act by one another act before one another. -/
theorem actsBefore_iff {a b : Entry} (h : a.sequence ≠ b.sequence) :
    a.ActsBefore b ↔ a.actsBy b = true := by
  rw [Entry.actsBy_iff, Entry.ActsBefore]
  omega

/-- In the turn order every entry **acts before** those behind it. -/
theorem Consistent.turnOrder_actsBefore (h : t.Consistent) :
    t.turnOrder.Pairwise Entry.ActsBefore := by
  have hnumbers : (t.turnOrder.map Entry.sequence).Nodup :=
    (t.turnOrder_perm.map Entry.sequence).nodup_iff.mpr h.sequences
  exact (t.turnOrder_sorted.and (List.pairwise_map.mp hnumbers)).imp fun ⟨hacts, hne⟩ =>
    (actsBefore_iff hne).mpr hacts

/-- There is **no other** list of the entries in which each acts before those behind it. -/
theorem Consistent.eq_turnOrder (h : t.Consistent) {order : List Entry}
    (hperm : order.Perm t.entries) (hsorted : order.Pairwise Entry.ActsBefore) :
    order = t.turnOrder := by
  refine (h.turnOrder_eq hperm (hsorted.imp fun {a b} hacts => ?_)).symm
  rw [Entry.ActsBefore] at hacts
  rw [Entry.actsBy_iff]
  omega

/-- Whatever order a tracker keeps its entries in, it is asked for **the same list** of them. -/
theorem Consistent.exists_order (h : t.Consistent) (a : Arrangement) :
    ∃ order, ((t.rearrange a).call .list).1 = .entries order ∧ order.Perm t.entries ∧
      order.Pairwise Entry.ActsBefore ∧
      ∀ other : List Entry, other.Perm t.entries → other.Pairwise Entry.ActsBefore →
        other = order := by
  have hlist : ((t.rearrange a).call .list).1 = .entries t.turnOrder :=
    congrArg Answer.entries (h.turnOrder_eq_of_perm (a.perm t.entries))
  exact ⟨t.turnOrder, hlist, t.turnOrder_perm, h.turnOrder_actsBefore,
    fun other hperm hsorted => h.eq_turnOrder hperm hsorted⟩

/-- **Numbers record the order of the additions.** After every history of calls, whatever order the
entries are kept in at each of them:

* the next number is how many entities were added since the turn order was last cleared, and an
  entity that is added now gets this number, under its name without surrounding blanks;
* the entries have trimmed names that are not empty, each is found under its own name, and their
  numbers differ and are all below the next one;
* an entry is there exactly if it was added as it is and has neither been removed nor cleared away
  since;
* the turn order lists the entries, each before those that it acts before, and no other list
  does. -/
theorem numbers_record_additions (history : List (Arrangement × Call)) :
    (empty.run history).2.nextSequence = (newcomers (transcript history)).length ∧
      (∀ a name value entry,
        (((empty.run history).2.rearrange a).call (.add name value)).1 = .entry entry →
          entry = ⟨Text.strip name, value, (newcomers (transcript history)).length⟩) ∧
      (∀ entry ∈ (empty.run history).2.entries,
        Text.strip entry.name = entry.name ∧ entry.name ≠ "" ∧
          (empty.run history).2.find? entry.name = some entry ∧
          entry.sequence < (empty.run history).2.nextSequence) ∧
      ((empty.run history).2.entries.map Entry.sequence).Nodup ∧
      (∀ entry, entry ∈ (empty.run history).2.entries ↔
        Since (Added entry) (fun later => later.2.Spares entry.name) history) ∧
      (∀ a, ∃ order, (((empty.run history).2.rearrange a).call .list).1 = .entries order ∧
        order.Perm (empty.run history).2.entries ∧ order.Pairwise Entry.ActsBefore ∧
        ∀ other : List Entry, other.Perm (empty.run history).2.entries →
          other.Pairwise Entry.ActsBefore → other = order) := by
  have hnumbered := numbered_run history
  refine ⟨hnumbered.next, fun a name value entry hadd => ?_, fun entry hmem => ?_,
    hnumbered.consistent.sequences, mem_run_iff history, fun a => ?_⟩
  · rw [eq_newcomer_of_call hadd, newcomer, (hnumbered.rearrange a).next]
  · obtain ⟨htrimmed, hne⟩ := hnumbered.names entry hmem
    exact ⟨htrimmed, hne, (find?_key_eq_some_iff hnumbered.consistent.names).mpr ⟨hmem, rfl⟩,
      hnumbered.consistent.below entry hmem⟩
  · exact hnumbered.consistent.exists_order a

/-- Refused additions and removals use up no number, and one who comes back gets a new one. -/
example : newcomers (transcript ([.add "A" 10, .clear, .add "B" 3, .add " B " 7, .remove "C",
    .remove "B", .add "B" 7].map fun c => (⟨id, fun _ => .refl _⟩, c))) =
    [⟨"B", 3, 0⟩, ⟨"B", 7, 1⟩] := by
  decide +kernel

end Tracker

end Tabletop
