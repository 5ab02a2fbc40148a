import Tabletop.Proofs.Initiative.TurnOrder

/-!
# The Tracker as a Sorted List

A tracker numbers its entries and sorts them when it is asked for the turn order. Seen from
outside it is simply a **roster**: the list of the names and values in the order of their
turns, into which every newcomer is put at its place. This module proves that no sequence of
calls can tell the two apart, but for the numbers of the entries.

## The order of the entries

The tracker looks its entries up by their names, and nothing fixes the order in which such a
table gives them out. An `Arrangement` is one such order. A history gives every call an
arrangement of its own, which is applied before the call, so that the result holds for every
order at every moment.

## Main definitions

* `Turn`, `Roster`: the entries without their numbers, in the order of their turns.
* `Tracker.Call`, `Tracker.Answer`: the operations as data, and what they answer.
* `Tracker.call`, `Roster.call`: one call on a tracker, and on a roster.
* `Arrangement`, `Tracker.run`: histories of calls.

## Main results

* `Tracker.Represents.call`: one call on a tracker is the same call on its roster.
* `Tracker.run_refines_roster`: so is every history.
-/

namespace Tabletop

/-! ### Rosters -/

/-- An entry **without its number**. -/
structure Turn where
  /-- The name of the entity. -/
  name : String
  /-- The initiative value. -/
  value : Int
  deriving DecidableEq, Repr

/-- The turn of an entry. -/
def Entry.turn (entry : Entry) : Turn :=
  ⟨entry.name, entry.value⟩

/-- A **roster**: turns in their order. -/
abbrev Roster := List Turn

/-- The roster with a new turn, which stands directly after **the last one whose value is at
least its own**, and first if there is none. -/
def Roster.insert (turn : Turn) (roster : Roster) : Roster :=
  roster.rdropWhile (fun other => other.value < turn.value) ++
    turn :: roster.rtakeWhile (fun other => other.value < turn.value)

/-- The roster of a tracker. -/
def Tracker.roster (t : Tracker) : Roster :=
  t.turnOrder.map Entry.turn

/-! ### Calls -/

/-- A **call** on a tracker. -/
inductive Tracker.Call where
  | add (name : String) (value : Int)
  | get (name : String)
  | remove (name : String)
  | list
  | clear
  | size
  | isEmpty
  deriving DecidableEq, Repr

/-- What a call **answers**, where entries are told as members of `ε`. -/
inductive Tracker.Answer (ε : Type) where
  | entry (told : ε)
  | entries (told : List ε)
  | count (number : Nat)
  | truth (holds : Bool)
  | failed (error : InitiativeError)
  deriving DecidableEq, Repr

/-- The answer with its entries told in another way. -/
def Tracker.Answer.map {ε δ : Type} (f : ε → δ) : Answer ε → Answer δ
  | entry told => entry (f told)
  | entries told => entries (told.map f)
  | count number => count number
  | truth holds => truth holds
  | failed error => failed error

/-- One **call on a tracker**: its answer, and the tracker that it leaves. -/
def Tracker.call (t : Tracker) : Call → Answer Entry × Tracker
  | .add name value =>
    match t.add name value with
    | .ok (entry, t') => (.entry entry, t')
    | .error error => (.failed error, t)
  | .get name =>
    match t.get name with
    | .ok entry => (.entry entry, t)
    | .error error => (.failed error, t)
  | .remove name =>
    match t.remove name with
    | .ok (entry, t') => (.entry entry, t')
    | .error error => (.failed error, t)
  | .list => (.entries t.turnOrder, t)
  | .clear => (.count t.clear.1, t.clear.2)
  | .size => (.count t.size, t)
  | .isEmpty => (.truth t.isEmpty, t)

/-- The turn of a name. -/
def Roster.turnOf? (roster : Roster) (name : String) : Option Turn :=
  roster.find? fun turn => turn.name == name

/-- One **call on a roster**: its answer, and the roster that it leaves. -/
def Roster.call (roster : Roster) : Tracker.Call → Tracker.Answer Turn × Roster
  | .add name value =>
    if (Text.strip name).isEmpty then (.failed .emptyName, roster)
    else if (roster.turnOf? (Text.strip name)).isSome then
      (.failed (.duplicateName (Text.strip name)), roster)
    else (.entry ⟨Text.strip name, value⟩, roster.insert ⟨Text.strip name, value⟩)
  | .get name =>
    match roster.turnOf? (Text.strip name) with
    | some turn => (.entry turn, roster)
    | none => (.failed (.notFound (Text.strip name)), roster)
  | .remove name =>
    match roster.turnOf? (Text.strip name) with
    | some turn => (.entry turn, roster.eraseP fun other => other.name == Text.strip name)
    | none => (.failed (.notFound (Text.strip name)), roster)
  | .list => (.entries roster, roster)
  | .clear => (.count roster.length, [])
  | .size => (.count roster.length, roster)
  | .isEmpty => (.truth roster.isEmpty, roster)

/-- An order in which a table **gives out** its entries. -/
structure Arrangement where
  /-- The entries in that order. -/
  arrange : List Entry → List Entry
  /-- None is lost, and none is given out twice. -/
  perm (entries : List Entry) : (arrange entries).Perm entries

/-- The tracker with its entries in another order. -/
def Tracker.rearrange (t : Tracker) (a : Arrangement) : Tracker :=
  { t with entries := a.arrange t.entries }

/-- Makes calls **one after another**: what they answer, and the state that they leave. -/
def runCalls {σ κ α : Type} (call : σ → κ → α × σ) (state : σ) : List κ → List α × σ
  | [] => ([], state)
  | c :: calls =>
    let rest := runCalls call (call state c).2 calls
    ((call state c).1 :: rest.1, rest.2)

/-- A **history** of a tracker: before each call, its entries are put into some order. -/
def Tracker.run (t : Tracker) (history : List (Arrangement × Call)) :
    List (Answer Entry) × Tracker :=
  runCalls (fun t step => (t.rearrange step.1).call step.2) t history

/-- The same calls on a roster. -/
def Roster.run (roster : Roster) (calls : List Tracker.Call) :
    List (Tracker.Answer Turn) × Roster :=
  runCalls Roster.call roster calls

/-- **Simulation**: where related states give related answers and stay related under every
call, they do so along every sequence of calls. -/
theorem runCalls_related {σ τ κ ι α β : Type} {call : σ → κ → α × σ} {call' : τ → ι → β × τ}
    {R : σ → τ → Prop} {f : α → β} {g : κ → ι}
    (hstep : ∀ s s' c, R s s' →
      f (call s c).1 = (call' s' (g c)).1 ∧ R (call s c).2 (call' s' (g c)).2)
    (calls : List κ) {s : σ} {s' : τ} (hR : R s s') :
    (runCalls call s calls).1.map f = (runCalls call' s' (calls.map g)).1 ∧
      R (runCalls call s calls).2 (runCalls call' s' (calls.map g)).2 := by
  induction calls generalizing s s' with
  | nil => exact ⟨rfl, hR⟩
  | cons c calls ih =>
      obtain ⟨hanswer, hnext⟩ := hstep s s' c hR
      obtain ⟨hanswers, hlast⟩ := ih hnext
      refine ⟨?_, hlast⟩
      rw [List.map_cons, runCalls, runCalls, List.map_cons, hanswer, hanswers]

/-! ### Trackers and their rosters -/

section Mapping

variable {α β : Type} (f : α → β) (p : β → Bool) (as : List α)

/-- Dropping from the end goes **through a map**. -/
theorem rdropWhile_map : (as.map f).rdropWhile p = (as.rdropWhile (p ∘ f)).map f := by
  rw [List.rdropWhile, ← List.map_reverse, List.dropWhile_map, ← List.map_reverse]
  rfl

/-- So does taking from the end. -/
theorem rtakeWhile_map : (as.map f).rtakeWhile p = (as.rtakeWhile (p ∘ f)).map f := by
  rw [List.rtakeWhile, ← List.map_reverse, List.takeWhile_map, ← List.map_reverse]
  rfl

end Mapping

namespace Tracker

/-- The tracker is consistent, and this is **its roster**. -/
structure Represents (t : Tracker) (roster : Roster) : Prop where
  consistent : t.Consistent
  roster_eq : t.roster = roster

variable {t : Tracker} {roster : Roster}

/-- No entries make **an empty roster**. -/
theorem represents_empty : empty.Represents [] :=
  ⟨consistent_empty, by rw [Tracker.roster, turnOrder, empty, List.mergeSort_nil, List.map_nil]⟩

/-- The order in which a tracker keeps its entries does not show. -/
theorem Represents.rearrange (h : t.Represents roster) (a : Arrangement) :
    (t.rearrange a).Represents roster where
  consistent := h.consistent.of_perm (a.perm t.entries) rfl
  roster_eq := by
    rw [Tracker.roster, h.consistent.turnOrder_eq_of_perm (a.perm t.entries)]
    exact h.roster_eq

/-- A name is found in the roster as in the tracker. -/
theorem Represents.turnOf? (h : t.Represents roster) (name : String) :
    roster.turnOf? name = (t.find? name).map Entry.turn := by
  rw [← h.roster_eq, Roster.turnOf?, Tracker.roster, List.find?_map,
    ← h.consistent.find?_turnOrder]
  rfl

/-- The roster has as many turns as there are entries. -/
theorem Represents.length (h : t.Represents roster) : roster.length = t.size := by
  rw [← h.roster_eq, Tracker.roster, List.length_map, t.turnOrder_perm.length_eq, size]

/-- The roster is empty just when there are no entries. -/
theorem Represents.isEmpty (h : t.Represents roster) : roster.isEmpty = t.isEmpty := by
  rw [← h.roster_eq, Tracker.roster, List.isEmpty_map, t.turnOrder_perm.isEmpty_eq,
    Tracker.isEmpty]

/-- **Adding** is insertion. -/
theorem Represents.enrol (h : t.Represents roster) {name : String} (hfind : t.find? name = none)
    (value : Int) : (t.enrol name value).Represents (roster.insert ⟨name, value⟩) where
  consistent := h.consistent.enrol hfind value
  roster_eq := by
    rw [← h.roster_eq, Tracker.roster, h.consistent.turnOrder_enrol hfind, List.map_append,
      List.map_cons, Roster.insert, Tracker.roster, rdropWhile_map, rtakeWhile_map]
    rfl

/-- **Removing** erases one turn. -/
theorem Represents.dismiss (h : t.Represents roster) (name : String) :
    (t.dismiss name).Represents (roster.eraseP fun other => other.name == name) where
  consistent := h.consistent.dismiss name
  roster_eq := by
    rw [← h.roster_eq, Tracker.roster, h.consistent.turnOrder_dismiss, Tracker.roster,
      List.eraseP_map, ← eraseP_key_eq_filter h.consistent.turnOrder_names]
    rfl

/-- **One call** on a tracker is the same call on its roster. -/
theorem Represents.call (h : t.Represents roster) (c : Call) :
    (t.call c).1.map Entry.turn = (roster.call c).1 ∧
      (t.call c).2.Represents (roster.call c).2 := by
  cases c with
  | add name value =>
      by_cases hblank : (Text.strip name).isEmpty = true
      · rw [Tracker.call, Roster.call, add_blank hblank, if_pos hblank]
        exact ⟨rfl, h⟩
      · rw [Tracker.call, Roster.call, if_neg hblank, h.turnOf?]
        cases hfind : t.find? (Text.strip name) with
        | some entry =>
            rw [add_duplicate hblank hfind]
            exact ⟨rfl, h⟩
        | none =>
            rw [add_new hblank hfind]
            exact ⟨rfl, h.enrol hfind value⟩
  | get name =>
      rw [Tracker.call, Roster.call, h.turnOf?]
      cases hfind : t.find? (Text.strip name) with
      | some entry =>
          rw [get_known hfind]
          exact ⟨rfl, h⟩
      | none =>
          rw [get_unknown hfind]
          exact ⟨rfl, h⟩
  | remove name =>
      rw [Tracker.call, Roster.call, h.turnOf?]
      cases hfind : t.find? (Text.strip name) with
      | some entry =>
          rw [remove_known hfind]
          exact ⟨rfl, h.dismiss (Text.strip name)⟩
      | none =>
          rw [remove_unknown hfind]
          exact ⟨rfl, h⟩
  | list => exact ⟨congrArg Answer.entries h.roster_eq, h⟩
  | clear => exact ⟨congrArg Answer.count h.length.symm, represents_empty⟩
  | size => exact ⟨congrArg Answer.count h.length.symm, h⟩
  | isEmpty => exact ⟨congrArg Answer.truth h.isEmpty.symm, h⟩

/-- Along **every history**, a tracker stands for the roster that the same calls lead to. -/
theorem Represents.run (h : t.Represents roster) (history : List (Arrangement × Call)) :
    (t.run history).1.map (Answer.map Entry.turn) = (roster.run (history.map Prod.snd)).1 ∧
      (t.run history).2.Represents (roster.run (history.map Prod.snd)).2 :=
  runCalls_related (fun _ _ step hR => (hR.rearrange step.1).call step.2) history h

/-- **A tracker is a sorted list**: from the empty tracker on, whatever order its entries are
kept in at each call, every call is answered, but for the numbers of the entries, as it is on
the roster, and the turn order afterwards is the roster. -/
theorem run_refines_roster (history : List (Arrangement × Call)) :
    (empty.run history).1.map (Answer.map Entry.turn) =
        (Roster.run [] (history.map Prod.snd)).1 ∧
      (empty.run history).2.roster = (Roster.run [] (history.map Prod.snd)).2 := by
  obtain ⟨hanswers, hlast⟩ := represents_empty.run history
  exact ⟨hanswers, hlast.roster_eq⟩

/-- An entity that is removed and added again acts after its equals. -/
example : (Roster.run [] [.add "A" 10, .add "B" 12, .add "C" 10, .remove "A", .add " A " 10]).2 =
    [⟨"B", 12⟩, ⟨"C", 10⟩, ⟨"A", 10⟩] := by
  decide +kernel

end Tracker

end Tabletop
