import Tabletop.Proofs.Initiative.Lookup
import Tabletop.Proofs.Initiative.Roster

/-!
# Calls in Another Order

Two calls about **different entities** can be made in either order, and no later call can tell
which order it was. The trackers themselves do differ: entities that are added in another order
have other numbers, and numbers decide between equal values later on. What does not differ is the
roster, since only the order of two newcomers of **one value** shows in it.

Of such newcomers the first stands in front of the second, and calls that remove neither leave them
so.

## Main definitions

* `Tracker.Call.Independent`: calls about different entities, other than two newcomers of one value.
* `Tracker.Call.Spares`: calls that neither remove an entity nor clear the turn order.
* `Tracker.Change`: what a call about an entity changes.

## Main results

* `Tracker.exists_change`: what a call about an entity does depends on the entry of this entity.
* `Tracker.Represents.call_comm`: independent calls on a roster commute.
* `Roster.sublist_run_of_spares`: turns that are spared keep their order.
* `Tracker.independent_calls_commute`: both, for whole histories.
-/

namespace Tabletop

/-! ### Insertion into a roster -/

namespace Roster

variable {roster : Roster} {turn other last : Turn}

/-- A turn of a higher value than the last goes **somewhere before it**. -/
theorem insert_concat_of_lt (h : last.value < turn.value) :
    insert turn (roster ++ [last]) = insert turn roster ++ [last] := by
  rw [insert, List.rdropWhile_concat_pos _ _ _ (by simpa using h),
    List.rtakeWhile_concat_pos _ _ _ (by simpa using h), insert, List.append_assoc,
    List.cons_append]

/-- A turn of no higher value than the last goes **behind it**. -/
theorem insert_concat_of_le (h : turn.value ≤ last.value) :
    insert turn (roster ++ [last]) = roster ++ [last] ++ [turn] := by
  rw [insert, List.rdropWhile_concat_neg _ _ _ (by simpa using h),
    List.rtakeWhile_concat_neg _ _ _ (by simpa using h)]

/-- Turns of different values are put in their places **in either order**. -/
theorem insert_comm_of_lt (roster : Roster) (h : turn.value < other.value) :
    insert other (insert turn roster) = insert turn (insert other roster) := by
  induction roster using List.reverseRecOn with
  | nil =>
      change insert other ([] ++ [turn]) = insert turn ([] ++ [other])
      rw [insert_concat_of_lt h, insert_concat_of_le (Int.le_of_lt h)]
      rfl
  | append_singleton roster last ih =>
      rcases Int.lt_or_le last.value turn.value with hlow | hturn
      · rw [insert_concat_of_lt hlow, insert_concat_of_lt (Int.lt_trans hlow h), ih,
          insert_concat_of_lt (Int.lt_trans hlow h), insert_concat_of_lt hlow]
      · rw [insert_concat_of_le hturn, insert_concat_of_lt h]
        rcases Int.lt_or_le last.value other.value with hmid | hhigh
        · rw [insert_concat_of_lt hmid, insert_concat_of_le hturn]
        · rw [insert_concat_of_le hhigh, insert_concat_of_le (Int.le_of_lt h)]

/-- Turns with **different values** may be inserted in either order. -/
theorem insert_comm (roster : Roster) (h : turn.value ≠ other.value) :
    insert other (insert turn roster) = insert turn (insert other roster) := by
  rcases Int.lt_or_gt_of_ne h with hlt | hgt
  · exact insert_comm_of_lt roster hlt
  · exact (insert_comm_of_lt roster hgt).symm

/-- The others keep their order when a turn is put in its place. -/
theorem sublist_insert (turn : Turn) (roster : Roster) : roster.Sublist (insert turn roster) := by
  have hsplit : roster.rdropWhile (fun other => other.value < turn.value) ++
      roster.rtakeWhile (fun other => other.value < turn.value) = roster :=
    List.rdropWhile_append_rtakeWhile
  conv_lhs => rw [← hsplit]
  exact (List.Sublist.refl _).append (List.sublist_cons_self turn _)

/-- A turn that was inserted is **there**. -/
theorem mem_insert (turn : Turn) (roster : Roster) : turn ∈ insert turn roster := by
  rw [insert]
  exact List.mem_append_right _ List.mem_cons_self

/-- A newcomer goes **behind its equals**. -/
theorem sublist_insert_of_le (hmem : other ∈ roster) (h : turn.value ≤ other.value) :
    [other, turn].Sublist (insert turn roster) := by
  have hfront : other ∈ roster.rdropWhile (fun other => other.value < turn.value) := by
    have hsplit : roster.rdropWhile (fun other => other.value < turn.value) ++
        roster.rtakeWhile (fun other => other.value < turn.value) = roster :=
      List.rdropWhile_append_rtakeWhile
    rw [← hsplit] at hmem
    refine (List.mem_append.mp hmem).resolve_right fun hback => ?_
    have hlower : other.value < turn.value := by simpa using List.mem_rtakeWhile_imp hback
    omega
  exact (List.singleton_sublist.mpr hfront).append
    (List.singleton_sublist.mpr List.mem_cons_self)

/-- The first of several calls is made first. -/
theorem run_cons (roster : Roster) (c : Tracker.Call) (calls : List Tracker.Call) :
    roster.run (c :: calls) = ((roster.call c).1 :: ((roster.call c).2.run calls).1,
      ((roster.call c).2.run calls).2) :=
  rfl

end Roster

/-! ### Calls about one entity -/

namespace Tracker

namespace Call

/-- The name of the entity that a call **is about**. -/
def target? : Call → Option String
  | add name _ => some (Text.strip name)
  | get name => some (Text.strip name)
  | remove name => some (Text.strip name)
  | _ => none

/-- The initiative value that a call adds an entity with. -/
def added? : Call → Option Int
  | add _ value => some value
  | _ => none

/-- Two calls are **independent** when they are about different entities, and are not both to add
one with the same value. -/
structure Independent (a b : Call) : Prop where
  /-- Each call is about an entity of its own. -/
  targets : ∃ m n, a.target? = some m ∧ b.target? = some n ∧ m ≠ n
  /-- They do not add entities of one value. -/
  values : ∀ value, a.added? = some value → b.added? ≠ some value

/-- A call **spares** an entity if it neither removes it nor clears the turn order. -/
def Spares (c : Call) (name : String) : Prop :=
  match c with
  | remove other => Text.strip other ≠ name
  | clear => False
  | _ => True

end Call

/-- What a call **changes** for the entity that it is about. -/
inductive Change where
  /-- Nothing: it only looks, or it fails. -/
  | nothing
  /-- The entity is added with a value. -/
  | added (value : Int)
  /-- The entity is removed. -/
  | removed
  deriving DecidableEq

/-- The tracker with a change made for the entity of a name. -/
def change (t : Tracker) (name : String) : Change → Tracker
  | .nothing => t
  | .added value => t.enrol name value
  | .removed => t.dismiss name

/-- A change **fits** a tracker if nobody is added a second time. -/
def Change.Fits (c : Change) (t : Tracker) (name : String) : Prop :=
  ∀ value, c = .added value → t.find? name = none

variable {t : Tracker} {m n name other : String} {c d : Change}

/-- What a call about an entity **does depends on the entry** that this entity has: every tracker
that has the same entry for it gets the same answer, and the same change is made to it. -/
theorem exists_change {call : Call} (htarget : call.target? = some name) (t : Tracker) :
    ∃ (told : Answer Turn) (c : Change), c.Fits t name ∧
      (∀ value, c = .added value → call.added? = some value) ∧
      ∀ u : Tracker, u.find? name = t.find? name →
        (u.call call).1.map Entry.turn = told ∧ (u.call call).2 = u.change name c := by
  cases call with
  | add given value =>
      cases htarget
      by_cases hblank : (Text.strip given).isEmpty = true
      · refine ⟨.failed .emptyName, .nothing, by simp [Change.Fits], by simp, fun u _ => ?_⟩
        rw [Tracker.call, add_blank hblank]
        exact ⟨rfl, rfl⟩
      · cases hfind : t.find? (Text.strip given) with
        | some entry =>
            refine ⟨.failed (.duplicateName (Text.strip given)), .nothing, by simp [Change.Fits],
              by simp, fun u hu => ?_⟩
            rw [Tracker.call, add_duplicate hblank hu]
            exact ⟨rfl, rfl⟩
        | none =>
            refine ⟨.entry ⟨Text.strip given, value⟩, .added value, fun _ _ => hfind, ?_,
              fun u hu => ?_⟩
            · rintro _ ⟨⟩
              rfl
            · rw [Tracker.call, add_new hblank hu]
              exact ⟨rfl, rfl⟩
  | get given =>
      cases htarget
      cases hfind : t.find? (Text.strip given) with
      | some entry =>
          refine ⟨.entry entry.turn, .nothing, by simp [Change.Fits], by simp, fun u hu => ?_⟩
          rw [Tracker.call, get_known hu]
          exact ⟨rfl, rfl⟩
      | none =>
          refine ⟨.failed (.notFound (Text.strip given)), .nothing, by simp [Change.Fits], by simp,
            fun u hu => ?_⟩
          rw [Tracker.call, get_unknown hu]
          exact ⟨rfl, rfl⟩
  | remove given =>
      cases htarget
      cases hfind : t.find? (Text.strip given) with
      | some entry =>
          refine ⟨.entry entry.turn, .removed, by simp [Change.Fits], by simp, fun u hu => ?_⟩
          rw [Tracker.call, remove_known hu]
          exact ⟨rfl, rfl⟩
      | none =>
          refine ⟨.failed (.notFound (Text.strip given)), .nothing, by simp [Change.Fits], by simp,
            fun u hu => ?_⟩
          rw [Tracker.call, remove_unknown hu]
          exact ⟨rfl, rfl⟩
  | list => cases htarget
  | clear => cases htarget
  | size => cases htarget
  | isEmpty => cases htarget

/-! ### Changes commute -/

/-- A change for one entity is **not seen** under another name. -/
theorem find?_change (h : other ≠ name) (t : Tracker) (c : Change) :
    (t.change name c).find? other = t.find? other := by
  cases c with
  | nothing => rfl
  | added value => exact find?_enrol_of_ne h
  | removed => exact (find?_dismiss t name other).trans (if_neg h)

/-- It makes no difference whether an entity is added or **another one** removed first. -/
theorem dismiss_enrol (h : m ≠ n) (t : Tracker) (value : Int) :
    (t.enrol m value).dismiss n = (t.dismiss n).enrol m value := by
  have hkept : [t.newcomer m value].filter (fun entry => entry.name != n) =
      [t.newcomer m value] :=
    List.filter_cons_of_pos (by simpa [newcomer] using h)
  simp only [dismiss, enrol, List.filter_append, hkept]
  rfl

/-- Entities can be removed in either order. -/
theorem dismiss_comm (t : Tracker) (m n : String) :
    (t.dismiss m).dismiss n = (t.dismiss n).dismiss m := by
  simp only [dismiss, List.filter_filter, Bool.and_comm]

/-- Newcomers of different values can be added **in either order**: their numbers differ, and the
roster does not. -/
theorem Consistent.roster_enrol_comm (h : t.Consistent) (hne : m ≠ n) (hm : t.find? m = none)
    (hn : t.find? n = none) {v w : Int} (hvalues : v ≠ w) :
    ((t.enrol m v).enrol n w).roster = ((t.enrol n w).enrol m v).roster := by
  have hroster : t.Represents t.roster := ⟨h, rfl⟩
  have hmn := (hroster.enrol hm v).enrol ((find?_enrol_of_ne hne.symm).trans hn) w
  have hnm := (hroster.enrol hn w).enrol ((find?_enrol_of_ne hne).trans hm) v
  rw [hmn.roster_eq, hnm.roster_eq]
  exact Roster.insert_comm t.roster hvalues

/-- Changes for different entities can be made **in either order**, as far as the roster shows. -/
theorem Consistent.roster_change_comm (h : t.Consistent) (hne : m ≠ n) (hc : c.Fits t m)
    (hd : d.Fits t n) (hvalues : ∀ value, c = .added value → d ≠ .added value) :
    ((t.change m c).change n d).roster = ((t.change n d).change m c).roster := by
  cases c with
  | nothing => rfl
  | added v =>
      cases d with
      | nothing => rfl
      | added w =>
          have hvw : v ≠ w := fun heq => hvalues v rfl (heq ▸ rfl)
          exact h.roster_enrol_comm hne (hc v rfl) (hd w rfl) hvw
      | removed => exact congrArg roster (dismiss_enrol hne t v)
  | removed =>
      cases d with
      | nothing => rfl
      | added w => exact congrArg roster (dismiss_enrol hne.symm t w).symm
      | removed => exact congrArg roster (dismiss_comm t m n)

/-- **Independent calls commute** on the roster of a tracker: each is answered alike, and the same
roster is left. -/
theorem Represents.call_comm {roster : Roster} (h : t.Represents roster) {a b : Call}
    (hindependent : a.Independent b) :
    ((roster.call b).2.call a).1 = (roster.call a).1 ∧
      ((roster.call a).2.call b).1 = (roster.call b).1 ∧
      ((roster.call a).2.call b).2 = ((roster.call b).2.call a).2 := by
  obtain ⟨⟨m, n, hm, hn, hne⟩, hvalues⟩ := hindependent
  obtain ⟨toldA, c, hc, hadda, hcallA⟩ := exists_change hm t
  obtain ⟨toldB, d, hd, haddb, hcallB⟩ := exists_change hn t
  obtain ⟨hansA, hafterA⟩ := hcallA t rfl
  obtain ⟨hansB, hafterB⟩ := hcallB t rfl
  -- Each call finds the entry of its entity as it was, also after the other call.
  obtain ⟨hansA', hafterBA⟩ := hcallA (t.change n d) (find?_change hne t d)
  obtain ⟨hansB', hafterAB⟩ := hcallB (t.change m c) (find?_change hne.symm t c)
  rw [← hafterB] at hansA' hafterBA
  rw [← hafterA] at hansB' hafterAB
  obtain ⟨hrosterA, hreprA⟩ := h.call a
  obtain ⟨hrosterB, hreprB⟩ := h.call b
  obtain ⟨hrosterAB, hreprAB⟩ := hreprA.call b
  obtain ⟨hrosterBA, hreprBA⟩ := hreprB.call a
  refine ⟨?_, ?_, ?_⟩
  · rw [← hrosterBA, hansA', ← hrosterA, hansA]
  · rw [← hrosterAB, hansB', ← hrosterB, hansB]
  · rw [← hreprAB.roster_eq, ← hreprBA.roster_eq, hafterAB, hafterBA, hafterA, hafterB]
    refine h.consistent.roster_change_comm hne hc hd fun value hcv hdv => ?_
    exact hvalues value (hadda value hcv) (haddb value hdv)

/-- Independent calls **in either order**, and whatever calls come after them. -/
theorem Represents.run_comm {roster : Roster} (h : t.Represents roster) {a b : Call}
    (hindependent : a.Independent b) (calls : List Call) :
    ∃ (toldA toldB : Answer Turn) (told : List (Answer Turn)),
      (roster.run (a :: b :: calls)).1 = toldA :: toldB :: told ∧
      (roster.run (b :: a :: calls)).1 = toldB :: toldA :: told ∧
      (roster.run (a :: b :: calls)).2 = (roster.run (b :: a :: calls)).2 := by
  obtain ⟨hanswerA, hanswerB, hsame⟩ := h.call_comm hindependent
  refine ⟨(roster.call a).1, (roster.call b).1, (((roster.call b).2.call a).2.run calls).1,
    ?_, ?_, ?_⟩
  · rw [Roster.run_cons, Roster.run_cons, hanswerB, hsame]
  · rw [Roster.run_cons, Roster.run_cons, hanswerA]
  · rw [Roster.run_cons, Roster.run_cons, Roster.run_cons, Roster.run_cons, hsame]

end Tracker

/-! ### Turns that are spared -/

/-- Turns that a call spares **keep their order** on a roster. -/
theorem Roster.sublist_call_of_spares {roster : Roster} {turns : List Turn} {c : Tracker.Call}
    (h : turns.Sublist roster) (hc : ∀ turn ∈ turns, c.Spares turn.name) :
    turns.Sublist (roster.call c).2 := by
  cases c with
  | add name value =>
      rw [Roster.call]
      split
      · exact h
      · split
        · exact h
        · exact h.trans (sublist_insert _ roster)
  | get name =>
      rw [Roster.call]
      split <;> exact h
  | remove name =>
      rw [Roster.call]
      split
      · have hkept : turns.eraseP (fun turn => turn.name == Text.strip name) = turns := by
          refine List.eraseP_of_forall_not fun turn hturn => ?_
          simpa using (hc turn hturn).symm
        rw [← hkept]
        exact h.eraseP
      · exact h
  | clear =>
      rw [List.eq_nil_iff_forall_not_mem.mpr hc]
      exact List.nil_sublist _
  | list => exact h
  | size => exact h
  | isEmpty => exact h

/-- Turns that all calls of a history spare **keep their order** on a roster. -/
theorem Roster.sublist_run_of_spares {roster : Roster} {turns : List Turn}
    {calls : List Tracker.Call} (h : turns.Sublist roster)
    (hcalls : ∀ c ∈ calls, ∀ turn ∈ turns, c.Spares turn.name) :
    turns.Sublist (roster.run calls).2 := by
  induction calls generalizing roster with
  | nil => exact h
  | cons c calls ih =>
      obtain ⟨hc, hothers⟩ := List.forall_mem_cons.mp hcalls
      exact ih (sublist_call_of_spares h hc) hothers

namespace Tracker

variable {t t₁ t₂ : Tracker} {roster : Roster}

/-- The same for the roster of a tracker, whatever order its entries are kept in. -/
theorem Represents.sublist_run_of_spares (h : t.Represents roster) {turns : List Turn}
    {history : List (Arrangement × Call)} (hturns : turns.Sublist roster)
    (hspare : ∀ step ∈ history, ∀ turn ∈ turns, step.2.Spares turn.name) :
    turns.Sublist (t.run history).2.roster := by
  obtain ⟨-, hrepr⟩ := h.run history
  rw [hrepr.roster_eq]
  refine Roster.sublist_run_of_spares hturns fun c hc => ?_
  obtain ⟨step, hstep, rfl⟩ := List.mem_map.mp hc
  exact hspare step hstep

/-- An entity that was added is on the roster **as it was added**. -/
theorem Represents.add (h : t.Represents roster) {name : String} {value : Int} {entry : Entry}
    (hadd : t.add name value = .ok (entry, t₁)) :
    t₁.Represents (roster.insert entry.turn) ∧ entry.value = value := by
  obtain ⟨hfind, rfl, rfl⟩ := add_eq_ok hadd
  exact ⟨h.enrol hfind value, rfl⟩

/-- Of two entities that are added with one value, the **first stands before the second**, until
a call does not spare one of them. -/
theorem Represents.sublist_of_adds (h : t.Represents roster) {one other : String} {value : Int}
    {e e' : Entry} {α β : Arrangement} {between after : List (Arrangement × Call)}
    (hone : (t.rearrange α).add one value = .ok (e, t₁))
    (hbetween : ∀ step ∈ between, step.2.Spares e.name)
    (hother : ((t₁.run between).2.rearrange β).add other value = .ok (e', t₂))
    (hafter : ∀ step ∈ after, step.2.Spares e.name ∧ step.2.Spares e'.name) :
    [e.turn, e'.turn].Sublist (t₂.run after).2.roster := by
  obtain ⟨h₁, hvalue⟩ := (h.rearrange α).add hone
  have hfirst : [e.turn].Sublist (t₁.run between).2.roster := by
    refine h₁.sublist_run_of_spares (List.singleton_sublist.mpr (Roster.mem_insert _ _)) ?_
    intro step hstep turn hturn
    rw [List.mem_singleton.mp hturn]
    exact hbetween step hstep
  have hmiddle : (t₁.run between).2.Represents (t₁.run between).2.roster :=
    ⟨(h₁.run between).2.consistent, rfl⟩
  obtain ⟨h₂, hvalue'⟩ := (hmiddle.rearrange β).add hother
  refine h₂.sublist_run_of_spares (Roster.sublist_insert_of_le
    (List.singleton_sublist.mp hfirst) ?_) ?_
  · change e'.value ≤ e.value
    omega
  · intro step hstep turn hturn
    rcases List.mem_pair.mp hturn with rfl | rfl
    · exact (hafter step hstep).1
    · exact (hafter step hstep).2

/-- **Independent calls commute.** From any tracker that calls lead to, two independent calls and
whatever calls come after them are answered, but for the numbers of the entries, as they are when
the two are made in the other order, and the same roster is left. Of two entities that are added
with one value, the first stands before the second as long as neither is removed and the turn order
is not cleared. -/
theorem independent_calls_commute (before : List (Arrangement × Call)) :
    let t := (empty.run before).2
    (∀ a b : Call, a.Independent b → ∀ (α α' β β' : Arrangement)
      (after after' : List (Arrangement × Call)), after.map Prod.snd = after'.map Prod.snd →
      let ab := t.run ((α, a) :: (α', b) :: after)
      let ba := t.run ((β, b) :: (β', a) :: after')
      ∃ (toldA toldB : Answer Turn) (told : List (Answer Turn)),
        ab.1.map (Answer.map Entry.turn) = toldA :: toldB :: told ∧
        ba.1.map (Answer.map Entry.turn) = toldB :: toldA :: told ∧
        ab.2.roster = ba.2.roster) ∧
    ∀ (one other : String) (value : Int) (e e' : Entry) (t₁ t₂ : Tracker) (α β : Arrangement)
      (between after : List (Arrangement × Call)),
      (t.rearrange α).add one value = .ok (e, t₁) →
      (∀ step ∈ between, step.2.Spares e.name) →
      ((t₁.run between).2.rearrange β).add other value = .ok (e', t₂) →
      (∀ step ∈ after, step.2.Spares e.name ∧ step.2.Spares e'.name) →
      [e.turn, e'.turn].Sublist (t₂.run after).2.roster := by
  intro t
  obtain ⟨-, hrepr⟩ := represents_empty.run before
  constructor
  · intro a b hindependent α α' β β' after after' hafter ab ba
    obtain ⟨hab, hleft⟩ := hrepr.run ((α, a) :: (α', b) :: after)
    obtain ⟨hba, hleft'⟩ := hrepr.run ((β, b) :: (β', a) :: after')
    obtain ⟨toldA, toldB, told, hrun, hrun', hsame⟩ :=
      hrepr.run_comm hindependent (after.map Prod.snd)
    refine ⟨toldA, toldB, told, hab.trans hrun, hba.trans ?_, ?_⟩
    · rw [List.map_cons, List.map_cons, ← hafter]
      exact hrun'
    · refine hleft.roster_eq.trans (hsame.trans ?_)
      rw [hafter]
      exact hleft'.roster_eq.symm
  · intro one other value e e' t₁ t₂ α β between after hone hbetween hother hafter
    exact hrepr.sublist_of_adds hone hbetween hother hafter

/-- One entity leaves while another arrives with its value, and then comes back. Afterwards two more
arrive with one value, and a third leaves in between. -/
theorem independent_calls_commute_comeback :
    let added : Arrangement := ⟨id, List.Perm.refl⟩
    let reversed : Arrangement := ⟨List.reverse, List.reverse_perm⟩
    let t := (empty.run [(added, .add "Ann" 10), (reversed, .add "Bo" 12)]).2
    let leave : Call := .remove " Ann "
    let arrive : Call := .add "Cy" 10
    leave.Independent arrive ∧
    (∃ (toldA toldB : Answer Turn) (told : List (Answer Turn)),
      (t.run [(added, leave), (added, arrive), (added, .add "Ann" 10), (added, .list)]).1.map
        (Answer.map Entry.turn) = toldA :: toldB :: told ∧
      (t.run [(reversed, arrive), (added, leave), (reversed, .add "Ann" 10),
        (reversed, .list)]).1.map (Answer.map Entry.turn) = toldB :: toldA :: told) ∧
    ∃ t₁ t₂, (t.rearrange added).add "Di" 12 = .ok (⟨"Di", 12, 2⟩, t₁) ∧
      ((t₁.run [(added, .remove "Bo")]).2.rearrange reversed).add "Ed" 12 =
        .ok (⟨"Ed", 12, 3⟩, t₂) ∧
      [⟨"Di", 12⟩, ⟨"Ed", 12⟩].Sublist (t₂.run [(reversed, .add "Bo" 12)]).2.roster := by
  intro added reversed t leave arrive
  have hindependent : leave.Independent arrive :=
    ⟨⟨"Ann", "Cy", by decide +kernel, by decide +kernel, by decide⟩, nofun⟩
  obtain ⟨hcommute, hequals⟩ :=
    independent_calls_commute [(added, .add "Ann" 10), (reversed, .add "Bo" 12)]
  obtain ⟨toldA, toldB, told, hone, hother, -⟩ := hcommute leave arrive hindependent added added
    reversed added [(added, .add "Ann" 10), (added, .list)]
    [(reversed, .add "Ann" 10), (reversed, .list)] rfl
  obtain ⟨t₁, h₁⟩ : ∃ t₁, (t.rearrange added).add "Di" 12 = .ok (⟨"Di", 12, 2⟩, t₁) := ⟨_, rfl⟩
  obtain ⟨t₂, h₂⟩ : ∃ t₂, ((t₁.run [(added, .remove "Bo")]).2.rearrange reversed).add "Ed" 12 =
      .ok (⟨"Ed", 12, 3⟩, t₂) := by
    cases h₁
    exact ⟨_, rfl⟩
  have hspare : Text.strip "Bo" ≠ "Di" := by decide +kernel
  refine ⟨hindependent, ⟨toldA, toldB, told, hone, hother⟩, t₁, t₂, h₁, h₂, ?_⟩
  exact hequals "Di" "Ed" 12 _ _ t₁ t₂ added reversed [(added, .remove "Bo")]
    [(reversed, .add "Bo" 12)] h₁ (List.forall_mem_singleton.mpr hspare) h₂
    (List.forall_mem_singleton.mpr ⟨trivial, trivial⟩)

end Tracker

end Tabletop
