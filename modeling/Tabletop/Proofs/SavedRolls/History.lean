import Tabletop.Proofs.Formula.Surroundings
import Tabletop.Proofs.Lists.Traversal
import Tabletop.Proofs.SavedRolls.Lookup
import Tabletop.Proofs.Text.Bytes

/-!
# Saved Rolls and Their History

The saved rolls are a **last-write-wins** map. Whatever texts one tries to save under whatever
names, what is there afterwards is told by the history of the attempts alone: under each name the
formula of the last attempt that did not fail. Failed attempts leave no trace, and the order of the
list tells nothing but the names.

Two facts are kept by every attempt, that the names ascend and that the lookup gives what was saved
last. Everything else follows from these.

## Main definitions

* `SavedRolls.WellNamed`: the names that a roll may have, by their characters.
* `SavedRolls.Saves`: whether an attempt succeeds, and with which formula.
* `SavedRolls.LastSaved`: the last success under a name in a history.
* `SavedRolls.LastWriteWins`: what saved rolls have to do with a history.

## Main results

* `SavedRolls.records_attemptAll`: the two facts hold after every history.
* `SavedRolls.last_write_wins`: what the saved rolls are after a history.
-/

namespace Tabletop.SavedRolls

variable {history : List (String × String)} {entry : String × String} {rolls next : SavedRolls}
variable {name other text : String} {f g : Formula}

/-! ### Attempts -/

/-- A letter or a digit of ASCII. -/
def IsLetterOrDigit (c : Char) : Prop :=
  ('A' ≤ c ∧ c ≤ 'Z') ∨ ('a' ≤ c ∧ c ≤ 'z') ∨ ('0' ≤ c ∧ c ≤ '9')

/-- A name is **a letter or digit**, and after it letters, digits, underscores, points and
hyphens. -/
def WellNamed (name : String) : Prop :=
  ∃ first others, name.toList = first :: others ∧ IsLetterOrDigit first ∧
    ∀ c ∈ others, IsLetterOrDigit c ∨ c = '_' ∨ c = '.' ∨ c = '-'

/-- Saving a text under a name **succeeds with a formula**. -/
def Saves (name text : String) (f : Formula) : Prop :=
  WellNamed name ∧ Formula.parse text = .ok f

/-- The saved rolls after the attempt to save a text under a name. -/
def attempt (rolls : SavedRolls) (entry : String × String) : SavedRolls :=
  match rolls.save entry.1 entry.2 with
  | .ok (_, next) => next
  | .error _ => rolls

/-- The saved rolls after several attempts, the first of the list first. -/
def attemptAll (rolls : SavedRolls) (history : List (String × String)) : SavedRolls :=
  history.foldl attempt rolls

/-- The last attempt is made on the rolls that **the others have left**. -/
theorem attemptAll_concat :
    rolls.attemptAll (history ++ [entry]) = (rolls.attemptAll history).attempt entry := by
  rw [attemptAll, List.foldl_append]
  rfl

/-- The ASCII letters and digits are **three ranges** of code points. -/
theorem isAlphanum_iff {c : Char} : c.isAlphanum = true ↔ IsLetterOrDigit c := by
  have hupper : c.isUpper = true ↔ 'A' ≤ c ∧ c ≤ 'Z' := decide_eq_true_iff
  have hlower : c.isLower = true ↔ 'a' ≤ c ∧ c ≤ 'z' :=
    (Bool.and_eq_true_iff).trans (and_congr decide_eq_true_iff decide_eq_true_iff)
  have hdigit : c.isDigit = true ↔ '0' ≤ c ∧ c ≤ '9' :=
    (Bool.and_eq_true_iff).trans (and_congr decide_eq_true_iff decide_eq_true_iff)
  have halpha : c.isAlpha = true ↔ c.isUpper = true ∨ c.isLower = true := Bool.or_eq_true_iff
  have halphanum : c.isAlphanum = true ↔ c.isAlpha = true ∨ c.isDigit = true :=
    Bool.or_eq_true_iff
  rw [halphanum, halpha, hupper, hlower, hdigit, or_assoc, IsLetterOrDigit]

/-- The names that are checked for are **the well-formed ones**. -/
theorem isRollName_iff : isRollName name = true ↔ WellNamed name := by
  have hchar : ∀ c, isRollNameChar c = true ↔ IsLetterOrDigit c ∨ c = '_' ∨ c = '.' ∨ c = '-' := by
    intro c
    simp only [isRollNameChar, Bool.or_eq_true, beq_iff_eq, isAlphanum_iff, or_assoc]
  rw [isRollName, WellNamed]
  cases name.toList with
  | nil => simp
  | cons first others =>
      rw [Bool.and_eq_true, List.all_eq_true, isAlphanum_iff]
      simp only [hchar]
      constructor
      · exact fun ⟨hfirst, hothers⟩ => ⟨first, others, rfl, hfirst, hothers⟩
      · rintro ⟨_, _, heq, hfirst, hothers⟩
        cases heq
        exact ⟨hfirst, hothers⟩

/-- A line break is **no part** of a name. -/
theorem not_wellNamed_newline (name : String) : ¬ WellNamed (name ++ "\n") := by
  rintro ⟨first, others, heq, hfirst, hothers⟩
  have hmem : '\n' ∈ first :: others := by
    rw [← heq, String.toList_append]
    exact List.mem_append_right _ List.mem_cons_self
  rcases List.mem_cons.mp hmem with rfl | hmem
  · revert hfirst
    rw [← isAlphanum_iff]
    decide
  · rcases hothers _ hmem with h | h | h | h
    · revert h
      rw [← isAlphanum_iff]
      decide
    all_goals exact absurd h (by decide)

/-- An attempt that succeeds **sets the formula** under the name. -/
theorem save_of_saves (h : Saves name text f) :
    rolls.save name text = .ok (⟨name, f⟩, ⟨setKey SavedRoll.name ⟨name, f⟩ rolls.toList⟩) := by
  rw [save, if_pos (isRollName_iff.mpr h.1), h.2]

/-- Without a name **the text is not read**. -/
theorem save_of_not_wellNamed (h : ¬ WellNamed name) :
    rolls.save name text = .error (.invalidName name) := by
  rw [save, if_neg (mt isRollName_iff.mp h)]

/-- A text that is no formula is not saved, **with its fault** for a reason. -/
theorem save_of_fault {fault : Fault} (h : WellNamed name)
    (hfault : Formula.parse text = .error fault) :
    rolls.save name text = .error (.invalidExpression name fault) := by
  rw [save, if_pos (isRollName_iff.mpr h), hfault]

/-- Whether an attempt succeeds **does not depend** on what is saved. -/
theorem exists_save_iff :
    (∃ next, rolls.save name text = .ok (⟨name, f⟩, next)) ↔ Saves name text f := by
  constructor
  · rintro ⟨next, h⟩
    obtain ⟨hname, -, hparse, -⟩ := save_eq_ok h
    exact ⟨isRollName_iff.mp hname, hparse⟩
  · exact fun h => ⟨_, save_of_saves h⟩

/-- An attempt that succeeds **sets the name** to the formula. -/
theorem attempt_of_saves (h : Saves name text f) :
    rolls.attempt (name, text) = ⟨setKey SavedRoll.name ⟨name, f⟩ rolls.toList⟩ := by
  rw [attempt, save_of_saves h]

/-- An attempt that fails **changes nothing**. -/
theorem attempt_of_error {error : SavedRollError} (h : rolls.save name text = .error error) :
    rolls.attempt (name, text) = rolls := by
  rw [attempt, h]

/-- An attempt that fails **leaves everything** as it was. -/
theorem attempt_of_not_saves (h : ∀ f, ¬ Saves name text f) :
    rolls.attempt (name, text) = rolls := by
  cases hsave : rolls.save name text with
  | error error => exact attempt_of_error hsave
  | ok saved =>
      obtain ⟨hname, -, hparse, -⟩ := save_eq_ok hsave
      exact absurd ⟨isRollName_iff.mp hname, hparse⟩ (h saved.1.formula)

/-! ### The last success -/

/-- In the history, **the last success** under the name was with this formula. -/
def LastSaved (history : List (String × String)) (name : String) (f : Formula) : Prop :=
  ∃ before text after, history = before ++ (name, text) :: after ∧ Saves name text f ∧
    ∀ later g, (name, later) ∈ after → ¬ Saves name later g

/-- Before the first attempt there is no last success. -/
theorem not_lastSaved_nil : ¬ LastSaved [] name f := by
  rintro ⟨before, text, after, heq, -⟩
  exact absurd heq.symm (by simp)

/-- A success is the last one **under its name**. -/
theorem lastSaved_concat_self (h : Saves name text f) :
    LastSaved (history ++ [(name, text)]) name g ↔ g = f := by
  constructor
  · rintro ⟨before, last, after, heq, hlast, hlater⟩
    rcases concat_eq_append_cons heq with ⟨hentry, -⟩ | ⟨rest, -, rfl⟩
    · cases hentry
      exact Except.ok.inj (hlast.2.symm.trans h.2)
    · exact absurd h (hlater text f (by simp))
  · rintro rfl
    exact ⟨history, text, [], rfl, h, fun _ _ hmem => nomatch hmem⟩

/-- An attempt **under another name**, or one that fails, is not the last success. -/
theorem lastSaved_concat_of_not (h : ∀ g, entry.1 = name → ¬ Saves name entry.2 g) :
    LastSaved (history ++ [entry]) name f ↔ LastSaved history name f := by
  constructor
  · rintro ⟨before, text, after, heq, hsaves, hlater⟩
    rcases concat_eq_append_cons heq with ⟨rfl, -⟩ | ⟨rest, hhistory, rfl⟩
    · exact absurd hsaves (h f rfl)
    · exact ⟨before, text, rest, hhistory, hsaves,
        fun _ _ hmem => hlater _ _ (List.mem_append_left _ hmem)⟩
  · rintro ⟨before, text, after, rfl, hsaves, hlater⟩
    refine ⟨before, text, after ++ [entry], by simp, hsaves, fun later g hmem => ?_⟩
    rcases List.mem_append.mp hmem with hmem | hmem
    · exact hlater later g hmem
    · cases List.mem_singleton.mp hmem
      exact h g rfl

/-- Where there was a success, there was **a last one**. -/
theorem exists_lastSaved_iff :
    (∃ f, LastSaved history name f) ↔ ∃ text f, (name, text) ∈ history ∧ Saves name text f := by
  constructor
  · rintro ⟨f, before, text, after, rfl, hsaves, -⟩
    exact ⟨text, f, by simp, hsaves⟩
  · induction history using List.reverseRecOn with
    | nil => exact fun ⟨_, _, hmem, _⟩ => nomatch hmem
    | append_singleton history entry ih =>
        rintro ⟨text, f, hmem, hsaves⟩
        by_cases hlast : ∃ g, entry.1 = name ∧ Saves name entry.2 g
        · obtain ⟨g, rfl, hg⟩ := hlast
          exact ⟨g, (lastSaved_concat_self hg).mpr rfl⟩
        · have hnot : ∀ g, entry.1 = name → ¬ Saves name entry.2 g :=
            fun g hname hg => hlast ⟨g, hname, hg⟩
          rcases List.mem_append.mp hmem with hmem | hmem
          · obtain ⟨g, hg⟩ := ih ⟨text, f, hmem, hsaves⟩
            exact ⟨g, (lastSaved_concat_of_not hnot).mpr hg⟩
          · cases List.mem_singleton.mp hmem
            exact absurd hsaves (hnot f rfl)

/-! ### What every attempt keeps -/

/-- Saved rolls **record** a history: their names ascend, and under each name the formula of the
last success is found. -/
structure Records (history : List (String × String)) (rolls : SavedRolls) : Prop where
  ascending : rolls.toList.Pairwise fun roll other => roll.name < other.name
  find?_iff : ∀ name f, rolls.find? name = some f ↔ LastSaved history name f

/-- No rolls record the history without attempts. -/
theorem records_empty : Records [] empty :=
  ⟨List.Pairwise.nil, fun _ _ => iff_of_false nofun not_lastSaved_nil⟩

/-- One more attempt is **recorded** with the others. -/
theorem Records.attempt (h : Records history rolls) (entry : String × String) :
    Records (history ++ [entry]) (rolls.attempt entry) := by
  obtain ⟨key, text⟩ := entry
  by_cases hsaves : ∃ g, Saves key text g
  · obtain ⟨g, hg⟩ := hsaves
    rw [attempt_of_saves hg]
    refine ⟨pairwise_setKey h.ascending, fun name f => ?_⟩
    rw [find?_of_save (save_of_saves hg)]
    by_cases hname : name = key
    · rw [hname, Function.update_self, lastSaved_concat_self hg]
      exact ⟨fun heq => (Option.some.inj heq).symm, fun heq => congrArg some heq.symm⟩
    · rw [Function.update_of_ne hname, h.find?_iff,
        lastSaved_concat_of_not fun _ heq => absurd heq.symm hname]
  · rw [attempt_of_not_saves fun g hg => hsaves ⟨g, hg⟩]
    refine ⟨h.ascending, fun name f => ?_⟩
    rw [h.find?_iff, lastSaved_concat_of_not]
    rintro g rfl hg
    exact hsaves ⟨g, hg⟩

/-- After every history the saved rolls **record it**. -/
theorem records_attemptAll (history : List (String × String)) :
    Records history (empty.attemptAll history) := by
  induction history using List.reverseRecOn with
  | nil => exact records_empty
  | append_singleton history entry ih =>
      rw [attemptAll_concat]
      exact ih.attempt entry

/-- Every history leads to saved rolls that saving leads to. -/
theorem Reachable.attemptAll (history : List (String × String)) :
    (SavedRolls.empty.attemptAll history).Reachable := by
  induction history using List.reverseRecOn with
  | nil => exact .empty
  | append_singleton history entry ih =>
      rw [attemptAll_concat, SavedRolls.attempt]
      split
      · rename_i hsave
        exact .save ih hsave
      · exact ih

/-! ### The list -/

/-- Where the names ascend, a roll is in the list just when **it is found** under its name. -/
theorem mem_iff_find? (h : rolls.toList.Pairwise fun roll other => roll.name < other.name)
    {roll : SavedRoll} : roll ∈ rolls.toList ↔ rolls.find? roll.name = some roll.formula := by
  have hname : ∀ other, rolls.toList.find? (fun other => other.name == roll.name) = some other ↔
      other ∈ rolls.toList ∧ other.name = roll.name := fun other =>
    find?_key_eq_some_iff (nodup_of_pairwise_lt h)
  rw [find?, Option.map_eq_some_iff]
  constructor
  · exact fun hmem => ⟨roll, (hname roll).mpr ⟨hmem, rfl⟩, rfl⟩
  · rintro ⟨other, hfind, hformula⟩
    obtain ⟨hmem, hsame⟩ := (hname other).mp hfind
    cases other
    cases hsame
    cases hformula
    exact hmem

/-- The comparison of rolls by the **UTF-8 bytes of their names**. -/
def byName (roll other : SavedRoll) : Bool :=
  decide (roll.name.toUTF8.toList ≤ other.name.toUTF8.toList)

/-- A roll may be listed in front of those whose names are **no less** than its own. -/
theorem byName_iff {roll other : SavedRoll} :
    byName roll other = true ↔ roll.name ≤ other.name := by
  rw [byName, decide_eq_true_eq, ← List.not_lt, ← lt_iff_utf8_lt, String.not_lt]

/-- This order is transitive. -/
theorem byName_trans (a b c : SavedRoll) (hab : byName a b = true) (hbc : byName b c = true) :
    byName a c = true :=
  byName_iff.mpr (String.le_trans (byName_iff.mp hab) (byName_iff.mp hbc))

/-- Of two rolls one may be listed in front of the other. -/
theorem byName_total (a b : SavedRoll) : (byName a b || byName b a) = true := by
  rw [Bool.or_eq_true, byName_iff, byName_iff]
  exact String.le_total a.name b.name

/-- In whatever order the rolls are found, **sorting them by name** gives the one list. -/
theorem mergeSort_eq_of_perm (h : rolls.toList.Pairwise fun roll other => roll.name < other.name)
    {order : List SavedRoll} (hperm : order.Perm rolls.toList) :
    order.mergeSort byName = rolls.toList := by
  have hsorted : (order.mergeSort byName).Pairwise fun roll other => byName roll other :=
    List.pairwise_mergeSort byName_trans byName_total order
  have hlist : rolls.toList.Pairwise fun roll other => byName roll other :=
    h.imp fun hlt => byName_iff.mpr (String.not_lt.mp (String.lt_asymm hlt))
  refine List.Perm.eq_of_pairwise ?_ hsorted hlist ((List.mergeSort_perm order byName).trans hperm)
  intro roll other hroll hother hle hge
  have hname : roll.name = other.name :=
    String.le_antisymm (byName_iff.mp hle) (byName_iff.mp hge)
  have hmem : roll ∈ rolls.toList :=
    hperm.mem_iff.mp ((List.mergeSort_perm order byName).mem_iff.mp hroll)
  have hformula := ((mem_iff_find? h).mp hmem).symm.trans (hname ▸ (mem_iff_find? h).mp hother)
  cases roll
  cases other
  cases hname
  cases hformula
  rfl

/-! ### The map as a whole -/

/-- A name resolves to the formula that is **found under it**. -/
theorem resolve_eq_ok_iff : rolls.resolve name = .ok f ↔ rolls.find? name = some f := by
  rw [resolve]
  cases rolls.find? name <;> simp

/-- A name does not resolve just when **nothing** is found under it. -/
theorem resolve_eq_notFound_iff :
    rolls.resolve name = .error (.notFound name) ↔ rolls.find? name = none := by
  rw [resolve]
  cases rolls.find? name <;> simp

/-- Saved rolls are **what the last successes** of a history made them. -/
structure LastWriteWins (history : List (String × String)) (rolls : SavedRolls) : Prop where
  /-- Saving succeeds with a name and a formula, and then saves this formula. -/
  saved_iff : ∀ name text f,
    (∃ next, rolls.save name text = .ok (⟨name, f⟩, next)) ↔ Saves name text f
  /-- The name is checked first. -/
  badName : ∀ name text, ¬ WellNamed name → rolls.save name text = .error (.invalidName name)
  /-- A line break at the end of a name is not passed over. -/
  newline : ∀ name text, rolls.save (name ++ "\n") text = .error (.invalidName (name ++ "\n"))
  /-- The formula is checked next. -/
  badText : ∀ name text fault, WellNamed name → Formula.parse text = .error fault →
    rolls.save name text = .error (.invalidExpression name fault)
  /-- A failure changes nothing. -/
  unchanged : ∀ name text error, rolls.save name text = .error error →
    rolls.attempt (name, text) = rolls
  /-- A name resolves to the formula of the last success under it. -/
  resolved_iff : ∀ name f, rolls.resolve name = .ok f ↔ LastSaved history name f
  /-- Without a success a name is not found. -/
  notFound_iff : ∀ name, rolls.resolve name = .error (.notFound name) ↔
    ∀ text f, (name, text) ∈ history → ¬ Saves name text f
  /-- The names with a success are listed. -/
  listed_iff : ∀ name, name ∈ rolls.toList.map SavedRoll.name ↔
    ∃ text f, (name, text) ∈ history ∧ Saves name text f
  /-- The names ascend strictly, byte by byte. -/
  ascending : rolls.toList.Pairwise fun roll other =>
    roll.name.toUTF8.toList < other.name.toUTF8.toList
  /-- The list does not depend on the order in which the rolls are found. -/
  sorted : ∀ order : List SavedRoll, order.Perm rolls.toList →
    order.mergeSort byName = rolls.toList
  /-- Each name is listed with the formula that it resolves to. -/
  listed : ∀ roll ∈ rolls.toList, rolls.resolve roll.name = .ok roll.formula
  /-- Each listed formula is read again from its source. -/
  read_again : ∀ roll ∈ rolls.toList, Formula.parse roll.formula.source = .ok roll.formula
  /-- The size is that of the list. -/
  size_eq : rolls.size = rolls.toList.length
  /-- The rolls are empty just when the size is zero. -/
  isEmpty_iff : rolls.isEmpty = true ↔ rolls.size = 0

/-- **The last write wins.** After any attempts to save texts under names, the saved rolls are what
the last successes made them. -/
theorem last_write_wins (history : List (String × String)) :
    LastWriteWins history (empty.attemptAll history) := by
  have hrecords := records_attemptAll history
  generalize hrolls : empty.attemptAll history = rolls at hrecords
  have hreachable : rolls.Reachable := hrolls ▸ Reachable.attemptAll history
  have hresolved : ∀ name f, rolls.resolve name = .ok f ↔ LastSaved history name f :=
    fun name f => resolve_eq_ok_iff.trans (hrecords.find?_iff name f)
  have hlisted : ∀ roll ∈ rolls.toList, rolls.resolve roll.name = .ok roll.formula :=
    fun roll hroll => resolve_eq_ok_iff.mpr ((mem_iff_find? hrecords.ascending).mp hroll)
  refine
    { saved_iff := fun _ _ _ => exists_save_iff
      badName := fun _ _ h => save_of_not_wellNamed h
      newline := fun name _ => save_of_not_wellNamed (not_wellNamed_newline name)
      badText := fun _ _ _ h hfault => save_of_fault h hfault
      unchanged := fun _ _ _ h => attempt_of_error h
      resolved_iff := hresolved
      notFound_iff := fun name => ?_
      listed_iff := fun name => ?_
      ascending := hrecords.ascending.imp fun h => lt_iff_utf8_lt.mp h
      sorted := fun _ hperm => mergeSort_eq_of_perm hrecords.ascending hperm
      listed := hlisted
      read_again := fun roll hroll => ?_
      size_eq := rfl
      isEmpty_iff := ?_ }
  · have hnone : rolls.find? name = none ↔ ¬ ∃ f, LastSaved history name f := by
      simp only [Option.eq_none_iff_forall_ne_some, ne_eq, hrecords.find?_iff, not_exists]
    rw [resolve_eq_notFound_iff, hnone, exists_lastSaved_iff]
    constructor
    · exact fun h text f hmem hsaves => h ⟨text, f, hmem, hsaves⟩
    · exact fun h ⟨text, f, hmem, hsaves⟩ => h text f hmem hsaves
  · rw [← exists_lastSaved_iff]
    constructor
    · intro hmem
      obtain ⟨roll, hroll, rfl⟩ := List.mem_map.mp hmem
      exact ⟨roll.formula, (hresolved _ _).mp (hlisted roll hroll)⟩
    · rintro ⟨f, hf⟩
      have hfind := (hrecords.find?_iff name f).mpr hf
      exact List.mem_map.mpr ⟨⟨name, f⟩, (mem_iff_find? hrecords.ascending).mpr hfind, rfl⟩
  · obtain ⟨text, hparse⟩ := hreachable.parsed roll hroll
    exact Formula.parse_source hparse
  · rw [isEmpty, size, List.isEmpty_iff, List.length_eq_zero_iff]

end Tabletop.SavedRolls
