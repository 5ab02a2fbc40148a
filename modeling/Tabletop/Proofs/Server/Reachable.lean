import Tabletop.Proofs.Initiative.TurnOrder
import Tabletop.Proofs.SavedRolls.Reachable
import Tabletop.Proofs.Server.Outcome
import Tabletop.Server.Start

/-!
# Reachable Servers

A server that runs was started from some settings, and has answered some requests since. What its
stores are like follows from what comes of a single request: its turn order is consistent, and its
saved rolls are such as saving leads to.

## Main definitions

* `Server.Reachable`: the servers that starting and answering lead to.

## Main results

* `Server.Reachable.consistent`, `Server.Reachable.rolls`: what the stores are like.
-/

namespace Tabletop

/-- Several rolls that were saved one after another leave what **saving leads to**. -/
theorem SavedRolls.Reachable.saveAll {rolls next : SavedRolls} (h : rolls.Reachable)
    {named : List (String × String)} (hsave : rolls.saveAll named = .ok next) : next.Reachable := by
  induction named generalizing rolls with
  | nil =>
      cases hsave
      exact h
  | cons first named ih =>
      obtain ⟨name, text⟩ := first
      rw [SavedRolls.saveAll] at hsave
      split at hsave
      · cases hsave
      · rename_i roll saved hroll
        exact ih (h.save hroll) hsave

namespace Server

/-- A server that has been **started** has no entities, and the saved rolls of its settings. -/
theorem start_eq_ok {settings : Settings} {key : Key} {s : Server}
    (h : start settings key = .ok s) :
    ∃ rolls, SavedRolls.empty.saveAll settings.savedRolls = .ok rolls ∧
      s = ⟨.empty, rolls, match settings.seed with
        | some seed => .ofSeed (UInt64.ofNat seed)
        | none => .ofKey key, settings.host, settings.anyOrigin⟩ := by
  rw [start] at h
  split at h
  · cases h
  · rename_i rolls hrolls
    exact ⟨rolls, hrolls, (Except.ok.inj h).symm⟩

/-- The servers that **starting and answering lead to**. -/
inductive Reachable : Server → Prop
  | start {settings : Settings} {key : Key} {s : Server} :
      Server.start settings key = .ok s → Reachable s
  | answer {s : Server} (r : Request) : Reachable s → Reachable (s.answer r).2

variable {s : Server}

/-- The first of several requests is answered first. -/
theorem answerAll_cons (s : Server) (r : Request) (requests : List Request) :
    s.answerAll (r :: requests) =
      ((s.answer r).1 :: ((s.answer r).2.answerAll requests).1,
        ((s.answer r).2.answerAll requests).2) :=
  rfl

/-- The turn order of a reachable server is **consistent**. -/
theorem Reachable.consistent (h : s.Reachable) : s.tracker.Consistent := by
  induction h with
  | start hstart =>
      obtain ⟨rolls, -, rfl⟩ := start_eq_ok hstart
      exact Tracker.consistent_empty
  | @answer s r _ ih =>
      obtain ⟨reply, houtcome, -⟩ := exists_outcome s r
      generalize (s.answer r).2 = next at houtcome
      cases houtcome with
      | shown => exact ih
      | rolled => exact ih
      | added _ _ _ hadd =>
          obtain ⟨hfind, -, rfl⟩ := Tracker.add_eq_ok hadd
          exact ih.enrol hfind _
      | removed _ _ _ hremove =>
          obtain ⟨-, rfl⟩ := Tracker.remove_eq_ok hremove
          exact ih.dismiss _
      | cleared => exact Tracker.consistent_empty
      | saved => exact ih

/-- The saved rolls of a reachable server are such as **saving leads to**. -/
theorem Reachable.rolls (h : s.Reachable) : s.rolls.Reachable := by
  induction h with
  | start hstart =>
      obtain ⟨rolls, hrolls, rfl⟩ := start_eq_ok hstart
      exact SavedRolls.Reachable.empty.saveAll hrolls
  | @answer s r _ ih =>
      obtain ⟨reply, houtcome, -⟩ := exists_outcome s r
      generalize (s.answer r).2 = next at houtcome
      cases houtcome with
      | shown => exact ih
      | rolled => exact ih
      | added => exact ih
      | removed => exact ih
      | cleared => exact ih
      | saved _ _ _ _ hsave => exact ih.save hsave

end Server

end Tabletop
