import Tabletop.Proofs.Formula.Acceptance
import Tabletop.Proofs.Formula.Cursor

/-!
# What a Cursor Does

A reading keeps a log of its steps. This module says what a **sound** step is: the cursor stands
between characters of the text and has not gone back, the text can be cut where it is cut, a round
begins two bytes or more behind the one before it, and the dice that have been counted are those of
the terms accepted so far.

What is known at some point of a reading is its `Stage`: the state of a scan of the same text, the
terms that have been accepted, and the byte from which the next round may begin. There are four
kinds of steps. Each takes one stage to the next (`Stage.Next`), where it is a sound step of the log
(`Stage.Holds.step`), so that whoever goes from stage to stage need not look at the log again.

## Main definitions

* `Cursor.Step.Sound`, `Cursor.SoundLog`: what is to hold of a step, by the steps before it.
* `Cursor.Stage`, `Cursor.Stage.Holds`, `Cursor.Stage.Next`: what is known, and how that changes.

## Main results

* `Cursor.Stage.Holds.sound_step`, `Cursor.Stage.Holds.step`: what one step preserves.
-/

open Tabletop.Text

namespace Tabletop

namespace Scan

variable {text v : List Char} {s : Scan}

/-- A text is **what has been read** of it, and what is left. -/
theorem Reads.text_eq (h : (start text).Reads v s) : text = v ++ s.rest :=
  h.rest_eq

/-- The position is the number of bytes of **what has been read**. -/
theorem Reads.byteSize_eq (h : (start text).Reads v s) : byteSize v = s.position := by
  rw [h.position_eq]
  exact (Nat.zero_add _).symm

end Scan

namespace Cursor

/-! ### Sound logs -/

/-- The terms that are accepted in the steps of a log. -/
def acceptedTerms (log : List Step) : List Term :=
  log.filterMap fun step => step.action.accepted?

/-- A step is **sound** after the steps before it. -/
structure Step.Sound (text : String) (before : List Step) (step : Step) : Prop where
  /-- The cursor stands between characters. -/
  boundary : IsBoundary text step.cursor.position
  /-- The cursor has not left the text. -/
  le_size : step.cursor.position ≤ text.utf8ByteSize
  /-- The cursor has not gone back. -/
  forward : ∀ earlier ∈ before, earlier.cursor.position ≤ step.cursor.position
  /-- The text can be cut where it is cut. -/
  canCut : ∀ start stop, step.action = .cut start stop → CanCut text start stop
  /-- A round begins two bytes or more behind the beginnings of the rounds before it. -/
  round : step.action = .beginRound → ∀ earlier ∈ before, earlier.action = .beginRound →
    earlier.cursor.position + 2 ≤ step.cursor.position
  /-- The dice of the terms accepted so far have been counted. -/
  dice_eq : step.cursor.dice = countOf Term.diceCount (acceptedTerms (before ++ [step]))
  /-- The dice stay within the bound of a formula. -/
  dice_le : step.cursor.dice ≤ 2000

/-- A log is **sound** if every step in it is, after the steps before it. -/
def SoundLog (text : String) (log : List Step) : Prop :=
  ∀ before step, before ++ [step] <+: log → step.Sound text before

/-- **One sound step more** leaves the log sound. -/
theorem SoundLog.concat {text : String} {log : List Step} {step : Step} (hlog : SoundLog text log)
    (hstep : step.Sound text log) : SoundLog text (log ++ [step]) := by
  intro before last hprefix
  rcases List.prefix_concat_iff.mp hprefix with heq | hprefix
  · obtain ⟨rfl, hlast⟩ := List.append_inj' heq rfl
    obtain rfl := List.singleton_inj.mp hlast
    exact hstep
  · exact hlog before last hprefix

/-- A step accepts one term or none. -/
theorem acceptedTerms_concat (log : List Step) (step : Step) :
    acceptedTerms (log ++ [step]) = acceptedTerms log ++ step.action.accepted?.toList := by
  cases haccepted : step.action.accepted? <;> simp [acceptedTerms, haccepted]

/-! ### Stages -/

/-- What is **known** at some point of a reading. -/
structure Stage where
  /-- The state of the scan. -/
  scan : Scan
  /-- The terms accepted so far. -/
  accepted : List Term
  /-- The byte from which the next round may begin. -/
  nextRound : Nat

/-- Where the cursor stands in a stage. -/
def Stage.cursor (g : Stage) : Cursor :=
  ⟨g.scan.position, g.scan.dice⟩

/-- A reading that has come so far is **in this stage**. -/
structure Stage.Holds (text : String) (g : Stage) (p : Progress) : Prop where
  /-- The cursor stands where the scan does. -/
  cursor_eq : p.cursor = g.cursor
  /-- The scan is one of the text. -/
  reads : ∃ w, (Scan.start text.toList).Reads w g.scan
  /-- The log holds the accepted terms. -/
  accepted_eq : acceptedTerms p.log = g.accepted
  /-- Their dice have been counted. -/
  dice_eq : g.scan.dice = countOf Term.diceCount g.accepted
  /-- The dice stay within the bound of a formula. -/
  dice_le : g.scan.dice ≤ 2000
  /-- All steps lie behind. -/
  steps_le : ∀ step ∈ p.log, step.cursor.position ≤ g.scan.position
  /-- The next round may begin two bytes behind all rounds so far. -/
  rounds_le : ∀ step ∈ p.log, step.action = .beginRound →
    step.cursor.position + 2 ≤ g.nextRound
  /-- The log is sound. -/
  sound : SoundLog text p.log

/-- An action that may be taken in a stage **leads to the next stage**. -/
inductive Stage.Next (text : String) (g : Stage) : Action → Stage → Prop
  /-- A round begins where it may. -/
  | beginRound : g.nextRound ≤ g.scan.position →
      Next text g .beginRound ⟨g.scan, g.accepted, g.scan.position + 2⟩
  /-- The cursor moves behind the next character. -/
  | move {c : Char} {rest : List Char} : g.scan.rest = c :: rest →
      Next text g .move
        ⟨⟨g.scan.position + c.utf8Size, rest, g.scan.dice⟩, g.accepted, g.nextRound⟩
  /-- The text is cut where it can be cut. -/
  | cut {start stop : Nat} : CanCut text start stop → Next text g (.cut start stop) g
  /-- A term whose dice are not too many is accepted. -/
  | accept {t : Term} : g.scan.dice + t.diceCount ≤ 2000 →
      Next text g (.accept t)
        ⟨{ g.scan with dice := g.scan.dice + t.diceCount }, g.accepted ++ [t], g.nextRound⟩

namespace Stage

variable {text : String} {g next : Stage} {action : Action} {p : Progress}

/-- A step reads **a character or nothing**. -/
theorem Next.reads (h : g.Next text action next) : ∃ w, g.scan.Reads w next.scan := by
  cases h with
  | beginRound _ => exact ⟨[], rfl, rfl⟩
  | move hrest => exact ⟨[_], hrest, by simp⟩
  | cut _ => exact ⟨[], rfl, rfl⟩
  | accept _ => exact ⟨[], rfl, rfl⟩

/-- No step goes **back**. -/
theorem Next.position_le (h : g.Next text action next) :
    g.scan.position ≤ next.scan.position := by
  obtain ⟨w, hw⟩ := h.reads
  rw [hw.position_eq]
  exact Nat.le_add_right _ _

/-- The term that a step accepts comes **behind the others**. -/
theorem Next.accepted_eq (h : g.Next text action next) :
    next.accepted = g.accepted ++ action.accepted?.toList := by
  cases h <;> simp [Action.accepted?]

/-- The dice that are counted stay those of **the accepted terms**, within the bound. -/
theorem Next.dice (h : g.Next text action next)
    (hdice : g.scan.dice = countOf Term.diceCount g.accepted) (hle : g.scan.dice ≤ 2000) :
    next.scan.dice = countOf Term.diceCount next.accepted ∧ next.scan.dice ≤ 2000 := by
  cases h with
  | beginRound _ => exact ⟨hdice, hle⟩
  | move _ => exact ⟨hdice, hle⟩
  | cut _ => exact ⟨hdice, hle⟩
  | accept hbound => exact ⟨by rw [countOf_append, ← hdice]; rfl, hbound⟩

/-- The byte from which the next round may begin does not go back. -/
theorem Next.nextRound_le (h : g.Next text action next) : g.nextRound ≤ next.nextRound := by
  cases h with
  | beginRound hround => exact Nat.le_add_right_of_le hround
  | move _ => exact Nat.le_refl _
  | cut _ => exact Nat.le_refl _
  | accept _ => exact Nat.le_refl _

/-- A round begins **where it may**, and the next one may do so two bytes behind it. -/
theorem Next.round (h : g.Next text .beginRound next) :
    g.nextRound ≤ next.scan.position ∧ next.scan.position + 2 ≤ next.nextRound := by
  cases h with
  | beginRound hround => exact ⟨hround, Nat.le_refl _⟩

/-- The text is cut only **where it can be**. -/
theorem Next.canCut {start stop : Nat} (h : g.Next text (.cut start stop) next) :
    CanCut text start stop := by
  cases h with
  | cut hcut => exact hcut

/-- Where a reading is in some stage, an action that may be taken is a **sound step**. -/
theorem Holds.sound_step (h : g.Holds text p) (hnext : g.Next text action next) :
    Step.Sound text p.log ⟨action, next.cursor⟩ := by
  obtain ⟨v, hv⟩ := h.reads
  obtain ⟨w, hw⟩ := hnext.reads
  have hboundary := isBoundary_of_append (hv.trans hw).text_eq
  rw [(hv.trans hw).byteSize_eq] at hboundary
  have hdice := hnext.dice h.dice_eq h.dice_le
  refine ⟨hboundary, hboundary.le_utf8ByteSize, ?_, ?_, ?_, ?_, hdice.2⟩
  · intro earlier hearlier
    exact (h.steps_le earlier hearlier).trans hnext.position_le
  · rintro start stop rfl
    exact hnext.canCut
  · rintro rfl earlier hearlier hround
    exact (h.rounds_le earlier hearlier hround).trans hnext.round.1
  · rw [acceptedTerms_concat, h.accepted_eq, ← hnext.accepted_eq]
    exact hdice.1

/-- **What one step preserves**: after it the reading is in the next stage. -/
theorem Holds.step (h : g.Holds text p) (hnext : g.Next text action next) :
    next.Holds text ⟨next.cursor, p.log ++ [⟨action, next.cursor⟩]⟩ := by
  have hdice := hnext.dice h.dice_eq h.dice_le
  refine ⟨rfl, ?_, ?_, hdice.1, hdice.2, ?_, ?_, h.sound.concat (h.sound_step hnext)⟩
  · obtain ⟨v, hv⟩ := h.reads
    obtain ⟨w, hw⟩ := hnext.reads
    exact ⟨_, hv.trans hw⟩
  · rw [acceptedTerms_concat, h.accepted_eq, ← hnext.accepted_eq]
  · refine List.forall_mem_append.mpr ⟨?_, List.forall_mem_singleton.mpr (Nat.le_refl _)⟩
    intro earlier hearlier
    exact (h.steps_le earlier hearlier).trans hnext.position_le
  · refine List.forall_mem_append.mpr ⟨?_, List.forall_mem_singleton.mpr ?_⟩
    · intro earlier hearlier hround
      exact (h.rounds_le earlier hearlier hround).trans hnext.nextRound_le
    · rintro rfl
      exact hnext.round.2

/-- A reading that has done nothing yet is at the start of the text. -/
theorem holds_start (text : String) : Holds text ⟨Scan.start text.toList, [], 0⟩ .start := by
  refine ⟨rfl, ⟨[], rfl, rfl⟩, rfl, rfl, Nat.zero_le _, List.forall_mem_nil _,
    List.forall_mem_nil _, ?_⟩
  intro before step hprefix
  simp [Progress.start] at hprefix

end Stage

end Cursor

end Tabletop
