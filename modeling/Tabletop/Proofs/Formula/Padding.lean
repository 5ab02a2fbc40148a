import Tabletop.Proofs.Formula.Surroundings
import Tabletop.Proofs.Formula.WritingOn

/-!
# Faults Between Blanks

Blanks around a text change nothing about what it is read as, and nothing about **what is wrong**
with it: a fault keeps its kind and what it blames. Only its position counts the blanks too.

The two sides work differently. Blanks in front are skipped before anything else, and what is read
then does not depend on the position at which it stands (`Scan.rounds_movedBy`). Blanks behind end
every word, so terms and signs are read as if nothing followed; but a reading that looks for a term
and finds the end of the text comes to a later end (`Scan.rounds_followedBy_blanks`). Such a text
ends in a **dangling** sign, and its fault is the only one that is not moved with what it blames.

## Main definitions

* `Scan.movedBy`, `Fault.movedBy`: the same state, or fault, further to the right.
* `Scan.ending`: the position at the end of the text.
* `Fault.carriedOver`: a fault with more text behind it, which stays at the end if it is there.
* `Fault.between`: the fault of a text, between blanks.
* `Formula.Dangling`: a formula with a sign behind it that lacks its term.

## Main results

* `Scan.rounds_movedBy`: a reading does not depend on its position.
* `Scan.round_error_cases`: the faults of a round, and which of them is at the end of the text.
* `Scan.rounds_followedBy_blanks`: what blanks behind a text do to the fault of a reading.
* `Formula.fault_cases`: what can be wrong with a text, and when that is at its end.
* `Formula.parse_between`: the fault of a formula between blanks.
* `Formula.blanks_do_not_matter`: what becomes of a text between blanks.
-/

open Tabletop.Text Tabletop.Grammar

namespace Tabletop

/-! ### Blanks in front -/

/-- The fault **moved** to the right by some bytes. -/
def Fault.movedBy (n : Nat) (e : Fault) : Fault :=
  { e with position := e.position + n }

namespace Scan

/-- The state **moved** to the right by some bytes. -/
def movedBy (n : Nat) (s : Scan) : Scan :=
  { s with position := s.position + n }

/-- Where the text stands does not matter to **the run** at its start. -/
theorem run_movedBy (n : Nat) (p : Char → Bool) (s : Scan) : (s.movedBy n).run p = s.run p := by
  rw [run, run, movedBy]

/-- Skipping a run leaves the moved state. -/
theorem skip_movedBy (n : Nat) (p : Char → Bool) (s : Scan) :
    (s.movedBy n).skip p = (s.skip p).movedBy n := by
  simp only [skip, movedBy, run, Nat.add_right_comm]

/-- A constant is read, or refused, further to the right. -/
theorem constant_movedBy (n : Nat) (s : Scan) :
    (s.movedBy n).constant =
      (s.constant.mapError (Fault.movedBy n)).map (Prod.map id (movedBy n)) := by
  rw [constant, constant, run_movedBy, run_movedBy, skip_movedBy]
  iterate 2 (split; · rfl)
  rfl

/-- A group of dice is read, or refused, further to the right. -/
theorem diceGroup_movedBy (n : Nat) (s : Scan) (mark : Char) (rest : List Char) :
    (s.movedBy n).diceGroup mark rest =
      ((s.diceGroup mark rest).mapError (Fault.movedBy n)).map (Prod.map id (movedBy n)) := by
  have hsides : (⟨s.position + n + byteSize (s.run Char.isDigit) + mark.utf8Size, rest,
      s.dice⟩ : Scan) =
      movedBy n ⟨s.position + byteSize (s.run Char.isDigit) + mark.utf8Size, rest, s.dice⟩ := by
    simp only [movedBy, Nat.add_right_comm _ n]
  rw [diceGroup, diceGroup]
  simp only [run_movedBy, show (s.movedBy n).dice = s.dice from rfl,
    show (s.movedBy n).position = s.position + n from rfl, hsides, skip_movedBy]
  iterate 6 (split; · rfl)
  rfl

/-- A term is read, or refused, **further to the right**. -/
theorem term_movedBy (n : Nat) (s : Scan) :
    (s.movedBy n).term = (s.term.mapError (Fault.movedBy n)).map (Prod.map id (movedBy n)) := by
  rcases term_cases s with ⟨mark, rest, hrest, hmark, hterm⟩ | ⟨hstops, hterm⟩
  · have htext : (s.movedBy n).rest = s.run Char.isDigit ++ mark :: rest := by
      rw [← hrest]
      exact List.takeWhile_append_dropWhile.symm
    rw [hterm, term_of_mark htext (fun _ => List.mem_takeWhile_imp) hmark, diceGroup_movedBy]
  · have hstops' : Stops isDiceMark ((s.movedBy n).rest.dropWhile Char.isDigit) := hstops
    rw [hterm, term_of_stops hstops', constant_movedBy]

/-- A round does the same further to the right. -/
theorem round_movedBy (n : Nat) (s : Scan) :
    (s.movedBy n).round =
      (s.round.mapError (Fault.movedBy n)).map (Option.map (Prod.map id (movedBy n))) := by
  rcases rest_skip_cases s with hrest | ⟨c, rest, hrest, hsign⟩ | ⟨sign, rest, hrest⟩
  · have hrest' : ((s.movedBy n).skip isBlank).rest = [] := by rw [skip_movedBy]; exact hrest
    rw [round_of_nil hrest, round_of_nil hrest']
    rfl
  · have hrest' : ((s.movedBy n).skip isBlank).rest = c :: rest := by
      rw [skip_movedBy]
      exact hrest
    rw [round_of_garbage hrest hsign, round_of_garbage hrest' hsign, skip_movedBy]
    rfl
  · have hrest' : ((s.movedBy n).skip isBlank).rest = sign.symbol :: rest := by
      rw [skip_movedBy]
      exact hrest
    have hbehind : (s.movedBy n).behindSign sign rest = (s.behindSign sign rest).movedBy n := by
      rw [behindSign, behindSign, ← skip_movedBy, skip_movedBy]
      simp only [movedBy, Nat.add_right_comm]
    rw [round_of_sign hrest, round_of_sign hrest', hbehind, term_movedBy]
    cases (s.behindSign sign rest).term <;> rfl

/-- **A reading does not depend on its position**: it reads the same terms, or fails in the same
way, further to the right. -/
theorem rounds_movedBy (n : Nat) (s : Scan) :
    (s.movedBy n).rounds = s.rounds.mapError (Fault.movedBy n) := by
  induction s using Scan.rounds.induct with
  | case1 s e hround =>
      have hmoved := round_movedBy n s
      rw [hround] at hmoved
      rw [rounds_of_error hround, rounds_of_error hmoved]
      rfl
  | case2 s hround =>
      have hmoved := round_movedBy n s
      rw [hround] at hmoved
      rw [rounds_of_none hround, rounds_of_none hmoved]
      rfl
  | case3 s t next hround _ hnext ih | case4 s t next hround _ hnext ih =>
      have hmoved := round_movedBy n s
      rw [hround] at hmoved
      rw [rounds_of_some hround, rounds_of_some hmoved]
      exact (congrArg (Except.map (t :: ·)) ih).trans (by rw [hnext]; rfl)

/-! ### Blanks behind -/

/-- The position at the **end** of the text. -/
def ending (s : Scan) : Nat :=
  s.position + byteSize s.rest

/-- Whatever is read, the end of the text stays where it is. -/
theorem Reads.ending_eq {s next : Scan} {w : List Char} (h : s.Reads w next) :
    next.ending = s.ending := by
  rw [ending, ending, h.rest_eq, h.position_eq, byteSize_append, Nat.add_assoc]

/-- Where something is left, the end of the text is **further on**. -/
theorem position_lt_ending {s : Scan} (h : s.rest ≠ []) : s.position < s.ending := by
  rw [ending]
  cases hrest : s.rest with
  | nil => exact absurd hrest h
  | cons c rest =>
      have := c.utf8Size_pos
      rw [byteSize_cons]
      omega

/-- Where only blanks are left, skipping them comes **to the end**. -/
theorem skip_of_blanks {s : Scan} (h : Blanks s.rest) :
    s.skip isBlank = ⟨s.ending, [], s.dice⟩ :=
  skip_eq (List.append_nil s.rest).symm h (stops_nil isBlank)

/-- The faults of a group of dice begin **before the end** of the text: if the sides are too few,
there are sides. -/
theorem position_lt_of_diceGroup {s : Scan} {mark : Char} {rest : List Char} {e : Fault}
    (hrest : s.rest.dropWhile Char.isDigit = mark :: rest)
    (h : s.diceGroup mark rest = .error e) : e.position < s.ending := by
  have hreads := reads_mark hrest
  have hstart : s.position < s.ending := by
    refine position_lt_ending fun hnil => ?_
    rw [hnil] at hrest
    cases hrest
  rw [diceGroup] at h
  split at h
  · cases h
    exact hstart
  rename_i hform
  iterate 4
    split at h
    · cases h
      exact hstart
  split at h
  · cases h
    have hsides : rest ≠ [] := by
      rintro rfl
      exact hform (by simp [run])
    rw [← hreads.ending_eq]
    exact position_lt_ending (s := ⟨_, rest, s.dice⟩) hsides
  · cases h

/-- Where something is left, the faults of a term begin **before the end** of the text. -/
theorem position_lt_of_term {s : Scan} {e : Fault} (hrest : s.rest ≠ []) (h : s.term = .error e) :
    e.position < s.ending := by
  rcases term_cases s with ⟨mark, rest, hmark, -, hterm⟩ | ⟨-, hterm⟩
  · exact position_lt_of_diceGroup hmark (hterm.symm.trans h)
  · have hblames := (blames_of_constant (hterm.symm.trans h)).1
    rw [hblames.position_eq]
    exact position_lt_ending hrest

section Behind

variable {s : Scan} {more : List Char} {e : Fault}

/-- What is blamed up to the end of the text does not take in **blanks behind** it. -/
theorem dropEndBlanks_append_blanks (hmore : Blanks more) (text : List Char) :
    dropEndBlanks (text ++ more) = dropEndBlanks text := by
  have hreverse : ∀ c ∈ more.reverse, isBlank c = true :=
    fun c hc => hmore c (List.mem_reverse.mp hc)
  rw [dropEndBlanks, dropEndBlanks, List.reverse_append, List.dropWhile_append_of_pos hreverse]

end Behind

end Scan

/-- A fault with `n` bytes behind the `ending` of the text: it **stays at the end** if it is there,
and where it is otherwise. -/
def Fault.carriedOver (ending n : Nat) (e : Fault) : Fault :=
  if e.position = ending then e.movedBy n else e

namespace Scan

section Behind

variable {s : Scan} {more : List Char} {e : Fault}

/-- **The faults of a round**: something other than a sign, a fault of the term behind a sign, or
nothing behind a sign. Only the last is at the end of the text. -/
theorem round_error_cases (h : s.round = .error e) :
    (e.position < s.ending ∧
      ((∃ c rest, (s.skip isBlank).rest = c :: rest ∧ Sign.ofSymbol? c = none ∧
          e = (s.skip isBlank).fault .trailingGarbage (dropEndBlanks (s.skip isBlank).rest)) ∨
        ∃ sign rest, (s.skip isBlank).rest = Sign.symbol sign :: rest ∧
          (s.behindSign sign rest).rest ≠ [] ∧ (s.behindSign sign rest).term = .error e)) ∨
    e.position = s.ending ∧ ∃ sign rest, (s.skip isBlank).rest = Sign.symbol sign :: rest ∧
      (s.behindSign sign rest).rest = [] ∧
      e = (s.behindSign sign rest).fault .malformedTerm [] := by
  rcases rest_skip_cases s with hrest | ⟨c, rest, hrest, hsign⟩ | ⟨sign, rest, hrest⟩
  · rw [round_of_nil hrest] at h
    cases h
  · rw [round_of_garbage hrest hsign] at h
    cases h
    have hlt := position_lt_ending (s := s.skip isBlank) (by simp [hrest])
    rw [(reads_skip isBlank s).ending_eq] at hlt
    exact .inl ⟨hlt, .inl ⟨c, rest, hrest, hsign, rfl⟩⟩
  · obtain ⟨u, v, -, -, hreads⟩ := reads_behindSign hrest
    by_cases hterm : (s.behindSign sign rest).rest = []
    · rw [round_of_sign_of_nil hrest hterm] at h
      cases h
      refine .inr ⟨?_, sign, rest, hrest, hterm, rfl⟩
      rw [← hreads.ending_eq, ending, hterm]
      rfl
    · rw [round_of_sign hrest] at h
      cases hread : (s.behindSign sign rest).term with
      | error e' =>
          rw [hread] at h
          cases h
          have hlt := position_lt_of_term hterm hread
          rw [hreads.ending_eq] at hlt
          exact .inl ⟨hlt, .inr ⟨sign, rest, hrest, hterm, hread⟩⟩
      | ok read =>
          rw [hread] at h
          cases h

/-- With blanks behind the text a round comes to **the same fault**, which stays at the end if it is
there. -/
theorem round_followedBy_blanks_error (hmore : Blanks more) (h : s.round = .error e) :
    (s.followedBy more).round = .error (e.carriedOver s.ending (byteSize more)) := by
  have hskip : ∀ {c rest}, (s.skip isBlank).rest = c :: rest →
      (s.followedBy more).skip isBlank = (s.skip isBlank).followedBy more ∧
        ((s.followedBy more).skip isBlank).rest = c :: (rest ++ more) := by
    intro c rest hrest
    have heq : (s.followedBy more).skip isBlank = (s.skip isBlank).followedBy more :=
      skip_followedBy_of_ne_nil (by simp [hrest])
    exact ⟨heq, by rw [heq, followedBy, hrest, List.cons_append]⟩
  rcases round_error_cases h with ⟨hlt, hcases⟩ | ⟨hend, sign, rest, hrest, hterm, rfl⟩
  · rw [Fault.carriedOver, if_neg (Nat.ne_of_lt hlt)]
    rcases hcases with ⟨c, rest, hrest, hsign, rfl⟩ | ⟨sign, rest, hrest, hterm, -⟩
    · obtain ⟨heq, hrest'⟩ := hskip hrest
      rw [round_of_garbage hrest' hsign, heq]
      exact congrArg (fun blamed => Except.error ((s.skip isBlank).fault .trailingGarbage blamed))
        (dropEndBlanks_append_blanks hmore _)
    · rw [round_followedBy hmore.stops_isWordChar hrest hterm, h]
      rfl
  · -- Nothing but blanks stands behind the sign, so the reading comes to the later end.
    obtain ⟨heq, hrest'⟩ := hskip hrest
    have hblanks : Blanks rest := List.dropWhile_eq_nil_iff.mp hterm
    have hmoved : ∀ position, skip isBlank ⟨position, rest ++ more, s.dice⟩ =
        (skip isBlank ⟨position, rest, s.dice⟩).movedBy (byteSize more) := by
      intro position
      rw [skip_of_blanks (s := ⟨position, rest ++ more, s.dice⟩) (hblanks.append hmore),
        skip_of_blanks (s := ⟨position, rest, s.dice⟩) hblanks]
      simp [movedBy, ending, Nat.add_assoc]
    have hbehind : (s.followedBy more).behindSign sign (rest ++ more) =
        (s.behindSign sign rest).movedBy (byteSize more) := by
      rw [behindSign, heq]
      exact hmoved _
    rw [round_of_sign_of_nil hrest' (by rw [hbehind]; exact hterm), hbehind, Fault.carriedOver,
      if_pos hend]
    rfl

/-- With blanks behind the text a reading comes to **the same terms, or the same fault**, which
stays at the end if it is there. -/
theorem rounds_followedBy_blanks (hmore : Blanks more) (s : Scan) :
    (s.followedBy more).rounds =
      s.rounds.mapError (Fault.carriedOver s.ending (byteSize more)) := by
  induction s using Scan.rounds.induct with
  | case1 s e hround =>
      rw [rounds_of_error hround, rounds_of_error (round_followedBy_blanks_error hmore hround)]
      rfl
  | case2 s hround =>
      have hblanks : Blanks (s.rest ++ more) := (round_eq_none_iff.mp hround).append hmore
      have hround' : (s.followedBy more).round = .ok none := round_eq_none_iff.mpr hblanks
      rw [rounds_of_none hround, rounds_of_none hround']
      rfl
  | case3 s t next hround e hnext ih =>
      obtain ⟨u, v, w, m, -, -, hsign, -, hterm⟩ := round_eq_some hround
      have hend := (hsign.trans hterm.toReads).ending_eq
      rw [rounds_of_some hround,
        rounds_of_some (round_followedBy_some hmore.stops_isWordChar hround), ih, hnext, hend]
      rfl
  | case4 s t next hround others hnext ih =>
      rw [rounds_of_some hround,
        rounds_of_some (round_followedBy_some hmore.stops_isWordChar hround), ih, hnext]
      rfl

end Behind

/-! ### Where readings fail -/

/-- A reading fails **in some round**, behind what it has read until then. -/
theorem rounds_eq_error {s : Scan} {e : Fault} (h : s.rounds = .error e) :
    ∃ front ts m, Continuation front ts ∧ s.Reads front m ∧
      (s.dice ≤ 2000 → s.dice + diceOf ts ≤ 2000) ∧ m.round = .error e := by
  induction s using Scan.rounds.induct with
  | case1 s e' hround =>
      rw [rounds_of_error hround] at h
      cases h
      exact ⟨[], [], s, .done blanks_nil, ⟨rfl, rfl⟩, id, hround⟩
  | case2 s hround =>
      rw [rounds_of_none hround] at h
      cases h
  | case3 s t next hround e' hnext ih =>
      rw [rounds_of_some hround, hnext] at h
      cases h
      obtain ⟨front, ts, m, hfront, hreads, hdice, hfail⟩ := ih hnext
      obtain ⟨u, v, w, m', hu, hv, hsign, hm, hterm⟩ := round_eq_some hround
      refine ⟨_, t :: ts, m, .more hu hv hterm.termText hfront, ?_, ?_, hfail⟩
      · have hall := (hsign.trans hterm.toReads).trans hreads
        simpa only [List.append_assoc, List.cons_append] using hall
      · intro hle
        have hnext_le := hdice (hterm.dice_le (hm ▸ hle))
        rw [hterm.dice_eq, hm] at hnext_le
        rw [diceOf_cons]
        omega
  | case4 s t next hround others hnext _ =>
      rw [rounds_of_some hround, hnext] at h
      cases h

/-- No fault of a term is that the text is blank. -/
theorem kind_ne_emptyInput_of_term {s : Scan} {e : Fault} (h : s.term = .error e) :
    e.kind ≠ .emptyInput := by
  rcases term_cases s with ⟨mark, rest, -, -, hterm⟩ | ⟨-, hterm⟩
  · rw [hterm, diceGroup] at h
    iterate 6
      split at h
      · cases h
        simp [fault]
    cases h
  · rw [hterm, constant] at h
    iterate 2
      split at h
      · cases h
        simp [fault]
    cases h

/-- No fault of a reading is that the text is blank. -/
theorem kind_ne_emptyInput_of_rounds {s : Scan} {e : Fault} (h : s.rounds = .error e) :
    e.kind ≠ .emptyInput := by
  obtain ⟨-, -, m, -, -, -, hround⟩ := rounds_eq_error h
  rcases round_error_cases hround with ⟨-, ⟨_, _, -, -, rfl⟩ | ⟨_, _, -, -, hterm⟩⟩ |
    ⟨-, _, _, -, -, rfl⟩
  · exact nofun
  · exact kind_ne_emptyInput_of_term hterm
  · exact nofun

end Scan

/-! ### Formulas between blanks -/

/-- The text is a formula with a **dangling sign**: nothing but blanks stands behind it. -/
def Formula.Dangling (text : String) : Prop :=
  ∃ front sign v, text = front ++ String.singleton (Sign.symbol sign) ++ v ∧ Blanks v.toList ∧
    ∃ f, Formula.parse front = .ok f

/-- The fault of a text, **between blanks**: it is moved by those in front, and stays at the end if
it is there. -/
def Fault.between (u text v : String) (e : Fault) : Fault :=
  (e.carriedOver text.utf8ByteSize v.utf8ByteSize).movedBy u.utf8ByteSize

/-- A reading comes to the first term **behind the blanks** in front of a text. -/
theorem Scan.atFirst_between {u text : List Char} (hu : Blanks u) (v : List Char)
    (hrest : (atFirst text).rest ≠ []) :
    atFirst (u ++ text ++ v) = ((atFirst text).followedBy v).movedBy (byteSize u) := by
  have htext : (start (u ++ text ++ v)).rest = u ++ (text ++ v) := List.append_assoc u text v
  have hmoved : (⟨0 + byteSize u, text ++ v, 0⟩ : Scan) =
      (start (text ++ v)).movedBy (byteSize u) := rfl
  have hskip : atFirst (u ++ text ++ v) = (atFirst (text ++ v)).movedBy (byteSize u) := by
    rw [atFirst, skip_of_append htext hu]
    exact (congrArg (skip isBlank) hmoved).trans (skip_movedBy _ _ _)
  rw [hskip, atFirst_append hrest]

section Between

variable {u v text : String} {e : Fault}

/-- Blanks around a text are **stripped** with its own. -/
theorem strip_between (hu : Blanks u.toList) (hv : Blanks v.toList) :
    strip (u ++ text ++ v) = strip text := by
  obtain ⟨u', v', hu', hv', htext, hfront, hback⟩ := trimmed_trim text.toList
  have htrimmed : Trimmed (u ++ text ++ v).toList (trim text.toList) := by
    refine ⟨u.toList ++ u', v' ++ v.toList, hu.append hu', hv'.append hv, ?_, hfront, hback⟩
    rw [String.toList_append, String.toList_append]
    conv_lhs => rw [htext]
    simp only [List.append_assoc]
  rw [strip, strip, ← trimmed_iff.mp htrimmed]

/-- The first term is read on the way to **the end of the text**. -/
theorem Scan.ending_atFirst (text : String) :
    (atFirst text.toList).ending = text.utf8ByteSize := by
  rw [← byteSize_toList]
  exact (reads_skip isBlank (start text.toList)).ending_eq.trans (Nat.zero_add _)

/-- A text that is not blank is read **between blanks** as it is alone, and its fault is the fault
between blanks. -/
theorem Formula.parse_between (hu : Blanks u.toList) (hv : Blanks v.toList)
    (hrest : (Scan.atFirst text.toList).rest ≠ []) :
    Formula.parse (u ++ text ++ v) = (Formula.parse text).mapError (Fault.between u text v) := by
  have hend := Scan.ending_atFirst text
  have hfirst : Scan.atFirst (u ++ text ++ v).toList =
      ((Scan.atFirst text.toList).followedBy v.toList).movedBy u.utf8ByteSize := by
    rw [String.toList_append, String.toList_append, Scan.atFirst_between hu _ hrest,
      byteSize_toList]
  have hrest' : (Scan.atFirst (u ++ text ++ v).toList).rest ≠ [] := by
    rw [hfirst]
    exact List.append_ne_nil_of_left_ne_nil hrest _
  have hterm' := Scan.term_movedBy u.utf8ByteSize
    ((Scan.atFirst text.toList).followedBy v.toList)
  rw [← hfirst, Scan.term_followedBy hv.stops_isWordChar] at hterm'
  cases hterm : (Scan.atFirst text.toList).term with
  | error e =>
      rw [hterm] at hterm'
      have hlt := Scan.position_lt_of_term hrest hterm
      rw [hend] at hlt
      rw [Formula.parse_of_error hrest hterm, Formula.parse_of_error hrest' hterm']
      change _ = Except.error (e.between u text v)
      rw [Fault.between, Fault.carriedOver, if_neg (Nat.ne_of_lt hlt)]
  | ok read =>
      obtain ⟨first, next⟩ := read
      obtain ⟨w, hw⟩ := Scan.term_eq_ok hterm
      rw [hterm] at hterm'
      rw [Formula.parse_of_ok hrest hterm, Formula.parse_of_ok hrest' hterm', strip_between hu hv,
        Scan.rounds_movedBy, Scan.rounds_followedBy_blanks hv, hw.ending_eq, hend, byteSize_toList]
      cases next.rounds <;> rfl

/-- A reading that fails at the end of the text has come there behind **a dangling sign**. -/
theorem Formula.dangling_of_rounds {first : Term} {next : Scan}
    (hterm : (Scan.atFirst text.toList).term = .ok (first, next)) (h : next.rounds = .error e)
    (hposition : e.position = text.utf8ByteSize) : Formula.Dangling text := by
  obtain ⟨w, hw⟩ := Scan.term_eq_ok hterm
  obtain ⟨front, ts, m, hfront, hm, hdice, hround⟩ := Scan.rounds_eq_error h
  have hend : m.ending = text.utf8ByteSize := by
    rw [hm.ending_eq, hw.ending_eq, Scan.ending_atFirst]
  rcases Scan.round_error_cases hround with ⟨hlt, -⟩ | ⟨-, sign, rest, hrest, hnil, -⟩
  · exact absurd (hend ▸ hposition) (Nat.ne_of_lt hlt)
  · obtain ⟨u, v, hu, hv, hbehind⟩ := Scan.reads_behindSign hrest
    have hblanks := Scan.blanks_run (Scan.start text.toList)
    have hfirst := Scan.reads_skip isBlank (Scan.start text.toList)
    have hread : text.toList = _ := (hfirst.trans (hw.toReads.trans (hm.trans hbehind))).rest_eq
    rw [hnil, List.append_nil] at hread
    have hsentence : Sentence (String.ofList ((Scan.start text.toList).run isBlank ++
        (w ++ (front ++ u)))).toList (⟨.plus, first⟩ :: (ts ++ [])) := by
      rw [String.toList_ofList]
      exact .mk hblanks hw.termText (hfront.append (.done hu))
    have hcount : diceOf (⟨.plus, first⟩ :: (ts ++ [])) ≤ 2000 := by
      have hle := hdice (hw.dice_le (Nat.zero_le _))
      have hzero : (Scan.atFirst text.toList).dice = 0 := rfl
      rw [hw.dice_eq, hzero, Nat.zero_add] at hle
      rwa [List.append_nil, diceOf_cons]
    refine ⟨_, sign, String.ofList v, ?_, by rwa [String.toList_ofList], _,
      Formula.parse_of_sentence hsentence hcount⟩
    rw [← String.toList_inj]
    simpa using hread

/-- **What is wrong with a text**: it is blank; or it is not, and then its fault is at the end of
the text only behind a dangling sign. -/
theorem Formula.fault_cases (h : Formula.parse text = .error e) :
    (Blanks text.toList ∧ e = ⟨.emptyInput, 0, ""⟩) ∨
      e.kind ≠ .emptyInput ∧ (Scan.atFirst text.toList).rest ≠ [] ∧
        (e.position = text.utf8ByteSize → Formula.Dangling text) := by
  rcases eq_or_ne (Scan.atFirst text.toList).rest [] with hrest | hrest
  · rw [Formula.parse_of_nil hrest] at h
    cases h
    exact .inl ⟨List.dropWhile_eq_nil_iff.mp hrest, rfl⟩
  refine .inr ?_
  cases hterm : (Scan.atFirst text.toList).term with
  | error e' =>
      rw [Formula.parse_of_error hrest hterm] at h
      cases h
      have hlt := Scan.position_lt_of_term hrest hterm
      rw [Scan.ending_atFirst] at hlt
      exact ⟨Scan.kind_ne_emptyInput_of_term hterm, hrest,
        fun heq => absurd heq (Nat.ne_of_lt hlt)⟩
  | ok read =>
      rw [Formula.parse_of_ok hrest hterm] at h
      cases hrounds : read.2.rounds with
      | ok others =>
          rw [hrounds] at h
          cases h
      | error e' =>
          rw [hrounds] at h
          cases h
          exact ⟨Scan.kind_ne_emptyInput_of_rounds hrounds, hrest,
            Formula.dangling_of_rounds hterm hrounds⟩

/-- **Blanks around a text do not matter.** A formula is read between blanks as it is alone, and so
is what is kept of it. A blank text stays one. Any other fault keeps its kind and its fragment, and
is moved by the blanks in front; only the fault of a dangling sign, at the end of the text, is at
the end again. -/
theorem Formula.blanks_do_not_matter (hu : Blanks u.toList) (hv : Blanks v.toList)
    (text : String) :
    (∀ f, Formula.parse text = .ok f →
      Formula.parse (u ++ text ++ v) = .ok f ∧ Formula.parse f.source = .ok f) ∧
    (∀ e, Formula.parse text = .error e → e.kind = .emptyInput →
      ∃ e', Formula.parse (u ++ text ++ v) = .error e' ∧ e'.kind = .emptyInput ∧
        e'.position = 0) ∧
    ∀ e, Formula.parse text = .error e → e.kind ≠ .emptyInput →
      ∃ e', Formula.parse (u ++ text ++ v) = .error e' ∧ e'.kind = e.kind ∧
        e'.fragment = e.fragment ∧
        (e.position ≠ text.utf8ByteSize → e'.position = u.utf8ByteSize + e.position) ∧
        (e.position = text.utf8ByteSize →
          Formula.Dangling text ∧ e'.position = (u ++ text ++ v).utf8ByteSize) := by
  refine ⟨fun f hf => ⟨?_, Formula.parse_source hf⟩, fun e he hkind => ?_, fun e he hkind => ?_⟩
  · rw [← Formula.parse_strip, strip_between hu hv, Formula.parse_strip]
    exact hf
  · rcases Formula.fault_cases he with ⟨hblank, -⟩ | ⟨hne, -⟩
    · have hall : Blanks (u ++ text ++ v).toList := by
        rw [String.toList_append, String.toList_append]
        exact (hu.append hblank).append hv
      exact ⟨_, Formula.parse_of_nil (List.dropWhile_eq_nil_iff.mpr hall), rfl, rfl⟩
    · exact absurd hkind hne
  · rcases Formula.fault_cases he with ⟨-, rfl⟩ | ⟨-, hrest, hdangling⟩
    · exact absurd rfl hkind
    · have hparse := Formula.parse_between hu hv hrest
      rw [he] at hparse
      refine ⟨_, hparse, ?_⟩
      by_cases hend : e.position = text.utf8ByteSize
      · rw [Fault.between, Fault.carriedOver, if_pos hend]
        refine ⟨rfl, rfl, fun hne => absurd hend hne, fun _ => ⟨hdangling hend, ?_⟩⟩
        rw [String.utf8ByteSize_append, String.utf8ByteSize_append]
        simp only [Fault.movedBy]
        omega
      · rw [Fault.between, Fault.carriedOver, if_neg hend]
        exact ⟨rfl, rfl, fun _ => Nat.add_comm _ _, fun heq => absurd heq hend⟩

end Between

/-- Between an em space and a tab, the dangling sign of `1d4 +` is still blamed at the end, and `é`
in `1d4 é` three bytes further to the right. -/
theorem Formula.blanks_do_not_matter_dangling :
    Formula.parse "1d4 +" = .error ⟨.malformedTerm, 5, ""⟩ ∧
    Formula.parse "1d4 é" = .error ⟨.trailingGarbage, 4, "é"⟩ ∧
    (∃ e, Formula.parse "\u20031d4 +\t" = .error e ∧ e.kind = .malformedTerm ∧ e.position = 9) ∧
    ∃ e, Formula.parse "\u20031d4 é\t" = .error e ∧ e.fragment = "é" ∧ e.position = 7 := by
  have hu : Blanks "\u2003".toList := List.forall_mem_singleton.mpr (by decide)
  have hv : Blanks "\t".toList := List.forall_mem_singleton.mpr (by decide)
  have hsign : Formula.parse "1d4 +" = .error ⟨.malformedTerm, 5, ""⟩ := by decide +kernel
  have hgarbage : Formula.parse "1d4 é" = .error ⟨.trailingGarbage, 4, "é"⟩ := by decide +kernel
  obtain ⟨e, he, hkind, -, -, hend⟩ :=
    (Formula.blanks_do_not_matter hu hv "1d4 +").2.2 _ hsign (by decide)
  obtain ⟨e', he', -, hfragment, hmoved, -⟩ :=
    (Formula.blanks_do_not_matter hu hv "1d4 é").2.2 _ hgarbage (by decide)
  exact ⟨hsign, hgarbage, ⟨e, he, hkind, (hend rfl).2⟩, e', he', hfragment, hmoved (by decide)⟩

end Tabletop
