import Tabletop.Proofs.Formula.CursorLog

/-!
# Readings with a Cursor End Well

The reading of a text with a cursor **ends, cuts only where the text can be cut, and comes to what
`Formula.parse` comes to**. Every single step of it is sound, whatever the text is.

The proof keeps the cursor and a `Scan` side by side. Every part of a reading is compared with the
part of the scan that it spells out (`Agrees`), one after another as the reading goes: it gives what
the scan gives and is in the stage that the scan is in, or it stops at the fault that the scan
finds.

That the loops end is a matter of this comparison too. A run of characters ends because what is left
of the text gets shorter, and the rounds end because the rounds of the scan do.

## Main definitions

* `Cursor.Agrees`: that a reading comes to what a scan comes to.

## Main results

* `Cursor.Agrees.bind`: readings are compared one after another.
* `Cursor.Stage.Holds.agrees_cut`, `Cursor.Stage.Holds.agrees_skip`: no cut fails, and runs end.
* `Cursor.Stage.Holds.agrees_term`, `Cursor.Stage.Holds.agrees_rounds`: terms and rounds.
* `Formula.cursor_never_slips`: the reading of a text.
-/

open Tabletop.Text

namespace Tabletop

namespace Scan

variable {s : Scan}

/-- Where the next character is not in the class, **nothing is skipped**. -/
theorem skip_eq_self {inClass : Char → Bool} (h : s.run inClass = []) : s.skip inClass = s := by
  have hrest := (reads_skip inClass s).rest_eq
  rw [h, List.nil_append] at hrest
  rw [skip, h, show s.rest.dropWhile inClass = s.rest from hrest.symm]
  rfl

/-- A round that reads a term moves on by **two bytes or more**, for a sign and a term. -/
theorem position_add_two_le {next : Scan} {t : SignedTerm}
    (h : s.round = .ok (some (t, next))) : s.position + 2 ≤ next.position := by
  obtain ⟨u, v, w, m, -, -, hsign, -, hterm⟩ := round_eq_some h
  have hpos := List.length_pos_iff.mpr hterm.termText.ne_nil
  have hle := length_le_byteSize ((u ++ t.sign.symbol :: v) ++ w)
  rw [hterm.position_eq, hsign.position_eq, Nat.add_assoc, ← byteSize_append]
  refine Nat.add_le_add_left (Nat.le_trans ?_ hle) _
  simp only [List.length_append, List.length_cons]
  omega

end Scan

namespace Cursor

/-! ### Comparing readings with scans -/

/-- A reading **agrees** with what a scan comes to: it gives the same value and is in the stage that
belongs to it, or it stops at the same fault, and its log is sound. -/
inductive Agrees {α : Type} (text : String) (m : Reading α) (p : Progress) :
    Except Fault (α × Stage) → Prop
  /-- The reading goes on. -/
  | goesOn {a : α} {g : Stage} {q : Progress} :
      m.Runs p (.ok a) q → g.Holds text q → Agrees text m p (.ok (a, g))
  /-- The reading stops. -/
  | stops {e : Fault} {q : Progress} :
      m.Runs p (.error (.fault e)) q → SoundLog text q.log → Agrees text m p (.error e)

section Agreement

variable {text : String} {α β : Type} {m : Reading α} {f : α → Reading β} {p q : Progress}
  {g next : Stage} {action : Action} {s : Scan} {ts : List Term} {n : Nat}

/-- Behind a reading that has given its value, what **the next one** agrees with both agree with. -/
theorem Reading.Runs.agrees {a : α} {outcome : Except Fault (β × Stage)}
    (hm : m.Runs p (.ok a) q) (hf : Agrees text (f a) q outcome) :
    Agrees text (m >>= f) p outcome := by
  cases hf with
  | goesOn hruns hholds => exact .goesOn (hm.bind hruns) hholds
  | stops hruns hsound => exact .stops (hm.bind hruns) hsound

/-- Readings are compared **one after another**. -/
theorem Agrees.bind {a : α} {outcome : Except Fault (β × Stage)}
    (hm : Agrees text m p (.ok (a, g)))
    (hf : ∀ q, g.Holds text q → Agrees text (f a) q outcome) :
    Agrees text (m >>= f) p outcome := by
  cases hm with
  | goesOn hruns hholds => exact hruns.agrees (hf _ hholds)

/-- The same, where the last stage is known only when the readings have ended. -/
theorem Agrees.bind_exists {ι : Type} {a : α} {outcome : ι → Except Fault (β × Stage)}
    (hm : Agrees text m p (.ok (a, g)))
    (hf : ∀ q, g.Holds text q → ∃ i, Agrees text (f a) q (outcome i)) :
    ∃ i, Agrees text (m >>= f) p (outcome i) := by
  cases hm with
  | goesOn hruns hholds =>
      obtain ⟨i, hlast⟩ := hf _ hholds
      exact ⟨i, hruns.agrees hlast⟩

/-- Where the first reading stops, the whole stops **at the same fault**. -/
theorem Agrees.bind_error {e : Fault} (hm : Agrees text m p (.error e)) :
    Agrees text (m >>= f) p (.error e) := by
  cases hm with
  | stops hruns hsound => exact .stops hruns.bind_error hsound

/-- The value that a reading gives **may be changed**, which no fault takes notice of. -/
theorem Agrees.map {γ : Type} {read : Except Fault γ} {lift : γ → α × Stage}
    {outcome : Except Fault (β × Stage)} (hm : Agrees text m p (read.map lift)) (change : α → β)
    (houtcome : outcome = read.map fun x => (change (lift x).1, (lift x).2)) :
    Agrees text (m >>= fun a => pure (change a)) p outcome := by
  rw [houtcome]
  cases read with
  | error e => exact hm.bind_error
  | ok x => exact hm.bind fun q h => .goesOn (Reading.runs_pure _ q) h

namespace Stage.Holds

/-- Giving a value leaves the stage as it is. -/
theorem agrees_pure (h : g.Holds text p) (a : α) : Agrees text (pure a) p (.ok (a, g)) :=
  .goesOn (Reading.runs_pure a p) h

/-- Refusing the text stops **at the fault** that is named. -/
theorem agrees_refuse (h : g.Holds text p) (kind : Fault.Kind) (position : Nat)
    (fragment : List Char) :
    Agrees text (refuse kind position fragment : Reading α) p
      (.error ⟨kind, position, String.ofList fragment⟩) :=
  .stops (Reading.runs_throw _ p) h.sound

/-- The cursor stands **where the scan does**. -/
theorem agrees_currentPosition (h : g.Holds text p) :
    Agrees text currentPosition p (.ok (g.scan.position, g)) := by
  have hposition : p.cursor.position = g.scan.position := congrArg Cursor.position h.cursor_eq
  rw [← hposition]
  exact .goesOn ((Reading.runs_get p).bind (Reading.runs_pure _ p)) h

/-- The cursor has counted the dice that the scan has. -/
theorem agrees_currentDice (h : g.Holds text p) :
    Agrees text currentDice p (.ok (g.scan.dice, g)) := by
  have hdice : p.cursor.dice = g.scan.dice := congrArg Cursor.dice h.cursor_eq
  rw [← hdice]
  exact .goesOn ((Reading.runs_get p).bind (Reading.runs_pure _ p)) h

/-- A step is taken if it **leads to the next stage**. -/
theorem agrees_step (h : g.Holds text p) (hnext : g.Next text action next)
    {change : Cursor → Cursor} (hchange : change g.cursor = next.cursor) :
    Agrees text (Cursor.step action change) p (.ok ((), next)) := by
  refine .goesOn ?_ (h.step hnext)
  rw [← hchange, ← h.cursor_eq]
  exact Reading.runs_step action change p

/-- A term is accepted if its dice are **not too many**. -/
theorem agrees_accept (h : Holds text ⟨s, ts, n⟩ p) (t : Term)
    (hdice : s.dice + t.diceCount ≤ 2000) :
    Agrees text (accept t) p
      (.ok (t, ⟨{ s with dice := s.dice + t.diceCount }, ts ++ [t], n⟩)) :=
  (h.agrees_step (.accept hdice) rfl).bind fun _ h => h.agrees_pure t

/-! ### Cuts -/

/-- Any part of the text is **cut out without failing**. -/
theorem agrees_cut_of_append (h : g.Holds text p) {before part after : List Char}
    (htext : text.toList = before ++ (part ++ after)) :
    Agrees text (cut text (byteSize before) (byteSize (before ++ part))) p (.ok (part, g)) := by
  refine (h.agrees_step (.cut (canCut_of_append htext)) rfl).bind fun q h => ?_
  rw [cut?_of_append htext]
  exact h.agrees_pure part

/-- What has been read **since some state** of the scan is cut out. -/
theorem agrees_cut (h : g.Holds text p) {v w : List Char}
    (hstart : (Scan.start text.toList).Reads v s) (hreads : s.Reads w g.scan) :
    Agrees text (cut text s.position g.scan.position) p (.ok (w, g)) := by
  have htrans := hstart.trans hreads
  have hcut := h.agrees_cut_of_append (htrans.text_eq.trans (List.append_assoc ..))
  rwa [hstart.byteSize_eq, htrans.byteSize_eq] at hcut

/-- What is cut out from the cursor to the end is **what the scan has left**. -/
theorem agrees_rest (h : g.Holds text p) :
    Agrees text (rest text) p (.ok (g.scan.rest, g)) := by
  obtain ⟨w, hw⟩ := h.reads
  refine h.agrees_currentPosition.bind fun q h => ?_
  have htext : text.toList = w ++ (g.scan.rest ++ []) := by
    rw [List.append_nil]
    exact hw.text_eq
  have hcut := h.agrees_cut_of_append htext
  rwa [hw.byteSize_eq, ← hw.text_eq, byteSize_toList] at hcut

/-- The next character is the first that the scan has left. -/
theorem agrees_peek (h : g.Holds text p) :
    Agrees text (peek text) p (.ok (g.scan.rest.head?, g)) :=
  h.agrees_rest.bind fun _ h => h.agrees_pure _

/-! ### Runs of characters -/

/-- Moving the cursor takes **one character** from what the scan has left. -/
theorem agrees_bump (h : Holds text ⟨s, ts, n⟩ p) {c : Char} {rest : List Char}
    (hrest : s.rest = c :: rest) :
    Agrees text (bump text) p (.ok ((), ⟨⟨s.position + c.utf8Size, rest, s.dice⟩, ts, n⟩)) := by
  refine h.agrees_peek.bind fun q h => ?_
  rw [hrest]
  exact h.agrees_step (.move hrest) rfl

/-- A run is **skipped to its end**: every character moves the cursor, and leaves less. -/
theorem agrees_skip (h : Holds text ⟨s, ts, n⟩ p) (inClass : Char → Bool) :
    Agrees text (skip text inClass) p (.ok ((), ⟨s.skip inClass, ts, n⟩)) := by
  -- The loop takes one turn for each character of the run, and one more to find its end.
  induction hrest : s.rest generalizing s p with
  | nil =>
      rw [skip_eq, Scan.skip_eq_self (by rw [Scan.run, hrest, List.takeWhile_nil])]
      refine h.agrees_peek.bind fun q h => ?_
      rw [if_neg (by simp [hrest])]
      exact h.agrees_pure ()
  | cons c rest ih =>
      rw [skip_eq]
      refine h.agrees_peek.bind fun q h => ?_
      by_cases hc : inClass c = true
      · rw [if_pos (by simpa [hrest] using hc),
          Scan.skip_of_append (w := [c]) hrest (List.forall_mem_singleton.mpr hc)]
        exact (h.agrees_bump hrest).bind fun _ h => ih h rfl
      · rw [if_neg (by simpa [hrest] using hc),
          Scan.skip_eq_self (by rw [Scan.run, hrest, List.takeWhile_cons_of_neg hc])]
        exact h.agrees_pure ()

/-- The run that is cut out is that which the scan reads: the cursor was in front of it before, and
is behind it now. -/
theorem agrees_run (h : Holds text ⟨s, ts, n⟩ p) (inClass : Char → Bool) :
    Agrees text (run text inClass) p (.ok (s.run inClass, ⟨s.skip inClass, ts, n⟩)) := by
  obtain ⟨w, hw⟩ := h.reads
  refine h.agrees_currentPosition.bind fun q h => ?_
  refine (h.agrees_skip inClass).bind fun q h => ?_
  refine h.agrees_currentPosition.bind fun q h => ?_
  exact h.agrees_cut hw (s.reads_skip inClass)

end Stage.Holds

/-! ### Terms -/

/-- The stage **behind a term** that has been read. -/
def Stage.afterTerm (ts : List Term) (n : Nat) (read : Term × Scan) : Term × Stage :=
  (read.1, ⟨read.2, ts ++ [read.1], n⟩)

namespace Stage.Holds

/-- Behind its digits a constant is read **as by the scan**. -/
theorem agrees_constant (h : Holds text ⟨s.skip Char.isDigit, ts, n⟩ p) :
    Agrees text (constant text s.position (s.run Char.isDigit)) p
      (s.constant.map (afterTerm ts n)) := by
  rw [Cursor.constant, Scan.constant]
  split_ifs with hempty hlarge
  · rw [Scan.skip_eq_self (List.isEmpty_iff.mp hempty)] at h
    exact (h.agrees_run Scan.isWordChar).bind fun _ h => h.agrees_refuse _ _ _
  · exact h.agrees_refuse _ _ _
  · exact h.agrees_accept (.constant _) h.dice_le

/-- Behind the digits of its count a group of dice is read **as by the scan**. -/
theorem agrees_diceGroup (h : Holds text ⟨s.skip Char.isDigit, ts, n⟩ p) {mark : Char}
    {rest : List Char} (hstart : ∃ v, (Scan.start text.toList).Reads v s)
    (hrest : s.rest.dropWhile Char.isDigit = mark :: rest) :
    Agrees text (diceGroup text s.position (s.run Char.isDigit)) p
      ((s.diceGroup mark rest).map (afterTerm ts n)) := by
  obtain ⟨v, hv⟩ := hstart
  have hmark := Scan.reads_mark hrest
  rw [Cursor.diceGroup, Scan.diceGroup]
  refine (h.agrees_bump hrest).bind fun q h => ?_
  change Holds text ⟨⟨s.position + byteSize (s.run Char.isDigit) + mark.utf8Size, rest, s.dice⟩,
    ts, n⟩ q at h
  generalize hsides : Scan.mk (s.position + byteSize (s.run Char.isDigit) + mark.utf8Size) rest
    s.dice = sides at h hmark ⊢
  refine h.agrees_currentPosition.bind fun q h => ?_
  refine (h.agrees_run Char.isDigit).bind fun q h => ?_
  refine h.agrees_currentPosition.bind fun q h => ?_
  have hgroup := hmark.trans (sides.reads_skip Char.isDigit)
  rw [List.append_assoc, List.singleton_append] at hgroup
  refine (h.agrees_cut hv hgroup).bind fun q h => ?_
  refine h.agrees_currentDice.bind fun q h => ?_
  have hdice : (sides.skip Char.isDigit).dice = s.dice := by rw [← hsides]; rfl
  dsimp only
  rw [hdice]
  split_ifs with hform hzero hterm hformula hlarge hsmall
  -- The cursor moves no further before a refusal, so the faults are blamed on the same places.
  iterate 6 · exact h.agrees_refuse _ _ _
  · have hle : (sides.skip Char.isDigit).dice + numeralValue (s.run Char.isDigit) ≤ 2000 := by
      rw [hdice]
      exact not_lt.mp hformula
    have haccept := h.agrees_accept (.dice _ (numeralValue (sides.run Char.isDigit))) hle
    rw [hdice] at haccept
    exact haccept

/-- A term is read **as by the scan**. Behind its digits it is decided whether it is a group of
dice. -/
theorem agrees_term (h : Holds text ⟨s, ts, n⟩ p) :
    Agrees text (Cursor.term text) p (s.term.map (afterTerm ts n)) := by
  have hstart := h.reads
  refine h.agrees_currentPosition.bind fun q h => ?_
  refine (h.agrees_run Char.isDigit).bind fun q h => ?_
  refine h.agrees_peek.bind fun q h => ?_
  rcases s.term_cases with ⟨mark, rest, hrest, hmark, hterm⟩ | ⟨hstop, hterm⟩
  · have hnext : (s.skip Char.isDigit).rest.head?.any Scan.isDiceMark = true := by
      rw [show (s.skip Char.isDigit).rest = mark :: rest from hrest]
      exact hmark
    rw [if_pos hnext, hterm]
    exact h.agrees_diceGroup hstart hrest
  · have hnext : ¬ (s.skip Char.isDigit).rest.head?.any Scan.isDiceMark = true := by
      rw [Option.any_eq_true]
      rintro ⟨c, hc, hmark⟩
      rw [hstop c hc] at hmark
      cases hmark
    rw [if_neg hnext, hterm]
    exact h.agrees_constant

end Stage.Holds

/-! ### Rounds -/

/-- The stage **behind a round** that began in this state of the scan. -/
def Stage.afterRound (s : Scan) (ts : List Term) :
    Option (SignedTerm × Scan) → Option SignedTerm × Stage
  | none => (none, ⟨s.skip isBlank, ts, s.position + 2⟩)
  | some (t, next) => (some t, ⟨next, ts ++ [t.term], s.position + 2⟩)

namespace Stage.Holds

/-- Where it may begin, a round is read **as by the scan**. -/
theorem agrees_round (h : Holds text ⟨s, ts, n⟩ p) (hn : n ≤ s.position) :
    Agrees text (Cursor.round text) p (s.round.map (afterRound s ts)) := by
  refine (h.agrees_step (.beginRound hn) rfl).bind fun q h => ?_
  refine (h.agrees_skip isBlank).bind fun q h => ?_
  refine h.agrees_peek.bind fun q h => ?_
  rcases s.rest_skip_cases with hrest | ⟨c, rest, hrest, hsign⟩ | ⟨sign, rest, hrest⟩
  · rw [Scan.round_of_nil hrest, hrest]
    exact h.agrees_pure none
  · rw [Scan.round_of_garbage hrest hsign]
    simp only [hrest, List.head?_cons, hsign]
    refine h.agrees_currentPosition.bind fun q h => ?_
    refine h.agrees_rest.bind fun q h => ?_
    rw [hrest]
    exact h.agrees_refuse _ _ _
  · rw [Scan.round_of_sign hrest]
    simp only [hrest, List.head?_cons, Sign.ofSymbol?_symbol]
    refine (h.agrees_bump hrest).bind fun q h => ?_
    refine (h.agrees_skip isBlank).bind fun q h => ?_
    have hterm : Agrees text (Cursor.term text) q
        ((s.behindSign sign rest).term.map (afterTerm ts (s.position + 2))) := h.agrees_term
    refine hterm.map _ ?_
    cases (s.behindSign sign rest).term <;> rfl

/-- Where the first one may begin, rounds are read **as by the scan**, one after another. -/
theorem agrees_rounds (h : Holds text ⟨s, ts, n⟩ p) (hn : n ≤ s.position)
    (terms : List SignedTerm) :
    ∃ last : Stage, Agrees text (Cursor.rounds text terms) p (s.rounds.map fun us =>
      (terms ++ us, { last with accepted := ts ++ us.map SignedTerm.term })) := by
  induction s using Scan.rounds.induct generalizing ts n p terms with
  | case1 s e hstop =>
      have hround := h.agrees_round hn
      rw [hstop] at hround
      rw [rounds_eq, Scan.rounds_of_error hstop]
      exact ⟨⟨s, ts, n⟩, hround.bind_error⟩
  | case2 s hnone =>
      have hround := h.agrees_round hn
      rw [hnone] at hround
      rw [rounds_eq, Scan.rounds_of_none hnone]
      refine ⟨⟨s.skip isBlank, ts, s.position + 2⟩, hround.bind fun q h => ?_⟩
      rw [← List.append_nil ts] at h
      simp only [Except.map, List.append_nil terms]
      exact h.agrees_pure terms
  | case3 s t next hsome _ _ ih | case4 s t next hsome _ _ ih =>
      have hround := h.agrees_round hn
      rw [hsome] at hround
      rw [rounds_eq, Scan.rounds_of_some hsome]
      refine hround.bind_exists fun q h => ?_
      obtain ⟨last, hrounds⟩ := ih h (Scan.position_add_two_le hsome) (terms ++ [t])
      refine ⟨last, ?_⟩
      cases hnext : next.rounds with
      | error e => rwa [hnext] at hrounds
      | ok us =>
          rw [hnext] at hrounds
          simpa [Except.map] using hrounds

/-! ### Formulas -/

/-- The cursor has come to the end of the text when **nothing is left**. -/
theorem size_le_position_iff (h : g.Holds text p) :
    g.scan.position ≥ text.utf8ByteSize ↔ g.scan.rest = [] := by
  obtain ⟨w, hw⟩ := h.reads
  have hsize : text.utf8ByteSize = g.scan.position + byteSize g.scan.rest := by
    rw [← byteSize_toList, ← hw.byteSize_eq, ← byteSize_append, ← hw.text_eq]
  rw [hsize]
  cases g.scan.rest with
  | nil => simp
  | cons c rest =>
      have hpos := c.utf8Size_pos
      simp only [byteSize_cons, reduceCtorEq, iff_false]
      omega

end Stage.Holds

end Agreement

/-- A formula is read **as by the scan**. -/
theorem agrees_formula (text : String) :
    ∃ last : Stage, Agrees text (formula text) .start ((Formula.parse text).map fun f =>
      (f, { last with accepted := f.terms.map SignedTerm.term })) := by
  refine ((Stage.holds_start text).agrees_skip isBlank).bind_exists fun q h => ?_
  refine h.agrees_currentPosition.bind_exists fun q h => ?_
  by_cases hrest : (Scan.atFirst text.toList).rest = []
  · rw [if_pos (h.size_le_position_iff.mpr hrest), Formula.parse_of_nil hrest]
    exact ⟨⟨Scan.atFirst text.toList, [], 0⟩, .stops (Reading.runs_throw _ q) h.sound⟩
  rw [if_neg (mt h.size_le_position_iff.mp hrest)]
  have hfirst : Agrees text (term text) q
      ((Scan.atFirst text.toList).term.map (Stage.afterTerm [] 0)) := h.agrees_term
  cases hterm : (Scan.atFirst text.toList).term with
  | error e =>
      rw [hterm] at hfirst
      rw [Formula.parse_of_error hrest hterm]
      exact ⟨⟨Scan.atFirst text.toList, [], 0⟩, hfirst.bind_error⟩
  | ok read =>
      rw [hterm] at hfirst
      rw [Formula.parse_of_ok hrest hterm]
      refine hfirst.bind_exists fun q h => ?_
      obtain ⟨last, hrounds⟩ := h.agrees_rounds (Nat.zero_le _) [⟨.plus, read.1⟩]
      refine ⟨last, hrounds.map _ ?_⟩
      cases read.2.rounds <;> rfl

end Cursor

/-- **The cursor never slips.** The reading of any text with a cursor ends, and it does not fail at
a cut: it comes to what `Formula.parse` comes to. In every step of it, whether or not the text is a
formula, the cursor stands between characters of the text and has not gone back, the text can be cut
where it is cut, a round begins two bytes or more behind the one before it, and the dice that have
been counted are those of the terms accepted so far and within the bound. Where the text is a
formula, these are its terms in the end. -/
theorem Formula.cursor_never_slips (text : String) :
    ∃ last, (Cursor.formula text).Runs .start ((Formula.parse text).mapError .fault) last ∧
      Cursor.SoundLog text last.log ∧
      ∀ f, Formula.parse text = .ok f →
        Cursor.acceptedTerms last.log = f.terms.map SignedTerm.term := by
  obtain ⟨stage, hagrees⟩ := Cursor.agrees_formula text
  cases hparse : Formula.parse text with
  | error e =>
      rw [hparse] at hagrees
      cases hagrees with
      | stops hruns hsound => exact ⟨_, hruns, hsound, fun _ h => (by cases h)⟩
  | ok f =>
      rw [hparse, Except.map] at hagrees
      cases hagrees with
      | goesOn hruns hholds =>
          refine ⟨_, hruns, hholds.sound, ?_⟩
          rintro _ ⟨⟩
          exact hholds.accepted_eq

end Tabletop
