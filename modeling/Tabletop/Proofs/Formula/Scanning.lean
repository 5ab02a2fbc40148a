import Tabletop.Proofs.Formula.Grammar

/-!
# The Steps of a Reading

What one step of a reading does to its state, once for every step. `Scan.Reads s w next`
says that `next` is left when the text `w` has been read from `s`: the rest is shorter by
`w` and the position is further by the bytes of `w`. Positions and rests of all later
results come from this relation alone.

A step that reads a term is determined by the grammar in both directions: what it has read
is a term (`Scan.term_eq_ok`), and a term that nothing can be taken for a part of is read
as it stands (`Scan.term_of_termText`), as long as the dice suffice.

## Main definitions

* `Scan.Reads`: one state is left when a text has been read from another.
* `Scan.ReadsTerm`: the same for a term, with the dice that it takes.
* `Scan.behindSign`: the state in which a round comes to its term.

## Main results

* `Scan.term_eq_ok`, `Scan.term_of_termText`: reading a term.
* `Scan.round_of_nil`, `Scan.round_of_garbage`, `Scan.round_of_sign`: what a round does, by what
  it finds.
* `Scan.round_eq_some`, `Scan.round_of_termText`, `Scan.round_eq_none_iff`: reading one
  round.
* `Scan.rounds_of_none`, `Scan.rounds_of_some`, `Scan.rounds_of_error`: a reading does what
  its first round says.
-/

open Tabletop.Text Tabletop.Grammar

namespace Tabletop

namespace Scan

/-- `s.Reads w next`: the state `next` is left when `w` has been **read** from `s`. -/
structure Reads (s : Scan) (w : List Char) (next : Scan) : Prop where
  /-- The text that was left began with `w`. -/
  rest_eq : s.rest = w ++ next.rest
  /-- The position has moved by the bytes of `w`. -/
  position_eq : next.position = s.position + byteSize w

/-- `s.ReadsTerm w t next`: the text read is the term `t`, and `next` has counted its dice
within the bound. -/
structure ReadsTerm (s : Scan) (w : List Char) (t : Term) (next : Scan) : Prop
    extends s.Reads w next where
  /-- The text is a term of the grammar. -/
  termText : TermText w t
  /-- The dice of the term are counted. -/
  dice_eq : next.dice = s.dice + t.diceCount
  /-- The dice stay within the bound of a formula. -/
  dice_le : s.dice ≤ 2000 → next.dice ≤ 2000

/-! ### Runs -/

/-- Reading one text and then another is reading both. -/
theorem Reads.trans {s m next : Scan} {w v : List Char} (h₁ : s.Reads w m)
    (h₂ : m.Reads v next) : s.Reads (w ++ v) next := by
  refine ⟨?_, ?_⟩
  · rw [h₁.rest_eq, h₂.rest_eq, List.append_assoc]
  · rw [h₂.position_eq, h₁.position_eq, byteSize_append, Nat.add_assoc]

/-- Skipping a run reads the run. -/
theorem reads_skip (p : Char → Bool) (s : Scan) : s.Reads (s.run p) (s.skip p) :=
  ⟨List.takeWhile_append_dropWhile.symm, rfl⟩

/-- What a run of blanks reads is blank. -/
theorem blanks_run (s : Scan) : Blanks (s.run isBlank) := by
  intro c hc
  exact List.mem_takeWhile_imp hc

/-- The run of a text that the next character stops. -/
theorem run_eq {s : Scan} {p : Char → Bool} {w text : List Char} (hrest : s.rest = w ++ text)
    (hw : ∀ c ∈ w, p c = true) (h : Stops p text) : s.run p = w := by
  rw [run, hrest, takeWhile_append_of_stops hw h]

/-- The state after a run that the next character stops. -/
theorem skip_eq {s : Scan} {p : Char → Bool} {w text : List Char} (hrest : s.rest = w ++ text)
    (hw : ∀ c ∈ w, p c = true) (h : Stops p text) :
    s.skip p = ⟨s.position + byteSize w, text, s.dice⟩ := by
  rw [skip, run_eq hrest hw h, hrest, dropWhile_append_of_stops hw h]

/-- A run is skipped **in two halves** as it is in one. -/
theorem skip_of_append {s : Scan} {p : Char → Bool} {w text : List Char}
    (hrest : s.rest = w ++ text) (hw : ∀ c ∈ w, p c = true) :
    s.skip p = skip p ⟨s.position + byteSize w, text, s.dice⟩ := by
  rw [skip, skip, run, run, hrest, List.takeWhile_append_of_pos hw, List.dropWhile_append_of_pos hw,
    byteSize_append, Nat.add_assoc]

/-- A run of digits that is not empty is a numeral. -/
theorem numeral_run {s : Scan} (h : (s.run Char.isDigit).isEmpty = false) :
    Numeral (s.run Char.isDigit) (numeralValue (s.run Char.isDigit)) := by
  refine numeral_iff.mpr ⟨?_, ?_, rfl⟩
  · intro hnil
    rw [hnil] at h
    cases h
  · intro c hc
    exact List.mem_takeWhile_imp hc

/-! ### Constants -/

/-- What is read as a constant is a numeral within the bound. -/
theorem constant_eq_ok {s next : Scan} {t : Term} (h : s.constant = .ok (t, next)) :
    s.ReadsTerm (s.run Char.isDigit) t next := by
  rw [constant] at h
  split at h
  · cases h
  · rename_i hempty
    split at h
    · cases h
    · rename_i hle
      cases h
      have hnumeral := numeral_run (by simpa using hempty)
      exact ⟨reads_skip Char.isDigit s,
        .constant hnumeral (by simpa [maxNumeral, wordRange] using hle), rfl, id⟩

/-- A numeral within the bound is read as a constant. -/
theorem constant_of_numeral {s : Scan} {digits text : List Char} {value : Nat}
    (hrest : s.rest = digits ++ text) (hdigits : Numeral digits value)
    (hvalue : value ≤ 4294967295) (hstop : Stops Char.isDigit text) :
    s.constant = .ok (.constant value, ⟨s.position + byteSize digits, text, s.dice⟩) := by
  have hrun : s.run Char.isDigit = digits := run_eq hrest hdigits.isDigit hstop
  have hskip := skip_eq hrest hdigits.isDigit hstop
  rw [constant]
  rw [hrun, hskip, hdigits.value, if_neg (by simpa using hdigits.ne_nil),
    if_neg (by simpa [maxNumeral, wordRange] using hvalue)]

/-! ### Groups of dice -/

/-- The state between a dice mark and the digits of the sides: the digits of the count and
the mark have been read. -/
theorem reads_mark {s : Scan} {mark : Char} {rest : List Char}
    (hrest : s.rest.dropWhile Char.isDigit = mark :: rest) :
    s.Reads (s.run Char.isDigit ++ [mark])
      { s with position := s.position + byteSize (s.run Char.isDigit) + mark.utf8Size,
               rest := rest } := by
  refine ⟨?_, ?_⟩
  · have h : s.rest = s.run Char.isDigit ++ s.rest.dropWhile Char.isDigit :=
      List.takeWhile_append_dropWhile.symm
    rw [h, hrest, List.append_assoc]
    rfl
  · simp [Nat.add_assoc]

/-- **What becomes of a group of dice**: it is refused where it begins; or its count is good and
the dice suffice, and then it is refused at its sides or read. -/
theorem diceGroup_cases {s : Scan} {mark : Char} {rest : List Char}
    (hrest : s.rest.dropWhile Char.isDigit = mark :: rest) :
    (∃ kind w after, s.diceGroup mark rest = .error (s.fault kind w) ∧
      kind ≠ .trailingGarbage ∧ s.rest = w ++ after) ∨
    ∃ count m, s.Reads (s.run Char.isDigit ++ [mark]) m ∧
      Numeral (s.run Char.isDigit) count ∧ 1 ≤ count ∧ count ≤ 1000 ∧
      s.dice + count ≤ 2000 ∧
      (s.diceGroup mark rest = .error (m.fault .invalidSides (m.run Char.isDigit)) ∨
        ∃ sides, Numeral (m.run Char.isDigit) sides ∧ 2 ≤ sides ∧ sides ≤ 4294967295 ∧
          s.diceGroup mark rest =
            .ok (.dice count sides, { m.skip Char.isDigit with dice := s.dice + count })) := by
  have hreads := reads_mark hrest
  have hcount := (reads_skip Char.isDigit s).rest_eq
  have htext := (hreads.trans (reads_skip Char.isDigit _)).rest_eq
  rw [List.append_assoc (s.run Char.isDigit), List.singleton_append] at htext
  generalize hresult : s.diceGroup mark rest = result
  rw [diceGroup] at hresult
  split at hresult
  · exact .inl ⟨_, _, _, hresult.symm, by decide, htext⟩
  rename_i hform
  split at hresult
  · exact .inl ⟨_, _, _, hresult.symm, by decide, hcount⟩
  rename_i hpos
  split at hresult
  · exact .inl ⟨_, _, _, hresult.symm, by decide, hcount⟩
  rename_i hterm
  split at hresult
  · exact .inl ⟨_, _, _, hresult.symm, by decide, htext⟩
  rename_i hformula
  split at hresult
  · exact .inl ⟨_, _, _, hresult.symm, by decide, htext⟩
  rename_i hsides
  simp only [Bool.or_eq_true, not_or, Bool.not_eq_true] at hform
  simp only [maxDicePerTerm, maxDicePerFormula, maxNumeral, wordRange, not_lt]
    at hterm hformula hsides
  refine .inr ⟨_, _, hreads, numeral_run hform.1.1, by omega, hterm, hformula, ?_⟩
  split at hresult
  · exact .inl hresult.symm
  · rename_i htwo
    exact .inr ⟨_, numeral_run hform.1.2, not_lt.mp htwo, hsides, hresult.symm⟩

/-- What is read as a group of dice is one, and the dice suffice. -/
theorem diceGroup_eq_ok {s next : Scan} {mark : Char} {rest : List Char} {t : Term}
    (hrest : s.rest.dropWhile Char.isDigit = mark :: rest) (hmark : isDiceMark mark = true)
    (h : s.diceGroup mark rest = .ok (t, next)) : ∃ w, s.ReadsTerm w t next := by
  rcases diceGroup_cases hrest with ⟨kind, w, after, herror, -⟩ |
    ⟨count, m, hreads, hcountDigits, hpos, hcount, hdice, herror |
      ⟨sides, hsidesDigits, htwo, hsides, hok⟩⟩
  · rw [h] at herror
    cases herror
  · rw [h] at herror
    cases herror
  · rw [h] at hok
    cases hok
    have hread := hreads.trans (reads_skip Char.isDigit m)
    refine ⟨_, ⟨hread.rest_eq, hread.position_eq⟩, ?_, rfl, fun _ => hdice⟩
    rw [List.append_assoc]
    exact .dice hcountDigits hpos hcount (isDiceMark_iff.mp hmark) hsidesDigits htwo hsides

/-- Two numerals within the bounds around a dice mark are read as a group of dice, **unless the
dice of the formula are too many** with it. -/
theorem diceGroup_of_numerals {s : Scan} {countDigits sidesDigits text : List Char}
    {count sides : Nat} {mark : Char}
    (hrest : s.rest = countDigits ++ mark :: (sidesDigits ++ text))
    (hcountDigits : Numeral countDigits count) (hpos : 1 ≤ count) (hcount : count ≤ 1000)
    (hmark : isDiceMark mark = true) (hsidesDigits : Numeral sidesDigits sides)
    (htwo : 2 ≤ sides) (hsides : sides ≤ 4294967295) (hstop : Stops Char.isDigit text) :
    s.diceGroup mark (sidesDigits ++ text) =
      if s.dice + count > 2000 then
        .error (s.fault .tooManyDice (countDigits ++ mark :: sidesDigits))
      else
        .ok (.dice count sides,
          ⟨s.position + byteSize (countDigits ++ mark :: sidesDigits), text, s.dice + count⟩) := by
  have hrun : s.run Char.isDigit = countDigits :=
    run_eq hrest hcountDigits.isDigit (stops_cons.mpr (isDigit_eq_false_of_isDiceMark hmark))
  have hform : ¬ ((countDigits.isEmpty || sidesDigits.isEmpty ||
      decide (count > maxNumeral)) = true) := by
    simp only [Bool.or_eq_true, not_or, List.isEmpty_iff, decide_eq_true_eq]
    refine ⟨⟨hcountDigits.ne_nil, hsidesDigits.ne_nil⟩, ?_⟩
    simp only [maxNumeral, wordRange]
    omega
  have hskip := fun position => skip_eq (s := ⟨position, sidesDigits ++ text, s.dice⟩) rfl
    hsidesDigits.isDigit hstop
  have hsidesRun := fun position => run_eq (s := ⟨position, sidesDigits ++ text, s.dice⟩) rfl
    hsidesDigits.isDigit hstop
  have hlarge : ¬ sides > maxNumeral := by simpa [maxNumeral, wordRange] using hsides
  have hsmall : ¬ sides < 2 := Nat.not_lt.mpr htwo
  rw [diceGroup]
  simp only [hrun, hsidesRun, hskip, hcountDigits.value, hsidesDigits.value]
  rw [if_neg hform, if_neg (by omega), if_neg (by simpa [maxDicePerTerm] using hcount)]
  simp only [if_neg hlarge, if_neg hsmall, maxDicePerFormula]
  simp [Nat.add_assoc]

/-! ### Terms -/

/-- A term is **a group of dice or a constant**, by what follows its first digits. -/
theorem term_cases (s : Scan) :
    (∃ mark rest, s.rest.dropWhile Char.isDigit = mark :: rest ∧ isDiceMark mark = true ∧
      s.term = s.diceGroup mark rest) ∨
    Stops isDiceMark (s.rest.dropWhile Char.isDigit) ∧ s.term = s.constant := by
  cases hrest : s.rest.dropWhile Char.isDigit with
  | nil => exact .inr ⟨stops_nil _, by simp only [term, hrest]⟩
  | cons mark rest =>
      by_cases hmark : isDiceMark mark = true
      · exact .inl ⟨mark, rest, rfl, hmark, by simp only [term, hrest, if_pos hmark]⟩
      · exact .inr ⟨stops_cons.mpr (Bool.eq_false_iff.mpr hmark),
          by simp only [term, hrest, if_neg hmark]⟩

/-- **What is read as a term is one**, and the dice of the formula stay within their
bound. -/
theorem term_eq_ok {s next : Scan} {t : Term} (h : s.term = .ok (t, next)) :
    ∃ w, s.ReadsTerm w t next := by
  rcases term_cases s with ⟨mark, rest, hrest, hmark, hterm⟩ | ⟨-, hterm⟩
  · exact diceGroup_eq_ok hrest hmark (hterm.symm.trans h)
  · exact ⟨_, constant_eq_ok (hterm.symm.trans h)⟩

/-- A dice mark behind the digits makes the term **a group of dice**. -/
theorem term_of_mark {s : Scan} {digits rest : List Char} {mark : Char}
    (hrest : s.rest = digits ++ mark :: rest) (hdigits : ∀ c ∈ digits, c.isDigit = true)
    (hmark : isDiceMark mark = true) : s.term = s.diceGroup mark rest := by
  rw [term, hrest, dropWhile_append_of_stops hdigits
    (stops_cons.mpr (isDigit_eq_false_of_isDiceMark hmark))]
  exact if_pos hmark

/-- Without a dice mark behind the digits the term is **a constant**. -/
theorem term_of_stops {s : Scan} (h : Stops isDiceMark (s.rest.dropWhile Char.isDigit)) :
    s.term = s.constant := by
  rcases term_cases s with ⟨mark, rest, hrest, hmark, -⟩ | ⟨-, hterm⟩
  · rw [hrest, stops_cons, hmark] at h
    cases h
  · exact hterm

/-- **A term is read as it stands**, as long as what follows cannot be taken for a part of it
and the dice suffice. -/
theorem term_of_termText {s : Scan} {w text : List Char} {t : Term} (hrest : s.rest = w ++ text)
    (ht : TermText w t) (hstop : Stops isWordChar text) (hdice : s.dice + t.diceCount ≤ 2000) :
    s.term = .ok (t, ⟨s.position + byteSize w, text, s.dice + t.diceCount⟩) := by
  cases ht with
  | constant hdigits hvalue =>
      have hstops : Stops isDiceMark (s.rest.dropWhile Char.isDigit) := by
        rw [hrest, dropWhile_append_of_stops hdigits.isDigit hstop.isDigit]
        exact hstop.isDiceMark
      rw [term_of_stops hstops]
      exact constant_of_numeral hrest hdigits hvalue hstop.isDigit
  | dice hcountDigits hpos hcount hd hsidesDigits htwo hsides =>
      rw [List.append_assoc, List.cons_append] at hrest
      rw [term_of_mark hrest hcountDigits.isDigit (isDiceMark_iff.mpr hd),
        diceGroup_of_numerals hrest hcountDigits hpos hcount (isDiceMark_iff.mpr hd) hsidesDigits
          htwo hsides hstop.isDigit]
      exact if_neg (Nat.not_lt.mpr hdice)

/-- A term with which the dice of the formula **become too many** is refused where it begins, as
it stands. -/
theorem term_of_excess {s : Scan} {w text : List Char} {t : Term} (hrest : s.rest = w ++ text)
    (ht : TermText w t) (hstop : Stops isWordChar text) (hle : s.dice ≤ 2000)
    (hdice : 2000 < s.dice + t.diceCount) : s.term = .error (s.fault .tooManyDice w) := by
  cases ht with
  | constant _ _ => exact absurd hle (Nat.not_le.mpr hdice)
  | dice hcountDigits hpos hcount hd hsidesDigits htwo hsides =>
      rw [List.append_assoc, List.cons_append] at hrest
      rw [term_of_mark hrest hcountDigits.isDigit (isDiceMark_iff.mpr hd),
        diceGroup_of_numerals hrest hcountDigits hpos hcount (isDiceMark_iff.mpr hd) hsidesDigits
          htwo hsides hstop.isDigit]
      exact if_pos hdice

/-! ### Rounds -/

/-- The state **behind the sign** of a round and the blanks that follow it, where `rest` is the text
after the sign. -/
def behindSign (s : Scan) (sign : Sign) (rest : List Char) : Scan :=
  skip isBlank ⟨(s.skip isBlank).position + sign.symbol.utf8Size, rest, s.dice⟩

/-- What a round **finds** behind blanks: the end of the text, something other than a sign, or a
sign. -/
theorem rest_skip_cases (s : Scan) :
    (s.skip isBlank).rest = [] ∨
      (∃ c rest, (s.skip isBlank).rest = c :: rest ∧ Sign.ofSymbol? c = none) ∨
        ∃ sign rest, (s.skip isBlank).rest = Sign.symbol sign :: rest := by
  cases (s.skip isBlank).rest with
  | nil => exact .inl rfl
  | cons c rest =>
      cases hsign : Sign.ofSymbol? c with
      | none => exact .inr (.inl ⟨c, rest, rfl, hsign⟩)
      | some sign =>
          obtain rfl := Sign.ofSymbol?_eq_some_iff.mp hsign
          exact .inr (.inr ⟨sign, rest, rfl⟩)

/-- At the **end of the text** there is nothing to read. -/
theorem round_of_nil {s : Scan} (hrest : (s.skip isBlank).rest = []) : s.round = .ok none := by
  rw [round]
  simp only [hrest]

/-- Something **other than a sign** is a fault up to the end of the text. -/
theorem round_of_garbage {s : Scan} {c : Char} {rest : List Char}
    (hrest : (s.skip isBlank).rest = c :: rest) (hsign : Sign.ofSymbol? c = none) :
    s.round =
      .error ((s.skip isBlank).fault .trailingGarbage (dropEndBlanks (s.skip isBlank).rest)) := by
  rw [round]
  simp only [hrest, hsign]

/-- **Behind a sign** a round reads a term. -/
theorem round_of_sign {s : Scan} {sign : Sign} {rest : List Char}
    (hrest : (s.skip isBlank).rest = sign.symbol :: rest) :
    s.round = (s.behindSign sign rest).term.map fun read => some (⟨sign, read.1⟩, read.2) := by
  have hdice : (s.skip isBlank).dice = s.dice := rfl
  rw [behindSign, round]
  simp only [hrest, Sign.ofSymbol?_symbol, hdice]
  cases (skip isBlank ⟨(s.skip isBlank).position + sign.symbol.utf8Size, rest, s.dice⟩).term <;> rfl

/-- There is nothing to read exactly where only blanks are left. -/
theorem round_eq_none_iff {s : Scan} : s.round = .ok none ↔ Blanks s.rest := by
  have hskip : (s.skip isBlank).rest = [] ↔ Blanks s.rest := List.dropWhile_eq_nil_iff
  rw [← hskip]
  constructor
  · intro h
    rcases rest_skip_cases s with hrest | ⟨c, rest, hrest, hsign⟩ | ⟨sign, rest, hrest⟩
    · exact hrest
    · rw [round_of_garbage hrest hsign] at h
      cases h
    · rw [round_of_sign hrest] at h
      cases hterm : (s.behindSign sign rest).term <;> rw [hterm] at h <;> cases h
  · exact round_of_nil

/-- Between the sign of a round and its term, the blanks before the sign, the sign and the blanks
behind it have been read. -/
theorem reads_behindSign {s : Scan} {sign : Sign} {rest : List Char}
    (hrest : (s.skip isBlank).rest = sign.symbol :: rest) :
    ∃ u v, Blanks u ∧ Blanks v ∧ s.Reads (u ++ sign.symbol :: v) (s.behindSign sign rest) := by
  refine ⟨s.run isBlank, _, blanks_run s,
    blanks_run ⟨(s.skip isBlank).position + sign.symbol.utf8Size, rest, s.dice⟩, ?_⟩
  have hread : (s.skip isBlank).Reads [sign.symbol]
      ⟨(s.skip isBlank).position + sign.symbol.utf8Size, rest, s.dice⟩ :=
    ⟨hrest, by simp⟩
  exact (reads_skip isBlank s).trans (hread.trans (reads_skip isBlank _))

/-- The state behind a sign that blanks surround, where something else follows. -/
theorem behindSign_eq {s : Scan} {u v text : List Char} {sign : Sign}
    (hrest : s.rest = u ++ sign.symbol :: (v ++ text)) (hu : Blanks u) (hv : Blanks v)
    (hstop : Stops isBlank text) :
    (s.skip isBlank).rest = sign.symbol :: (v ++ text) ∧
      s.behindSign sign (v ++ text) =
        ⟨s.position + byteSize (u ++ sign.symbol :: v), text, s.dice⟩ := by
  have hskip := skip_eq hrest hu (stops_cons.mpr (isBlank_symbol sign))
  have hskip' := skip_eq
    (s := ⟨s.position + byteSize u + sign.symbol.utf8Size, v ++ text, s.dice⟩) rfl hv hstop
  rw [behindSign, hskip]
  refine ⟨rfl, hskip'.trans ?_⟩
  simp [Nat.add_assoc]

/-- What a round reads: blanks, a sign, blanks and **a term**. -/
theorem round_eq_some {s next : Scan} {t : SignedTerm} (h : s.round = .ok (some (t, next))) :
    ∃ u v w m, Blanks u ∧ Blanks v ∧ s.Reads (u ++ t.sign.symbol :: v) m ∧ m.dice = s.dice ∧
      m.ReadsTerm w t.term next := by
  rcases rest_skip_cases s with hrest | ⟨c, rest, hrest, hsign⟩ | ⟨sign, rest, hrest⟩
  · rw [round_of_nil hrest] at h
    cases h
  · rw [round_of_garbage hrest hsign] at h
    cases h
  · rw [round_of_sign hrest] at h
    cases hterm : (s.behindSign sign rest).term with
    | error e =>
        rw [hterm] at h
        cases h
    | ok read =>
        rw [hterm] at h
        cases h
        obtain ⟨u, v, hu, hv, hreads⟩ := reads_behindSign hrest
        obtain ⟨w, hw⟩ := term_eq_ok hterm
        exact ⟨u, v, w, _, hu, hv, hreads, rfl, hw⟩

/-- Blanks, a sign, blanks and a term are read in one round, as long as what follows cannot be
taken for a part of the term and the dice suffice. -/
theorem round_of_termText {s : Scan} {u v w text : List Char} {sign : Sign} {t : Term}
    (hrest : s.rest = u ++ sign.symbol :: (v ++ (w ++ text))) (hu : Blanks u) (hv : Blanks v)
    (hw : TermText w t) (hstop : Stops isWordChar text)
    (hdice : s.dice + t.diceCount ≤ 2000) :
    ∃ next, s.round = .ok (some (⟨sign, t⟩, next)) ∧
      s.Reads (u ++ sign.symbol :: (v ++ w)) next ∧ next.rest = text ∧
      next.dice = s.dice + t.diceCount := by
  obtain ⟨hsign, hbehind⟩ := behindSign_eq hrest hu hv (hw.stops_isBlank text)
  have hterm := term_of_termText
    (s := ⟨s.position + byteSize (u ++ sign.symbol :: v), w ++ text, s.dice⟩) rfl hw hstop
    hdice
  refine ⟨⟨s.position + byteSize (u ++ sign.symbol :: v) + byteSize w, text,
    s.dice + t.diceCount⟩, ?_, ⟨?_, ?_⟩, rfl, rfl⟩
  · rw [round_of_sign hsign, hbehind, hterm]
    rfl
  · rw [hrest]
    simp
  · simp [Nat.add_assoc]

/-- A round fails where something other than a sign stands, or in its term. -/
theorem round_eq_error {s : Scan} {e : Fault} (h : s.round = .error e) :
    (∃ u m, Blanks u ∧ s.Reads u m ∧ e = m.fault .trailingGarbage (dropEndBlanks m.rest)) ∨
      ∃ u v sign m, Blanks u ∧ Blanks v ∧ s.Reads (u ++ Sign.symbol sign :: v) m ∧
        m.dice = s.dice ∧ m.term = .error e := by
  rcases rest_skip_cases s with hrest | ⟨c, rest, hrest, hsign⟩ | ⟨sign, rest, hrest⟩
  · rw [round_of_nil hrest] at h
    cases h
  · rw [round_of_garbage hrest hsign] at h
    cases h
    exact .inl ⟨_, _, blanks_run s, reads_skip isBlank s, rfl⟩
  · rw [round_of_sign hrest] at h
    cases hterm : (s.behindSign sign rest).term with
    | error e' =>
        rw [hterm] at h
        cases h
        obtain ⟨u, v, hu, hv, hreads⟩ := reads_behindSign hrest
        exact .inr ⟨u, v, sign, _, hu, hv, hreads, rfl, hterm⟩
    | ok read =>
        rw [hterm] at h
        cases h

/-! ### Whole readings -/

/-- A reading ends where nothing is left to read. -/
theorem rounds_of_none {s : Scan} (h : s.round = .ok none) : s.rounds = .ok [] := by
  rw [rounds]
  split
  · simp_all
  · rfl
  · simp_all

/-- A reading fails where a round does. -/
theorem rounds_of_error {s : Scan} {e : Fault} (h : s.round = .error e) :
    s.rounds = .error e := by
  rw [rounds]
  split <;> simp_all

/-- A round that reads a term leaves the rest of the reading to the state it leaves. -/
theorem rounds_of_some {s next : Scan} {t : SignedTerm}
    (h : s.round = .ok (some (t, next))) :
    s.rounds = next.rounds.map (t :: ·) := by
  rw [rounds]
  split
  · simp_all
  · simp_all
  · rename_i t' next' h'
    rw [h] at h'
    cases h'
    cases next.rounds <;> rfl

/-- A reading does not care how much of **the blanks** in front of a round has been read. -/
theorem rounds_of_blanks {s : Scan} {w text : List Char} (hrest : s.rest = w ++ text)
    (hw : Blanks w) : s.rounds = rounds ⟨s.position + byteSize w, text, s.dice⟩ := by
  have hround : s.round = round ⟨s.position + byteSize w, text, s.dice⟩ := by
    rw [round, round, skip_of_append hrest hw]
  cases h : round ⟨s.position + byteSize w, text, s.dice⟩ with
  | error e => rw [rounds_of_error h, rounds_of_error (hround.trans h)]
  | ok read =>
      cases read with
      | none => rw [rounds_of_none h, rounds_of_none (hround.trans h)]
      | some read => rw [rounds_of_some h, rounds_of_some (hround.trans h)]

end Scan

end Tabletop
