import Tabletop.Proofs.Formula.FaultPosition

/-!
# Writing On Behind a Fault

A text with a fault cannot be cured by **writing on**: with anything behind it that ends a word, it
fails again, in the same way and in the same place. Only a fault that blames everything up to the
end of the text now blames what was written too.

The two readings are compared step by step. `Scan.followedBy` puts more text behind a state, and
what ends a word also ends every run of digits, so reading a term takes no notice of it
(`Scan.term_followedBy`). A run of blanks does take notice where it comes to the end of the text;
but there the reading ends, or blames an empty fragment.

## Main definitions

* `Scan.followedBy`: a state with more text behind it.
* `Scan.Persists`: what becomes of a fault when more text stands behind it.

## Main results

* `Scan.term_followedBy`: a term is read, or refused, as if nothing followed.
* `Scan.rounds_followedBy`: the fault of a reading persists.
* `Formula.fault_persists`: the fault of a formula does.
-/

open Tabletop.Text

namespace Tabletop

namespace Scan

/-- The state with **more text** behind what is left. -/
def followedBy (s : Scan) (more : List Char) : Scan :=
  { s with rest := s.rest ++ more }

section FollowedBy

variable {s : Scan} {more : List Char}

/-! ### Runs -/

/-- A run that the text behind it does not go on with is **the same** with it. -/
theorem run_followedBy {p : Char → Bool} (h : Stops p more) (s : Scan) :
    (s.followedBy more).run p = s.run p :=
  takeWhile_append h s.rest

/-- Skipping a run leaves the text behind it, which does not go on with the run. -/
theorem skip_followedBy {p : Char → Bool} (h : Stops p more) (s : Scan) :
    (s.followedBy more).skip p = (s.skip p).followedBy more := by
  rw [skip, run_followedBy h, followedBy, dropWhile_append h]
  rfl

/-- Skipping a run leaves the text behind it, if it leaves something in front of it. -/
theorem skip_followedBy_of_ne_nil {p : Char → Bool} (hrest : (s.skip p).rest ≠ []) :
    (s.followedBy more).skip p = (s.skip p).followedBy more := by
  have hstops : Stops p (s.skip p).rest := stops_dropWhile p s.rest
  have htext : (s.followedBy more).rest = s.run p ++ ((s.skip p).rest ++ more) := by
    rw [followedBy, (reads_skip p s).rest_eq, List.append_assoc]
  exact (skip_eq htext (fun _ => List.mem_takeWhile_imp)
    (hstops.append_of_ne_nil hrest more)).trans rfl

/-! ### Terms -/

/-- A constant is read, or refused, as if nothing followed. -/
theorem constant_followedBy (hmore : Stops isWordChar more) (s : Scan) :
    (s.followedBy more).constant = s.constant.map (Prod.map id (followedBy · more)) := by
  rw [constant, constant, run_followedBy hmore.isDigit, run_followedBy hmore,
    skip_followedBy hmore.isDigit]
  iterate 2 (split; · rfl)
  rfl

/-- A group of dice is read, or refused, as if nothing followed. -/
theorem diceGroup_followedBy (hmore : Stops isWordChar more) (s : Scan) (mark : Char)
    (rest : List Char) :
    (s.followedBy more).diceGroup mark (rest ++ more) =
      (s.diceGroup mark rest).map (Prod.map id (followedBy · more)) := by
  have hsides : ∀ position, (⟨position, rest ++ more, s.dice⟩ : Scan) =
      followedBy ⟨position, rest, s.dice⟩ more := fun _ => rfl
  rw [diceGroup, diceGroup, run_followedBy hmore.isDigit]
  simp only [show (s.followedBy more).dice = s.dice from rfl,
    show (s.followedBy more).position = s.position from rfl, hsides,
    run_followedBy hmore.isDigit, skip_followedBy hmore.isDigit]
  iterate 6 (split; · rfl)
  rfl

/-- A term is read, or refused, **as if nothing followed**. -/
theorem term_followedBy (hmore : Stops isWordChar more) (s : Scan) :
    (s.followedBy more).term = s.term.map (Prod.map id (followedBy · more)) := by
  have hdrop : (s.followedBy more).rest.dropWhile Char.isDigit =
      s.rest.dropWhile Char.isDigit ++ more := dropWhile_append hmore.isDigit s.rest
  rcases term_cases s with ⟨mark, rest, hrest, hmark, hterm⟩ | ⟨hstops, hterm⟩
  · have htext : (s.followedBy more).rest = s.run Char.isDigit ++ mark :: (rest ++ more) := by
      rw [← List.cons_append, ← hrest, ← hdrop, ← run_followedBy hmore.isDigit]
      exact List.takeWhile_append_dropWhile.symm
    rw [hterm, term_of_mark htext (fun _ => List.mem_takeWhile_imp) hmark,
      diceGroup_followedBy hmore]
  · have hstops' : Stops isDiceMark ((s.followedBy more).rest.dropWhile Char.isDigit) := by
      rw [hdrop]
      exact hstops.append hmore.isDiceMark
    rw [hterm, term_of_stops hstops', constant_followedBy hmore]

/-- Where nothing is left, a term is refused **without a fragment**. -/
theorem term_of_nil (hrest : s.rest = []) : s.term = .error (s.fault .malformedTerm []) := by
  have hstops : Stops isDiceMark (s.rest.dropWhile Char.isDigit) := by simp [hrest]
  rw [term_of_stops hstops, constant, run, run, hrest]
  rfl

/-! ### Rounds -/

/-- Behind a sign, a round does what it does **as if nothing followed**, if there is something to be
read as a term. -/
theorem round_followedBy (hmore : Stops isWordChar more) {sign : Sign} {rest : List Char}
    (hrest : (s.skip isBlank).rest = sign.symbol :: rest)
    (hterm : (s.behindSign sign rest).rest ≠ []) :
    (s.followedBy more).round = s.round.map (Option.map (Prod.map id (followedBy · more))) := by
  have hskip : (s.followedBy more).skip isBlank = (s.skip isBlank).followedBy more :=
    skip_followedBy_of_ne_nil (by simp [hrest])
  have hrest' : ((s.followedBy more).skip isBlank).rest = sign.symbol :: (rest ++ more) := by
    rw [hskip, followedBy, hrest, List.cons_append]
  have hbehind : (s.followedBy more).behindSign sign (rest ++ more) =
      (s.behindSign sign rest).followedBy more := by
    rw [behindSign, hskip]
    exact skip_followedBy_of_ne_nil hterm
  rw [round_of_sign hrest, round_of_sign hrest', hbehind, term_followedBy hmore]
  cases (s.behindSign sign rest).term <;> rfl

/-- Where nothing stands behind a sign, a round fails **without a fragment**. -/
theorem round_of_sign_of_nil {sign : Sign} {rest : List Char}
    (hrest : (s.skip isBlank).rest = sign.symbol :: rest)
    (hnil : (s.behindSign sign rest).rest = []) :
    s.round = .error ((s.behindSign sign rest).fault .malformedTerm []) := by
  rw [round_of_sign hrest, term_of_nil hnil]
  rfl

/-! ### Faults -/

/-- `s.Persists more e e'`: the fault `e` of a reading from `s` **becomes** `e'` with `more` behind
the text. A fault that blames everything up to the end of the text blames `more` too, without the
blanks at its end; any other fault stays as it is. -/
inductive Persists (s : Scan) (more : List Char) : Fault → Fault → Prop
  | same {e : Fault} : e.kind ≠ .trailingGarbage → Persists s more e e
  | longer {w : List Char} {m : Scan} : s.Reads w m →
      Persists s more (m.fault .trailingGarbage (dropEndBlanks m.rest))
        (m.fault .trailingGarbage (dropEndBlanks (m.rest ++ more)))

/-- What has been read before does not matter. -/
theorem Reads.persists {s m : Scan} {w : List Char} {e e' : Fault} (h : s.Reads w m)
    (hp : m.Persists more e e') : s.Persists more e e' := by
  cases hp with
  | same hkind => exact .same hkind
  | longer hreads => exact .longer (h.trans hreads)

/-- A round that reads a term reads it **as if nothing followed**. -/
theorem round_followedBy_some (hmore : Stops isWordChar more) {t : SignedTerm} {next : Scan}
    (h : s.round = .ok (some (t, next))) :
    (s.followedBy more).round = .ok (some (t, next.followedBy more)) := by
  rcases rest_skip_cases s with hrest | ⟨c, rest, hrest, hsign⟩ | ⟨sign, rest, hrest⟩
  · rw [round_of_nil hrest] at h
    cases h
  · rw [round_of_garbage hrest hsign] at h
    cases h
  · have hterm : (s.behindSign sign rest).rest ≠ [] := by
      intro hnil
      rw [round_of_sign_of_nil hrest hnil] at h
      cases h
    rw [round_followedBy hmore hrest hterm, h]
    rfl

/-- The fault of a round **persists**, if it blames something. -/
theorem round_followedBy_error (hmore : Stops isWordChar more) {e : Fault}
    (hfragment : e.fragment ≠ "") (h : s.round = .error e) :
    ∃ e', (s.followedBy more).round = .error e' ∧ s.Persists more e e' := by
  rcases rest_skip_cases s with hrest | ⟨c, rest, hrest, hsign⟩ | ⟨sign, rest, hrest⟩
  · rw [round_of_nil hrest] at h
    cases h
  · rw [round_of_garbage hrest hsign] at h
    cases h
    have hskip : (s.followedBy more).skip isBlank = (s.skip isBlank).followedBy more :=
      skip_followedBy_of_ne_nil (by simp [hrest])
    have hrest' : ((s.followedBy more).skip isBlank).rest = c :: (rest ++ more) := by
      rw [hskip, followedBy, hrest, List.cons_append]
    have hround := round_of_garbage hrest' hsign
    rw [hskip] at hround
    exact ⟨_, hround, .longer (reads_skip isBlank s)⟩
  · have hterm : (s.behindSign sign rest).rest ≠ [] := by
      intro hnil
      rw [round_of_sign_of_nil hrest hnil] at h
      cases h
      exact hfragment rfl
    have hkind : e.kind ≠ .trailingGarbage := by
      rw [round_of_sign hrest] at h
      cases hread : (s.behindSign sign rest).term with
      | error e' =>
          rw [hread] at h
          cases h
          exact kind_of_term hread
      | ok read =>
          rw [hread] at h
          cases h
    refine ⟨e, ?_, .same hkind⟩
    rw [round_followedBy hmore hrest hterm, h]
    rfl

/-- The fault of a reading **persists**, if it blames something. -/
theorem rounds_followedBy (hmore : Stops isWordChar more) {e : Fault} (hfragment : e.fragment ≠ "")
    (h : s.rounds = .error e) :
    ∃ e', (s.followedBy more).rounds = .error e' ∧ s.Persists more e e' := by
  induction s using Scan.rounds.induct with
  | case1 s e' hround =>
      rw [rounds_of_error hround] at h
      cases h
      obtain ⟨e', hround', hpersists⟩ := round_followedBy_error hmore hfragment hround
      exact ⟨e', rounds_of_error hround', hpersists⟩
  | case2 s hround =>
      rw [rounds_of_none hround] at h
      cases h
  | case3 s t next hround e' hnext ih =>
      rw [rounds_of_some hround, hnext] at h
      cases h
      obtain ⟨e', hnext', hpersists⟩ := ih hnext
      obtain ⟨u, v, w, m, -, -, hsign, -, hterm⟩ := round_eq_some hround
      refine ⟨e', ?_, (hsign.trans hterm.toReads).persists hpersists⟩
      rw [rounds_of_some (round_followedBy_some hmore hround), hnext']
      rfl
  | case4 s t next hround others hnext _ =>
      rw [rounds_of_some hround, hnext] at h
      cases h

end FollowedBy

end Scan

/-! ### The fault of a formula -/

/-- The reading of a longer text comes to **the same first term**, if there is one. -/
theorem Scan.atFirst_append {text more : List Char} (hrest : (atFirst text).rest ≠ []) :
    atFirst (text ++ more) = (atFirst text).followedBy more :=
  skip_followedBy_of_ne_nil hrest

/-- The fault of a formula **persists**, if it blames something. -/
theorem Formula.parse_append_error {text more : String} {e : Fault}
    (hmore : Stops Scan.isWordChar more.toList) (hfragment : e.fragment ≠ "")
    (h : Formula.parse text = .error e) :
    ∃ e', Formula.parse (text ++ more) = .error e' ∧
      (Scan.start text.toList).Persists more.toList e e' := by
  rcases eq_or_ne (Scan.atFirst text.toList).rest [] with hrest | hrest
  · rw [Formula.parse_of_nil hrest] at h
    cases h
    exact absurd rfl hfragment
  have hfirst : Scan.atFirst (text ++ more).toList =
      (Scan.atFirst text.toList).followedBy more.toList := by
    rw [String.toList_append]
    exact Scan.atFirst_append hrest
  have hrest' : (Scan.atFirst (text ++ more).toList).rest ≠ [] := by
    rw [hfirst]
    exact List.append_ne_nil_of_left_ne_nil hrest _
  have hreads := Scan.reads_skip isBlank (Scan.start text.toList)
  have hterm' := Scan.term_followedBy hmore (Scan.atFirst text.toList)
  rw [← hfirst] at hterm'
  cases hterm : (Scan.atFirst text.toList).term with
  | error e' =>
      rw [hterm] at hterm'
      rw [Formula.parse_of_error hrest hterm] at h
      cases h
      exact ⟨e, Formula.parse_of_error hrest' hterm', .same (Scan.kind_of_term hterm)⟩
  | ok read =>
      rw [hterm] at hterm'
      obtain ⟨w, hw⟩ := Scan.term_eq_ok hterm
      rw [Formula.parse_of_ok hrest hterm] at h
      cases hrounds : read.2.rounds with
      | error e' =>
          rw [hrounds] at h
          cases h
          obtain ⟨e', hrounds', hpersists⟩ := Scan.rounds_followedBy hmore hfragment hrounds
          refine ⟨e', ?_, (hreads.trans hw.toReads).persists hpersists⟩
          rw [Formula.parse_of_ok hrest' hterm', hrounds']
          rfl
      | ok others =>
          rw [hrounds] at h
          cases h

/-- **A fault is not cured by writing on**. A text with a fault that blames something fails with
whatever ends a word behind it, with the same kind and in the same place. It blames the same
fragment; only a fault that blames everything up to the end of the text blames what was written
too, without the blanks at its end. -/
theorem Formula.fault_persists {text more : String} {e : Fault} (h : Formula.parse text = .error e)
    (hfragment : e.fragment ≠ "")
    (hmore : ∀ c ∈ more.toList.head?, isBlank c = true ∨ c = '+' ∨ c = '-') :
    ∃ e', Formula.parse (text ++ more) = .error e' ∧ e'.kind = e.kind ∧
      e'.position = e.position ∧
      (e.kind ≠ .trailingGarbage → e'.fragment = e.fragment) ∧
      (e.kind = .trailingGarbage → ∃ before behind : String, text ++ more = before ++ behind ∧
        before.utf8ByteSize = e.position ∧
        e'.fragment = String.ofList (dropEndBlanks behind.toList)) := by
  obtain ⟨e', hparse, hpersists⟩ :=
    Formula.parse_append_error (stops_isWordChar_iff.mpr hmore) hfragment h
  refine ⟨e', hparse, ?_⟩
  cases hpersists with
  | same hkind => exact ⟨rfl, rfl, fun _ => rfl, fun htrailing => absurd htrailing hkind⟩
  | @longer w m hreads =>
      refine ⟨rfl, rfl, fun hkind => absurd rfl hkind, fun _ =>
        ⟨String.ofList w, String.ofList (m.rest ++ more.toList), ?_, ?_, ?_⟩⟩
      · have htext : text.toList = w ++ m.rest := hreads.rest_eq
        rw [← String.toList_inj]
        simp [htext]
      · rw [← byteSize_toList, String.toList_ofList, Scan.fault, hreads.position_eq]
        simp [Scan.start]
      · rw [String.toList_ofList]
        rfl

/-- The fault at byte 6 of `1d4 é`, where the blank is three bytes wide, takes in what is written
behind it. -/
theorem Formula.fault_persists_wide :
    Formula.parse "1d4\u2003é" = .error ⟨.trailingGarbage, 6, "é"⟩ ∧
    ∃ e', Formula.parse "1d4\u2003é + 2 " = .error e' ∧ e'.kind = .trailingGarbage ∧
      e'.position = 6 ∧
      ∃ before behind : String, "1d4\u2003é + 2 " = before ++ behind ∧
        before.utf8ByteSize = 6 ∧ e'.fragment = String.ofList (dropEndBlanks behind.toList) := by
  have hparse : Formula.parse "1d4\u2003é" = .error ⟨.trailingGarbage, 6, "é"⟩ := by
    decide +kernel
  have hmore : ∀ c ∈ " + 2 ".toList.head?, isBlank c = true ∨ c = '+' ∨ c = '-' := by
    intro c hc
    cases (show some ' ' = some c from hc)
    exact .inl (by decide)
  obtain ⟨e', hparse', hkind, hposition, -, hlonger⟩ :=
    Formula.fault_persists hparse (by decide) hmore
  exact ⟨hparse, e', hparse', hkind, hposition, hlonger rfl⟩

/-- A fault that blames nothing **can** be cured: behind a sign, only a term is missing. -/
example :
    Formula.parse "1d4 +" = .error ⟨.malformedTerm, 5, ""⟩ ∧
      Formula.parse "1d4 + 2" = .ok ⟨"1d4 + 2", [⟨.plus, .dice 1 4⟩, ⟨.plus, .constant 2⟩]⟩ := by
  decide +kernel

end Tabletop
