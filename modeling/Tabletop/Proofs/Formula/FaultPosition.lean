import Tabletop.Proofs.Formula.Acceptance
import Tabletop.Proofs.Text.Cutting

/-!
# Where a Fault Is

A fault points at the text that it blames. Its position is the width of the characters in
front of it, its fragment is what follows there, and everything in front of it is good: it
is a formula already where only the end of the text was expected, and becomes one by
writing `2` where a number was.

The proof follows the reading. `Scan.Blames s before e` locates a fault relative to the
state in which the reading stands, so that what has been read before is put in front by
`Scan.Reads.blames`; and what is in front of a fault, with its completion, is a
continuation of the grammar, so that it is read by the completeness of the reading.

## Main definitions

* `Scan.Blames`: a fault lies behind some text of a state.
* `Fault.Kind.completion`: what makes a formula of the text in front of a fault.

## Main results

* `Scan.blames_of_term`, `Scan.blames_of_rounds`: the faults of a term, and of a reading.
* `Formula.fault_located`: the faults of a formula.
-/

open Tabletop.Text Tabletop.Grammar

namespace Tabletop

/-- What makes a formula of the text **in front of** a fault: nothing where the text should
have ended, and a number elsewhere. -/
def Fault.Kind.completion : Fault.Kind → List Char
  | .trailingGarbage => []
  | _ => ['2']

/-- Everywhere but behind a term, a number completes the text. -/
theorem Fault.Kind.completion_of_ne {kind : Fault.Kind} (h : kind ≠ .trailingGarbage) :
    kind.completion = ['2'] := by
  cases kind <;> first | rfl | exact absurd rfl h

namespace Scan

/-- `s.Blames before e`: the fault `e` lies behind the text `before` of what is left, and its
fragment **follows** there. -/
structure Blames (s : Scan) (before : List Char) (e : Fault) : Prop where
  /-- The position is that of the state, moved by the bytes in front of the fault. -/
  position_eq : e.position = s.position + byteSize before
  /-- The fragment is what the text goes on with. -/
  rest_eq : ∃ after, s.rest = before ++ (e.fragment.toList ++ after)

/-- A fault that begins where the reading stands. -/
theorem blames_fault {s : Scan} {w after : List Char} (kind : Fault.Kind)
    (h : s.rest = w ++ after) : s.Blames [] (s.fault kind w) :=
  ⟨rfl, after, by simpa [fault] using h⟩

/-- What has been read before lies in front of the fault. -/
theorem Reads.blames {s m : Scan} {w before : List Char} {e : Fault} (h : s.Reads w m)
    (hb : m.Blames before e) : s.Blames (w ++ before) e := by
  obtain ⟨after, hafter⟩ := hb.rest_eq
  refine ⟨?_, after, ?_⟩
  · rw [hb.position_eq, h.position_eq, byteSize_append, Nat.add_assoc]
  · rw [h.rest_eq, hafter, List.append_assoc]

/-! ### The faults of a term -/

/-- The faults of a constant begin where the constant does. -/
theorem blames_of_constant {s : Scan} {e : Fault} (h : s.constant = .error e) :
    s.Blames [] e ∧ e.kind ≠ .trailingGarbage := by
  rw [constant] at h
  split at h
  · cases h
    exact ⟨blames_fault _ (reads_skip isWordChar s).rest_eq, by simp [fault]⟩
  · split at h
    · cases h
      exact ⟨blames_fault _ (reads_skip Char.isDigit s).rest_eq, by simp [fault]⟩
    · cases h

/-- The faults of a group of dice begin where the group does, or, if the sides are too few,
behind a count and a mark that are good. -/
theorem blames_of_diceGroup {s : Scan} {mark : Char} {rest : List Char} {e : Fault}
    (hrest : s.rest.dropWhile Char.isDigit = mark :: rest) (hmark : isDiceMark mark = true)
    (h : s.diceGroup mark rest = .error e) :
    e.kind ≠ .trailingGarbage ∧
      (s.Blames [] e ∨ ∃ w count, s.Blames w e ∧ TermText (w ++ ['2']) (.dice count 2) ∧
        s.dice + count ≤ 2000) := by
  rcases diceGroup_cases hrest with ⟨kind, w, after, herror, hkind, hafter⟩ |
    ⟨count, m, hreads, hcountDigits, hpos, hcount, hdice, herror | ⟨_, _, _, _, hok⟩⟩
  · rw [h] at herror
    cases herror
    exact ⟨hkind, .inl (blames_fault kind hafter)⟩
  · rw [h] at herror
    cases herror
    have hsides := hreads.blames
      (blames_fault .invalidSides (reads_skip Char.isDigit m).rest_eq)
    rw [List.append_nil] at hsides
    refine ⟨by simp [fault], .inr ⟨_, count, hsides, ?_, hdice⟩⟩
    rw [List.append_assoc]
    exact .dice hcountDigits hpos hcount (isDiceMark_iff.mp hmark) numeral_two (by omega)
      (by omega)
  · rw [h] at hok
    cases hok

/-- No fault of a term is about what follows it. -/
theorem kind_of_term {s : Scan} {e : Fault} (h : s.term = .error e) :
    e.kind ≠ .trailingGarbage := by
  rcases term_cases s with ⟨mark, rest, hrest, hmark, hterm⟩ | ⟨-, hterm⟩
  · exact (blames_of_diceGroup hrest hmark (hterm.symm.trans h)).1
  · exact (blames_of_constant (hterm.symm.trans h)).2

/-- What is in front of a fault of a term becomes **a term** by writing `2`. -/
theorem blames_of_term {s : Scan} {e : Fault} (h : s.term = .error e) (hdice : s.dice ≤ 2000) :
    ∃ before t, s.Blames before e ∧ TermText (before ++ ['2']) t ∧ s.dice + t.diceCount ≤ 2000 := by
  have hstart : s.Blames [] e → ∃ before t, s.Blames before e ∧
      TermText (before ++ ['2']) t ∧ s.dice + t.diceCount ≤ 2000 :=
    fun hb => ⟨[], .constant 2, hb, .constant numeral_two (by omega), hdice⟩
  rcases term_cases s with ⟨mark, rest, hrest, hmark, hterm⟩ | ⟨-, hterm⟩
  · obtain ⟨-, hb | ⟨w, count, hb, hw, hcount⟩⟩ :=
      blames_of_diceGroup hrest hmark (hterm.symm.trans h)
    · exact hstart hb
    · exact ⟨w, .dice count 2, hb, hw, hcount⟩
  · exact hstart (blames_of_constant (hterm.symm.trans h)).1

/-! ### The faults of a reading -/

/-- What is in front of a fault of a reading becomes **a continuation** by its completion. -/
theorem blames_of_rounds {s : Scan} {e : Fault} (h : s.rounds = .error e)
    (hdice : s.dice ≤ 2000) : ∃ before ts, s.Blames before e ∧
      Continuation (before ++ e.kind.completion) ts ∧ s.dice + diceOf ts ≤ 2000 := by
  induction s using Scan.rounds.induct with
  | case1 s e' hround =>
      rw [rounds_of_error hround] at h
      cases h
      rcases round_eq_error hround with ⟨u, m, hu, hreads, rfl⟩ |
        ⟨u, v, sign, m, hu, hv, hreads, hm, hterm⟩
      · -- Nothing but blanks lies between the state and what is not a sign.
        have hrest : m.rest = dropEndBlanks m.rest ++ m.rest.rtakeWhile isBlank :=
          List.rdropWhile_append_rtakeWhile.symm
        refine ⟨_, [], hreads.blames (blames_fault _ hrest), .done ?_, hdice⟩
        simpa [fault, Fault.Kind.completion] using hu
      · obtain ⟨before, t, hblames, ht, hcount⟩ := blames_of_term hterm (hm ▸ hdice)
        refine ⟨_, [⟨sign, t⟩], hreads.blames hblames, ?_, ?_⟩
        · have hmore : Continuation
              (u ++ sign.symbol :: (v ++ ((before ++ ['2']) ++ []))) [⟨sign, t⟩] :=
            .more hu hv ht (.done blanks_nil)
          rw [Fault.Kind.completion_of_ne (kind_of_term hterm)]
          simpa using hmore
        · rw [diceOf_cons, diceOf_nil, ← hm]
          exact hcount
  | case2 s hround =>
      rw [rounds_of_none hround] at h
      cases h
  | case3 s t next hround e' hnext ih =>
      rw [rounds_of_some hround, hnext] at h
      cases h
      obtain ⟨u, v, w, m, hu, hv, hsign, hm, hterm⟩ := round_eq_some hround
      obtain ⟨before, ts, hblames, htext, hcount⟩ := ih hnext (hterm.dice_le (hm ▸ hdice))
      refine ⟨_, t :: ts, (hsign.trans hterm.toReads).blames hblames, ?_, ?_⟩
      · have hmore : Continuation
            (u ++ t.sign.symbol :: (v ++ (w ++ (before ++ e.kind.completion)))) (t :: ts) :=
          .more hu hv hterm.termText htext
        simpa using hmore
      · rw [hterm.dice_eq, hm] at hcount
        rw [diceOf_cons]
        omega
  | case4 s t next hround others hnext _ =>
      rw [rounds_of_some hround, hnext] at h
      cases h

end Scan

/-! ### The faults of a formula -/

/-- What is in front of a fault of a formula becomes **a formula** by its completion. -/
theorem Formula.blames_of_parse {text : String} {e : Fault}
    (h : Formula.parse text = .error e) :
    ∃ before ts, (Scan.start text.toList).Blames before e ∧
      Sentence (before ++ e.kind.completion) ts ∧ diceOf ts ≤ 2000 := by
  rcases Formula.parse_cases text with hblank |
    ⟨u, s, hu, hreads, hzero, ⟨_, hterm, herror⟩ | ⟨first, next, hterm, ⟨_, hrounds, herror⟩ |
      ⟨others, -, hok⟩⟩⟩
  · rw [h] at hblank
    cases hblank
    refine ⟨[], [⟨.plus, .constant 2⟩], ⟨rfl, text.toList, rfl⟩, ?_, by decide⟩
    exact .mk (u := []) (w := ['2']) blanks_nil (.constant numeral_two (by omega))
      (.done blanks_nil)
  · rw [h] at herror
    cases herror
    obtain ⟨before, t, hblames, ht, hcount⟩ := Scan.blames_of_term hterm (by omega)
    refine ⟨_, [⟨.plus, t⟩], hreads.blames hblames, ?_, ?_⟩
    · rw [Fault.Kind.completion_of_ne (Scan.kind_of_term hterm), List.append_assoc]
      have hsentence := Sentence.mk hu ht (.done blanks_nil)
      rwa [List.append_nil] at hsentence
    · rw [diceOf_cons, diceOf_nil]
      dsimp only
      omega
  · rw [h] at herror
    cases herror
    obtain ⟨w, hw⟩ := Scan.term_eq_ok hterm
    obtain ⟨before, ts, hblames, htext, hcount⟩ :=
      Scan.blames_of_rounds hrounds (hw.dice_le (by omega))
    refine ⟨_, ⟨.plus, first⟩ :: ts, (hreads.trans hw.toReads).blames hblames, ?_, ?_⟩
    · rw [List.append_assoc, List.append_assoc]
      exact .mk hu hw.termText htext
    · rw [hw.dice_eq, hzero] at hcount
      rw [diceOf_cons]
      dsimp only
      omega
  · rw [h] at hok
    cases hok

/-- **Faults are located**: the position of a fault is a boundary between characters, the text
goes on there with the fragment, and what is in front of it is a formula, or, unless the
fault is that the text goes on, becomes one by writing `2`. -/
theorem Formula.fault_located {text : String} {e : Fault} (h : Formula.parse text = .error e) :
    (⟨e.position⟩ : String.Pos.Raw).IsValid text ∧ e.position ≤ text.utf8ByteSize ∧
    ∃ before after : String, text = before ++ (e.fragment ++ after) ∧
      before.utf8ByteSize = e.position ∧
      (e.kind = .trailingGarbage → ∃ f, Formula.parse before = .ok f) ∧
      (e.kind ≠ .trailingGarbage → ∃ f, Formula.parse (before ++ "2") = .ok f) := by
  obtain ⟨before, ts, ⟨hposition, after, hrest⟩, hsentence, hdice⟩ := Formula.blames_of_parse h
  have htext : text = String.ofList before ++ (e.fragment ++ String.ofList after) := by
    rw [← String.toList_inj]
    simpa using (show text.toList = _ from hrest)
  have hsize : (String.ofList before).utf8ByteSize = e.position := by
    rw [hposition, ← byteSize_toList, String.toList_ofList]
    exact (Nat.zero_add _).symm
  have hvalid : (⟨e.position⟩ : String.Pos.Raw).IsValid text :=
    String.Pos.Raw.isValid_iff_exists_append.mpr ⟨_, _, htext, by rw [← hsize]; rfl⟩
  refine ⟨hvalid, hvalid.le_utf8ByteSize, _, _, htext, hsize, ?_, ?_⟩
  · intro hkind
    rw [hkind] at hsentence
    have hprefix : Sentence (String.ofList before).toList ts := by
      simpa [Fault.Kind.completion] using hsentence
    exact ⟨_, Formula.parse_of_sentence hprefix hdice⟩
  · intro hkind
    rw [Fault.Kind.completion_of_ne hkind] at hsentence
    have hprefix : Sentence (String.ofList before ++ "2").toList ts := by
      simpa using hsentence
    exact ⟨_, Formula.parse_of_sentence hprefix hdice⟩

/-- A fault behind characters of three bytes: `1d4 - 3d` is good, and the `1` after it is
blamed at byte 9. -/
theorem Formula.fault_located_wide :
    Formula.parse "1d4\u2003-3d1é" = .error ⟨.invalidSides, 9, "1"⟩ ∧
    ∃ before after : String, "1d4\u2003-3d1é" = before ++ ("1" ++ after) ∧
      before.utf8ByteSize = 9 ∧ ∃ f, Formula.parse (before ++ "2") = .ok f := by
  have hparse : Formula.parse "1d4\u2003-3d1é" = .error ⟨.invalidSides, 9, "1"⟩ := by
    decide +kernel
  obtain ⟨-, -, before, after, htext, hsize, -, hgood⟩ := Formula.fault_located hparse
  exact ⟨hparse, before, after, htext, hsize, hgood (by decide)⟩

end Tabletop
