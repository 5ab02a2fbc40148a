import Mathlib.Data.List.TakeWhile
import Tabletop.Proofs.Text.Bytes
import Tabletop.SavedRolls
import Tabletop.Server.Endpoint
import Tabletop.Server.Percent

/-!
# Texts in Paths

A text can stand in a path with every byte **percent-encoded**, the digits in either case, and a
text of unreserved characters can stand there as it is. What comes out of the decoding is the text
that went in, because the bytes of a segment of ASCII characters are its characters, and those of a
text determine it.

## Main definitions

* `Percent.Encodes`: the segments in which every byte is encoded.

## Main results

* `Percent.decode?_of_encodes`, `Percent.encodes_encode`: decoding gives the encoded text back.
* `Percent.decode?_plain`: plain characters stand for themselves.
* `Endpoint.ofPath?_formula`, `Endpoint.ofPath?_savedRoll`, `Endpoint.ofPath?_entity`: the endpoints
  of such paths.
-/

namespace Tabletop

open Text

/-! ### Percent encoding -/

/-- Only ASCII characters are hexadecimal digits. -/
theorem hexValue?_ascii {c : Char} {n : Nat} (h : hexValue? c = some n) : c.toNat < 128 := by
  rw [hexValue?] at h
  split at h
  · rename_i hc
    exact ascii_of_le hc.2 (by decide)
  · split at h
    · rename_i hc
      exact ascii_of_le hc.2 (by decide)
    · exact ascii_of_le (Option.ite_none_right_eq_some.mp h).1.2 (by decide)

namespace Percent

/-- A segment **encodes** bytes if each of them stands in it as a percent sign and its two
hexadecimal digits, which may be of either case. -/
inductive Encodes : List UInt8 → List Char → Prop
  | nil : Encodes [] []
  | cons {b : UInt8} {high low : Char} {bytes : List UInt8} {segment : List Char} :
      hexValue? high = some (b.toNat / 16) → hexValue? low = some (b.toNat % 16) →
      Encodes bytes segment → Encodes (b :: bytes) ('%' :: high :: low :: segment)

variable {bytes : List UInt8} {segment : List Char}

/-- Encoding every byte of a text encodes its bytes. -/
theorem encodes_encode (text : String) : Encodes text.toUTF8.toList (encode text) := by
  rw [encode]
  induction text.toUTF8.toList with
  | nil => exact .nil
  | cons b bytes ih =>
      have hlt : b.toNat < 256 := b.toNat_lt
      exact .cons (hexValue?_hexDigit _ (by omega)) (hexValue?_hexDigit _ (by omega)) ih

/-- Where bytes are encoded, there are **percent signs and hexadecimal digits** only. -/
theorem Encodes.eq_sign_or_digit (h : Encodes bytes segment) :
    ∀ c ∈ segment, c = '%' ∨ (hexValue? c).isSome = true := by
  induction h with
  | nil => exact nofun
  | cons hhigh hlow _ ih =>
      intro c hc
      rcases hc with _ | ⟨_, _ | ⟨_, _ | ⟨_, hc⟩⟩⟩
      · exact .inl rfl
      · exact .inr (by rw [hhigh]; rfl)
      · exact .inr (by rw [hlow]; rfl)
      · exact ih c hc

/-- Encoded bytes are decoded again. -/
theorem Encodes.decodeBytes (h : Encodes bytes segment) :
    decodeBytes (segment.map asciiByte) = bytes := by
  induction h with
  | nil => rfl
  | @cons b high low bytes segment hhigh hlow _ ih =>
      have hbyte : byte? (asciiByte high) (asciiByte low) = some b := by
        rw [byte?, ofNat_asciiByte (hexValue?_ascii hhigh), ofNat_asciiByte (hexValue?_ascii hlow),
          hhigh, hlow]
        change some (UInt8.ofNat (b.toNat / 16 * 16 + b.toNat % 16)) = some b
        rw [Nat.div_add_mod', UInt8.ofNat_toNat]
      simp only [List.map_cons]
      rw [Percent.decodeBytes, if_pos (by decide), hbyte, ih]

/-- What encodes a text **stands for it**. -/
theorem decode?_of_encodes {text : String} (h : Encodes text.toUTF8.toList segment) :
    decode? segment = some text := by
  have hascii : ∀ c ∈ segment, c.toNat < 128 := by
    intro c hc
    rcases h.eq_sign_or_digit c hc with rfl | hdigit
    · decide
    · obtain ⟨n, hn⟩ := Option.isSome_iff_exists.mp hdigit
      exact hexValue?_ascii hn
  rw [decode?, toUTF8_toList_ascii hascii, h.decodeBytes, fromUTF8?_toList]

/-- Bytes other than the percent sign stand for themselves. -/
theorem decodeBytes_plain {bytes : List UInt8} (h : sign ∉ bytes) : decodeBytes bytes = bytes := by
  fun_induction decodeBytes bytes with
  | case1 => rfl
  | case2 => rfl
  | case3 => rfl
  | case4 => simp_all
  | case5 => simp_all
  | case6 => simp_all

/-- ASCII characters other than the percent sign **stand for themselves**. -/
theorem decode?_plain {segment : List Char} (h : ∀ c ∈ segment, c.toNat < 128 ∧ c ≠ '%') :
    decode? segment = some (String.ofList segment) := by
  have hascii := toUTF8_toList_ascii fun c hc => (h c hc).1
  have hsign : sign ∉ segment.map asciiByte := by
    intro hmem
    obtain ⟨c, hc, hsign⟩ := List.mem_map.mp hmem
    have heq := ofNat_asciiByte (h c hc).1
    rw [hsign] at heq
    exact (h c hc).2 heq.symm
  rw [decode?, hascii, decodeBytes_plain hsign, ← hascii, fromUTF8?_toList]

end Percent

/-! ### Segments -/

namespace Endpoint

/-- A character that neither ends a segment nor the path. -/
def isSegmentChar (c : Char) : Bool :=
  c != '/' && c != '?' && c != '#'

/-- A segment goes on up to **a slash, a query or a fragment**. -/
theorem isSegmentChar_iff {c : Char} : isSegmentChar c = true ↔ c ≠ '/' ∧ c ≠ '?' ∧ c ≠ '#' := by
  simp [isSegmentChar, and_assoc]

/-- The path with the given segments. -/
def spell (parts : List (List Char)) : List Char :=
  parts.flatMap fun segment => '/' :: segment

/-- A segment goes on **up to the next slash**. -/
theorem segments_append {segment : List Char} (h : segment.all isSegmentChar = true)
    (parts : List (List Char)) :
    segments (segment ++ spell parts) = segment :: (segments (spell parts)).drop 1 := by
  induction segment with
  | nil => cases parts <;> rfl
  | cons c segment ih =>
      obtain ⟨hc, hrest⟩ := Bool.and_eq_true_iff.mp h
      rw [List.cons_append, segments, if_neg (isSegmentChar_iff.mp hc).1, ih hrest]

/-- A spelled path has **the segments** that it was spelled from, after an empty one. -/
theorem segments_spell {parts : List (List Char)}
    (h : ∀ segment ∈ parts, segment.all isSegmentChar = true) :
    segments (spell parts) = [] :: parts := by
  induction parts with
  | nil => rfl
  | cons segment parts ih =>
      have hrest := ih fun other hmem => h other (List.mem_cons_of_mem _ hmem)
      have hspell : spell (segment :: parts) = '/' :: (segment ++ spell parts) := rfl
      rw [hspell, segments, if_pos rfl, segments_append (h segment List.mem_cons_self), hrest]
      rfl

/-- A spelled path has no query. -/
theorem withoutQuery_spell {parts : List (List Char)}
    (h : ∀ segment ∈ parts, segment.all isSegmentChar = true) :
    withoutQuery (spell parts) = spell parts := by
  have hall : ∀ c ∈ spell parts, (c != '?' && c != '#') = true := by
    intro c hc
    obtain ⟨segment, hmem, hc⟩ := List.mem_flatMap.mp hc
    rcases List.mem_cons.mp hc with rfl | hc
    · rfl
    · obtain ⟨-, hquery⟩ := isSegmentChar_iff.mp (List.all_eq_true.mp (h segment hmem) c hc)
      simpa using hquery
  exact List.takeWhile_eq_self_iff.mpr hall

/-- The endpoint of a spelled path is that **of its segments**. -/
theorem ofPath?_spell {target : String} {first : List Char} {others : List (List Char)}
    (htarget : target.toList = spell (first :: others))
    (h : ∀ segment ∈ first :: others, segment.all isSegmentChar = true) :
    ofPath? target = ofSegments? (first :: others) := by
  have hhost : dropHost? (spell (first :: others)) = none := rfl
  have hspell : spell (first :: others) = '/' :: (first ++ spell others) := rfl
  rw [ofPath?, htarget, pathOf, hhost]
  simp only [withoutQuery_spell h]
  rw [hspell]
  simp only [segments_append (h first List.mem_cons_self),
    segments_spell fun other hmem => h other (List.mem_cons_of_mem _ hmem), List.drop_one,
    List.tail_cons]

variable {segment : List Char}

/-- The endpoint of a segment under `/roll` that is not the fixed one: **the formula** in it. -/
theorem ofPath?_formula (h : segment.all isSegmentChar = true) (hempty : segment ≠ [])
    (hfixed : segment ≠ "savedroll".toList) :
    ofPath? ("/roll/" ++ String.ofList segment) = some (.formula segment) := by
  have hspell : ("/roll/" ++ String.ofList segment).toList = spell ["roll".toList, segment] := by
    have hroll : "/roll/".toList = '/' :: ("roll".toList ++ ['/']) := by decide +kernel
    simp only [String.toList_append, String.toList_ofList, spell, hroll, List.flatMap_cons,
      List.flatMap_nil, List.append_nil, List.cons_append, List.append_assoc, List.nil_append]
  have hsegments : ofSegments? ["roll".toList, segment] = some (.formula segment) := by
    have hinit : "roll".toList ≠ "init".toList := by decide +kernel
    simp only [ofSegments?, if_neg hinit, if_true, if_neg hfixed, withParameter,
      List.isEmpty_iff, if_neg hempty]
  rw [ofPath?_spell hspell, hsegments]
  intro other hmem
  rcases hmem with _ | ⟨_, _ | ⟨_, hmem⟩⟩
  · decide +kernel
  · exact h
  · cases hmem

/-- The endpoint of a segment behind two fixed ones is that **of the three**. -/
theorem ofPath?_behind {front : String} {first second : List Char}
    (hfront : front.toList = spell [first, second] ++ ['/'])
    (hfirst : first.all isSegmentChar = true) (hsecond : second.all isSegmentChar = true)
    (h : segment.all isSegmentChar = true) :
    ofPath? (front ++ String.ofList segment) = ofSegments? [first, second, segment] := by
  have hspell : (front ++ String.ofList segment).toList = spell [first, second, segment] := by
    rw [String.toList_append, String.toList_ofList, hfront]
    simp [spell]
  rw [ofPath?_spell hspell]
  simp only [List.forall_mem_cons]
  exact ⟨hfirst, hsecond, h, nofun⟩

/-- The endpoint of a segment under `/roll/savedroll`: **the saved roll** of that name. -/
theorem ofPath?_savedRoll (h : segment.all isSegmentChar = true) (hempty : segment ≠ []) :
    ofPath? ("/roll/savedroll/" ++ String.ofList segment) = some (.savedRoll segment) := by
  have hfront : "/roll/savedroll/".toList = spell ["roll".toList, "savedroll".toList] ++ ['/'] := by
    decide +kernel
  have hinit : ¬("roll".toList = "init".toList ∧ "savedroll".toList = "entity".toList) := by
    decide +kernel
  rw [ofPath?_behind hfront (by decide +kernel) (by decide +kernel) h]
  simp only [ofSegments?, if_neg hinit, and_self, if_true, withParameter, List.isEmpty_iff,
    if_neg hempty]

/-- The endpoint of a segment under `/init/entity`: **the entity** of that name. -/
theorem ofPath?_entity (h : segment.all isSegmentChar = true) (hempty : segment ≠ []) :
    ofPath? ("/init/entity/" ++ String.ofList segment) = some (.entity segment) := by
  have hfront : "/init/entity/".toList = spell ["init".toList, "entity".toList] ++ ['/'] := by
    decide +kernel
  rw [ofPath?_behind hfront (by decide +kernel) (by decide +kernel) h]
  simp only [ofSegments?, and_self, if_true, withParameter, List.isEmpty_iff, if_neg hempty]

end Endpoint

/-! ### Paths of texts and names -/

namespace Percent

variable {text : String} {segment : List Char}

/-- Encoded bytes are **in one segment**. -/
theorem Encodes.all_isSegmentChar {bytes : List UInt8} (h : Encodes bytes segment) :
    segment.all Endpoint.isSegmentChar = true := by
  refine List.all_eq_true.mpr fun c hc => ?_
  rcases h.eq_sign_or_digit c hc with rfl | hdigit
  · decide
  · refine Endpoint.isSegmentChar_iff.mpr ⟨?_, ?_, ?_⟩ <;> rintro rfl <;> cases hdigit

/-- An encoded text begins with a percent sign, unless it is empty. -/
theorem Encodes.eq_sign_cons (h : Encodes text.toUTF8.toList segment) (htext : text ≠ "") :
    ∃ rest, segment = '%' :: rest := by
  cases hbytes : text.toUTF8.toList with
  | nil =>
      have hnone : "".toUTF8.toList = [] := by decide +kernel
      have hsame := fromUTF8?_toList text
      rw [hbytes, ← hnone, fromUTF8?_toList] at hsame
      exact absurd (Option.some.inj hsame).symm htext
  | cons b bytes =>
      rw [hbytes] at h
      cases h with
      | cons => exact ⟨_, rfl⟩

/-- The path of a name in which **every byte is encoded** has the entity of that name. -/
theorem Encodes.ofPath?_entity (h : Encodes text.toUTF8.toList segment) (htext : text ≠ "") :
    Endpoint.ofPath? ("/init/entity/" ++ String.ofList segment) = some (.entity segment) := by
  obtain ⟨rest, hrest⟩ := h.eq_sign_cons htext
  refine Endpoint.ofPath?_entity h.all_isSegmentChar ?_
  rw [hrest]
  exact List.cons_ne_nil _ _

/-- The path of a text in which **every byte is encoded** has the formula of that text. -/
theorem Encodes.ofPath? (h : Encodes text.toUTF8.toList segment) (htext : text ≠ "") :
    Endpoint.ofPath? ("/roll/" ++ String.ofList segment) = some (.formula segment) := by
  obtain ⟨rest, hrest⟩ := h.eq_sign_cons htext
  refine Endpoint.ofPath?_formula h.all_isSegmentChar ?_ ?_
  · rw [hrest]
    exact List.cons_ne_nil _ _
  · rw [hrest]
    intro heq
    have hhead : some '%' = "savedroll".toList.head? := congrArg List.head? heq
    revert hhead
    decide +kernel

end Percent

/-- The characters of names are **plain** ASCII characters. -/
theorem isRollNameChar_plain {c : Char} (h : isRollNameChar c = true) :
    (c.toNat < 128 ∧ c ≠ '%') ∧ Endpoint.isSegmentChar c = true := by
  have hspecial : c ≠ '%' ∧ c ≠ '/' ∧ c ≠ '?' ∧ c ≠ '#' := by
    refine ⟨?_, ?_, ?_, ?_⟩ <;> rintro rfl <;> cases h
  refine ⟨⟨?_, hspecial.1⟩, Endpoint.isSegmentChar_iff.mpr hspecial.2⟩
  rw [isRollNameChar] at h
  simp only [Bool.or_eq_true, beq_iff_eq] at h
  rcases h with ((halnum | rfl) | rfl) | rfl
  · obtain halpha | hdigit := (Bool.or_eq_true _ _).mp halnum
    · obtain hupper | hlower := (Bool.or_eq_true _ _).mp halpha
      · exact ascii_of_le (of_decide_eq_true hupper).2 (by decide)
      · exact ascii_of_le (of_decide_eq_true ((Bool.and_eq_true _ _).mp hlower).2) (by decide)
    · exact ascii_of_le (of_decide_eq_true ((Bool.and_eq_true _ _).mp hdigit).2) (by decide)
  all_goals decide

/-- A name has **one or more** such characters. -/
theorem isRollName_plain {name : String} (h : isRollName name = true) :
    name.toList ≠ [] ∧ ∀ c ∈ name.toList, isRollNameChar c = true := by
  rw [isRollName] at h
  split at h
  · cases h
  · rename_i first others hname
    obtain ⟨hfirst, hothers⟩ := Bool.and_eq_true_iff.mp h
    rw [hname]
    refine ⟨List.cons_ne_nil _ _, fun c hc => ?_⟩
    rcases List.mem_cons.mp hc with rfl | hc
    · simp [isRollNameChar, hfirst]
    · exact List.all_eq_true.mp hothers c hc

/-- A name **stands for itself** in a path. -/
theorem decode?_of_isRollName {name : String} (h : isRollName name = true) :
    Percent.decode? name.toList = some name := by
  rw [Percent.decode?_plain fun c hc => (isRollNameChar_plain ((isRollName_plain h).2 c hc)).1,
    String.ofList_toList]

/-- The path of a name has **the saved roll** of that name. -/
theorem ofPath?_of_isRollName {name : String} (h : isRollName name = true) :
    Endpoint.ofPath? ("/roll/savedroll/" ++ name) = some (.savedRoll name.toList) := by
  have hpath := Endpoint.ofPath?_savedRoll
    (List.all_eq_true.mpr fun c hc => (isRollNameChar_plain ((isRollName_plain h).2 c hc)).2)
    (isRollName_plain h).1
  rwa [String.ofList_toList] at hpath

end Tabletop
