import Tabletop.Proofs.Json.Normal

/-!
# Embedded Texts

An embedded text may embed others, and a value is expanded with as many levels of them as its texts
have characters. No value needs more: a string in a value is **shorter than the text** that the
value was read from, since its quotes are missing and an escape is longer than its character. So
the bound is never the reason why a value stands for nothing, which is only ever **a broken embedded
text** somewhere in it.

## Main definitions

* `Json.Broken`: values in which some embedded text denotes nothing.
* `Json.AllTexts`: values with a condition on the strings in them.

## Main results

* `Json.texts_shorter_of_parse`: the strings of a value are shorter than its text.
* `Json.expand?_eq_none_iff`: a value stands for nothing just when it is broken.
-/

namespace Tabletop.Json

/-- Some embedded text of the value **denotes nothing**: it is not a string alone, or not a JSON
text, or it denotes a value which is broken itself. -/
inductive Broken : Json → Prop
  | item {items : List Json} {item : Json} : item ∈ items → Broken item → Broken (array items)
  | member {members : List (String × Json)} {m : String × Json} :
      isEmbedding members = false → m ∈ members → Broken m.2 → Broken (object members)
  | embedding {members : List (String × Json)} : isEmbedding members = true →
      (∀ text v, onlyText? members = some text → parse text = some v → Broken v) →
      Broken (object members)

/-- All strings in the value **satisfy a condition**, the keys of objects apart. -/
inductive AllTexts (P : String → Prop) : Json → Prop
  | null : AllTexts P null
  | bool {value : Bool} : AllTexts P (bool value)
  | number {value : Number} : AllTexts P (number value)
  | string {value : String} : P value → AllTexts P (string value)
  | array {items : List Json} : (∀ item ∈ items, AllTexts P item) → AllTexts P (array items)
  | object {members : List (String × Json)} :
      (∀ m ∈ members, AllTexts P m.2) → AllTexts P (object members)

variable {P Q : String → Prop} {text rest : List Char} {v : Json}

/-- What follows from a property of texts holds of **all texts** that it holds of. -/
theorem AllTexts.imp (h : AllTexts P v) (himp : ∀ s, P s → Q s) : AllTexts Q v := by
  induction h with
  | null => exact .null
  | bool => exact .bool
  | number => exact .number
  | string hs => exact .string (himp _ hs)
  | array _ ih => exact .array ih
  | object _ ih => exact .object ih

/-- Every value has texts in it of which nothing is asked. -/
theorem allTexts_true (v : Json) : AllTexts (fun _ => True) v := by
  induction v using induction with
  | null => exact .null
  | bool => exact .bool
  | number => exact .number
  | string => exact .string trivial
  | array _ ih => exact .array ih
  | object _ ih => exact .object ih

/-! ### What is read takes its text -/

section Readers

variable {α β : Type}

/-- The reader leaves **no more than there was**. -/
def Advances (read : List Char → Option (α × List Char)) : Prop :=
  ∀ text a rest, read text = some (a, rest) → rest.length ≤ text.length

/-- Skipping space leaves **no more** than there was. -/
theorem length_skipSpace (text : List Char) : (skipSpace text).length ≤ text.length :=
  (List.dropWhile_sublist isSpace).length_le

/-- Reading digits leaves no more than there was. -/
theorem advances_readDigits : Advances readDigits := by
  intro text digits rest h
  rw [readDigits] at h
  split at h
  · cases h
  · cases h
    exact (List.dropWhile_sublist _).length_le

/-- So does reading the whole part of a numeral, which is digits. -/
theorem advances_readWhole : Advances readWhole := by
  intro text digits rest h
  obtain ⟨⟨_, after⟩, hdigits, h⟩ := Option.bind_eq_some_iff.mp h
  dsimp only at h
  split at h
  · cases h
  · cases h
    exact advances_readDigits _ _ _ hdigits

/-- So does reading a fraction. It may be missing, and then nothing is taken. -/
theorem advances_readFraction : Advances readFraction := by
  intro text fraction rest h
  unfold readFraction at h
  split at h
  · obtain ⟨_, hdigits, heq⟩ := Option.map_eq_some_iff.mp h
    cases heq
    exact Nat.le_succ_of_le (advances_readDigits _ _ _ hdigits)
  · cases h
    exact Nat.le_refl _

/-- So does reading a power of ten, **with its sign or without**. -/
theorem advances_readPower : Advances readPower := by
  intro text power rest h
  unfold readPower at h
  split at h
  case h_3 =>
      obtain ⟨_, hdigits, heq⟩ := Option.map_eq_some_iff.mp h
      cases heq
      exact advances_readDigits _ _ _ hdigits
  all_goals
    obtain ⟨_, hdigits, heq⟩ := Option.map_eq_some_iff.mp h
    cases heq
    exact Nat.le_succ_of_le (advances_readDigits _ _ _ hdigits)

/-- So does reading an exponent, which may be missing too. -/
theorem advances_readExponent : Advances readExponent := by
  intro text exponent rest h
  unfold readExponent at h
  split at h
  · split at h
    · obtain ⟨_, hpower, heq⟩ := Option.map_eq_some_iff.mp h
      cases heq
      exact Nat.le_succ_of_le (advances_readPower _ _ _ hpower)
    · cases h
      exact Nat.le_refl _
  · cases h
    exact Nat.le_refl _

/-- A numeral without its sign is read **part by part**, and no part gives anything back. -/
theorem advances_readUnsigned (negative : Bool) : Advances (readUnsigned negative) := by
  intro text numeral rest h
  obtain ⟨⟨_, behindWhole⟩, hwhole, h⟩ := Option.bind_eq_some_iff.mp h
  obtain ⟨⟨_, behindFraction⟩, hfraction, h⟩ := Option.bind_eq_some_iff.mp h
  obtain ⟨⟨_, behindExponent⟩, hexponent, h⟩ := Option.bind_eq_some_iff.mp h
  cases h
  calc rest.length ≤ behindFraction.length := advances_readExponent _ _ _ hexponent
    _ ≤ behindWhole.length := advances_readFraction _ _ _ hfraction
    _ ≤ text.length := advances_readWhole _ _ _ hwhole

/-- Reading a numeral leaves no more than there was. -/
theorem advances_readNumeral : Advances readNumeral := by
  intro text numeral rest h
  unfold readNumeral at h
  split at h
  · exact Nat.le_succ_of_le (advances_readUnsigned true _ _ _ h)
  · exact advances_readUnsigned false _ _ _ h

/-- A string **and its closing quote** take their characters from the text, whatever the escapes
stand for. -/
theorem length_of_readString {escape : List Char → Option (Char × Nat)} {taken : Nat}
    {chars : List Char} (h : readStringFrom escape taken text = some (chars, rest)) :
    chars.length + rest.length < text.length := by
  induction text generalizing taken chars rest with
  | nil => cases taken <;> cases h
  | cons c text ih =>
      cases taken with
      | succ taken => exact Nat.lt_succ_of_lt (ih h)
      | zero =>
          -- An escape takes its backslash at least, so nothing need be known of `escape`.
          rw [readStringFrom] at h
          split at h
          · cases h
            simp
          · split at h
            · split at h
              · cases h
              · obtain ⟨others, hothers, heq⟩ := Option.map_eq_some_iff.mp h
                cases heq
                have := ih hothers
                simp only [List.length_cons]
                omega
            · split at h
              · cases h
              · obtain ⟨others, hothers, heq⟩ := Option.map_eq_some_iff.mp h
                cases heq
                have := ih hothers
                simp only [List.length_cons]
                omega

/-- The reader leaves no more than there was, and what it reads satisfies **a condition on the
length** of the text. -/
def AdvancesWith (P : Nat → α → Prop) (read : List Char → Option (α × List Char)) : Prop :=
  ∀ text a rest, read text = some (a, rest) → rest.length ≤ text.length ∧ P text.length a

variable {item : List Char → Option (α × List Char)} {close : Char} {limit : Nat}
variable {R : Nat → α → Prop}

/-- What an item satisfies in a text, it satisfies **in a longer one**. -/
def Grows (R : Nat → α → Prop) : Prop :=
  ∀ a m n, m ≤ n → R m a → R n a

/-- Items leave no more than there was. What each of them satisfies **in its own text** it satisfies
in the text of all, which is longer. -/
theorem advancesWith_readItems (hgrows : Grows R) (hitem : AdvancesWith R item) :
    AdvancesWith (fun n items => ∀ a ∈ items, R n a) (readItems item close limit) := by
  intro text items rest h
  induction limit generalizing text items rest with
  | zero => cases h
  | succ limit ih =>
      rw [readItems] at h
      split at h
      · cases h
      · rename_i first behind hfirst
        obtain ⟨hbehind, hR⟩ := hitem _ _ _ hfirst
        split at h
        · cases h
        · rename_i c next hnext
          have hspace := length_skipSpace behind
          rw [hnext, List.length_cons] at hspace
          split at h
          · cases h
            exact ⟨by omega, List.forall_mem_singleton.mpr hR⟩
          · split at h
            · obtain ⟨others, hothers, heq⟩ := Option.map_eq_some_iff.mp h
              cases heq
              obtain ⟨hrest, hall⟩ := ih _ _ _ hothers
              exact ⟨by omega, List.forall_mem_cons.mpr
                ⟨hR, fun a ha => hgrows _ _ _ (by omega) (hall a ha)⟩⟩
            · cases h

/-- The same with the brackets around them. -/
theorem advancesWith_readSequence (hgrows : Grows R) (hitem : AdvancesWith R item) :
    AdvancesWith (fun n items => ∀ a ∈ items, R n a) (readSequence item close limit) := by
  intro text items rest h
  have hspace := length_skipSpace text
  rw [readSequence] at h
  split at h
  · cases h
  · rename_i c behind hbehind
    rw [hbehind, List.length_cons] at hspace
    split at h
    · cases h
      exact ⟨by omega, nofun⟩
    · obtain ⟨hrest, hall⟩ := advancesWith_readItems hgrows hitem _ _ _ h
      rw [List.length_cons] at hrest hall
      exact ⟨by omega, fun a ha => hgrows _ _ _ hspace (hall a ha)⟩

end Readers

/-- The strings of a value in a text of this length are **shorter than the text**. -/
def TextsShorter (length : Nat) (v : Json) : Prop :=
  AllTexts (fun s => s.length < length) v

/-- Texts that are shorter than a bound are shorter than **a greater one**. -/
theorem grows_textsShorter : Grows TextsShorter :=
  fun _ _ _ hle h => h.imp fun _ hs => Nat.lt_of_lt_of_le hs hle

/-- The text of a string is **shorter** than what was read: it had quotes around it. -/
theorem advancesWith_readScalar : AdvancesWith TextsShorter (readScalar .strict) := by
  intro text v rest h
  unfold readScalar at h
  split at h
  case h_4 inside =>
      obtain ⟨inner, hread, heq⟩ := Option.map_eq_some_iff.mp h
      cases heq
      have hlength := length_of_readString hread
      refine ⟨by rw [List.length_cons]; omega, .string ?_⟩
      rw [String.length_ofList, List.length_cons]
      omega
  case h_5 =>
      split at h
      · cases h
      · rename_i numeral behind hnumeral
        obtain ⟨_, -, heq⟩ := Option.map_eq_some_iff.mp h
        cases heq
        exact ⟨advances_readNumeral _ _ _ hnumeral, .number⟩
  all_goals
    obtain ⟨_, hword, heq⟩ := Option.map_eq_some_iff.mp h
    cases heq
    obtain ⟨-, heq⟩ := Option.ite_none_right_eq_some.mp hword
    cases heq
    refine ⟨?_, by constructor⟩
    rw [List.length_drop]
    exact Nat.sub_le _ _

/-- A key takes its quotes and its colon. -/
theorem advances_readKey {escape : List Char → Option (Char × Nat)} :
    Advances (readKey escape) := by
  intro text key rest h
  have hspace := length_skipSpace text
  rw [readKey] at h
  split at h
  · rename_i inside hinside
    rw [hinside, List.length_cons] at hspace
    split at h
    · cases h
    · rename_i chars behind hread
      have hbehind := length_of_readString hread
      have hcolon := length_skipSpace behind
      split at h
      · rename_i next hnext
        cases h
        rw [hnext, List.length_cons] at hcolon
        omega
      · cases h
  · cases h

/-- The texts in the value of a member are shorter than **the member**. -/
theorem advancesWith_readMember {escape : List Char → Option (Char × Nat)}
    {value : List Char → Option (Json × List Char)} (hvalue : AdvancesWith TextsShorter value) :
    AdvancesWith (fun n m => TextsShorter n m.2) (readMember escape value) := by
  intro text m rest h
  rw [readMember] at h
  split at h
  · cases h
  · rename_i key behind hkey
    obtain ⟨_, hread, heq⟩ := Option.map_eq_some_iff.mp h
    cases heq
    obtain ⟨hrest, hshorter⟩ := hvalue _ _ _ hread
    have hbehind := advances_readKey _ _ _ hkey
    exact ⟨by omega, grows_textsShorter _ _ _ hbehind hshorter⟩

/-- **What is read takes its text**: of the text there is left no more than there was, and the
strings that were read are shorter than it was. -/
theorem advancesWith_readWith {limit depth : Nat} :
    AdvancesWith TextsShorter (readWith .strict limit depth) := by
  induction depth with
  | zero =>
      intro text v rest h
      have hspace := length_skipSpace text
      rw [readWith] at h
      split at h
      · cases h
      · cases h
      · obtain ⟨hrest, hshorter⟩ := advancesWith_readScalar _ _ _ h
        exact ⟨by omega, grows_textsShorter _ _ _ hspace hshorter⟩
  | succ depth ih =>
      intro text v rest h
      have hspace := length_skipSpace text
      rw [readWith] at h
      split at h
      · rename_i inside hinside
        rw [hinside, List.length_cons] at hspace
        obtain ⟨inner, hitems, heq⟩ := Option.map_eq_some_iff.mp h
        cases heq
        obtain ⟨hrest, hshorter⟩ := advancesWith_readSequence grows_textsShorter ih _ _ _ hitems
        exact ⟨by omega,
          .array fun item hitem => grows_textsShorter _ _ _ (by omega) (hshorter item hitem)⟩
      · rename_i inside hinside
        rw [hinside, List.length_cons] at hspace
        obtain ⟨inner, hmembers, heq⟩ := Option.map_eq_some_iff.mp h
        cases heq
        obtain ⟨hrest, hshorter⟩ := advancesWith_readSequence
          (fun m => grows_textsShorter m.2) (advancesWith_readMember ih) _ _ _ hmembers
        exact ⟨by omega, .object fun m hm => grows_textsShorter _ _ _ (by omega) (hshorter m hm)⟩
      · obtain ⟨hrest, hshorter⟩ := advancesWith_readScalar _ _ _ h
        exact ⟨by omega, grows_textsShorter _ _ _ hspace hshorter⟩

/-- The strings of a value that a text denotes are **shorter than the text**. -/
theorem texts_shorter_of_parse {body : String} (h : parse body = some v) :
    AllTexts (fun s => s.length < body.length) v := by
  obtain ⟨_, hread, -⟩ := parse_eq_some_iff.mp h
  exact (advancesWith_readWith _ _ _ hread).2

/-! ### Broken values -/

section Expansion

variable {denote : String → Option Json}

/-- A list cannot be expanded just when **one of its items** cannot. -/
theorem expandItems_eq_none_iff {items : List Json} :
    expandItems denote items = none ↔ ∃ item ∈ items, expandWith denote item = none := by
  induction items with
  | nil => exact iff_of_false nofun nofun
  | cons item items ih =>
      rw [expandItems, List.exists_mem_cons_iff, ← ih]
      cases expandWith denote item <;> cases expandItems denote items <;> simp

/-- The same for the members of an object. -/
theorem expandMembers_eq_none_iff {members : List (String × Json)} :
    expandMembers denote members = none ↔ ∃ m ∈ members, expandWith denote m.2 = none := by
  induction members with
  | nil => exact iff_of_false nofun nofun
  | cons m members ih =>
      obtain ⟨key, value⟩ := m
      rw [expandMembers, List.exists_mem_cons_iff, ← ih]
      cases expandWith denote value <;> cases expandMembers denote members <;> simp

/-- A list is broken if **an item** is. -/
theorem broken_array_iff {items : List Json} :
    Broken (array items) ↔ ∃ item ∈ items, Broken item := by
  constructor
  · rintro (⟨hitem, hbroken⟩ | _ | _)
    exact ⟨_, hitem, hbroken⟩
  · rintro ⟨item, hitem, hbroken⟩
    exact .item hitem hbroken

/-- An object that embeds no text is broken if **a member** is. -/
theorem broken_object_iff {members : List (String × Json)} (h : isEmbedding members = false) :
    Broken (object members) ↔ ∃ m ∈ members, Broken m.2 := by
  constructor
  · rintro (_ | ⟨-, hm, hbroken⟩ | ⟨hembeds, -⟩)
    · exact ⟨_, hm, hbroken⟩
    · rw [h] at hembeds
      cases hembeds
  · rintro ⟨m, hm, hbroken⟩
    exact .member h hm hbroken

/-- The text **denotes nothing**, or a broken value. -/
def BrokenText (text : String) : Prop :=
  ∀ v, parse text = some v → Broken v

/-- An object that embeds a text is broken if **its text** is, or if it has none. -/
theorem broken_embedding_iff {members : List (String × Json)} (h : isEmbedding members = true) :
    Broken (object members) ↔ ∀ s, onlyText? members = some s → BrokenText s := by
  constructor
  · rintro (_ | ⟨hplain, -, -⟩ | ⟨-, hbroken⟩)
    · rw [h] at hplain
      cases hplain
    · exact fun s hs v hv => hbroken s v hs hv
  · exact fun hbroken => .embedding h fun s v hs hv => hbroken s hs v hv

/-- The string of an object with a single member is **one of its strings**. -/
theorem AllTexts.onlyText? {members : List (String × Json)} {s : String}
    (h : AllTexts P (.object members)) (hs : Json.onlyText? members = some s) : P s := by
  unfold Json.onlyText? at hs
  split at hs
  · cases hs
    cases h with
    | object hmembers =>
        cases hmembers _ List.mem_cons_self with
        | string hP => exact hP
  · cases hs

/-- If its texts are denoted as they should be, a value is expanded **unless it is broken**. -/
theorem expandWith_eq_none_iff (hdenote : ∀ s, P s → (denote s = none ↔ BrokenText s))
    (h : AllTexts P v) : expandWith denote v = none ↔ Broken v := by
  induction h with
  | null => exact iff_of_false nofun nofun
  | bool => exact iff_of_false nofun nofun
  | number => exact iff_of_false nofun nofun
  | string => exact iff_of_false nofun nofun
  | array _ ih =>
      rw [expandWith, Option.map_eq_none_iff, expandItems_eq_none_iff, broken_array_iff]
      exact exists_congr fun item => and_congr_right fun hitem => ih item hitem
  | @object members hall ih =>
      rw [expandWith]
      cases hembeds : isEmbedding members with
      | true =>
          rw [if_pos rfl, broken_embedding_iff hembeds]
          cases htext : Json.onlyText? members with
          | none => simp
          | some s =>
              rw [Option.bind_some, hdenote s ((AllTexts.object hall).onlyText? htext)]
              exact ⟨fun hs _ heq => Option.some.inj heq ▸ hs, fun hs => hs s rfl⟩
      | false =>
          rw [if_neg Bool.false_ne_true, Option.map_eq_none_iff, expandMembers_eq_none_iff,
            broken_object_iff hembeds]
          exact exists_congr fun m => and_congr_right fun hm => ih m hm

end Expansion

/-- As many levels as a text has characters **are enough** for it. -/
theorem denotation?_eq_none_iff {limit : Nat} {s : String} (h : s.length ≤ limit) :
    denotation? limit s = none ↔ BrokenText s := by
  induction limit generalizing s with
  | zero =>
      obtain rfl : s = "" := String.length_eq_zero_iff.mp (Nat.le_zero.mp h)
      exact iff_of_true rfl nofun
  | succ limit ih =>
      rw [denotation?, BrokenText]
      cases hparse : parse s with
      | none => exact iff_of_true rfl nofun
      | some v =>
          -- The texts in `v` are shorter than `s`, so the levels that are left are enough for them.
          have hshorter : AllTexts (fun s => s.length ≤ limit) v :=
            (texts_shorter_of_parse hparse).imp fun _ hlt => by omega
          rw [Option.bind_some, expandWith_eq_none_iff (fun _ hs => ih hs) hshorter]
          exact ⟨fun hbroken _ heq => Option.some.inj heq ▸ hbroken, fun hall => hall v rfl⟩

/-- A value stands for nothing **just when it is broken**. -/
theorem expand?_eq_none_iff : v.expand? = none ↔ Broken v :=
  expandWith_eq_none_iff (fun _ _ => denotation?_eq_none_iff (Nat.le_refl _)) (allTexts_true v)

/-- Without the key of embedded texts nothing **is broken**. -/
theorem All.not_broken {num : Number → Prop} (h : All (· ≠ embeddedKey) num v) : ¬ Broken v := by
  rw [← expand?_eq_none_iff, h.expand?]
  exact nofun

end Tabletop.Json
