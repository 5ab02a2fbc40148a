import Mathlib.Tactic.SplitIfs
import Mathlib.Data.List.DropRight
import Tabletop.Json.Reader
import Tabletop.Json.Writer

/-!
# The Shapes of Small JSON Values

What the texts look like that denote a string, a list of one string, or an object with one member.
The blanks between the lexemes are left open, and so is how the characters of strings are
escaped. The shapes say nothing of the bounds on nesting and on lengths, so they carry over to
every reader of the same lexemes.

## Main definitions

* `Json.BeginsString`, `Json.OpensObject`: a string, and a brace with a key after it, at the start
  of a text.

## Main results

* `Json.parse_eq_member_iff`: the texts of an object with one member.
* `Json.readWith_eq_string_iff`, `Json.readWith_eq_texts_iff`: the texts of a string and of a list
  of one string.
* `Json.readString_escaped`: a string that was written is read again.
* `Json.parse_compact_text`, `Json.parse_compact_texts`: so is an object whose only member is a
  string, or a list of one string.
-/

namespace Tabletop.Json

open Text

/-- After blanks were skipped, there are none to skip. -/
theorem skipSpace_skipSpace (text : List Char) : skipSpace (skipSpace text) = skipSpace text :=
  List.dropWhile_idempotent isSpace text

/-! ### Strings -/

/-- A text **begins with a string**, after blanks, and goes on with `rest` after it. -/
def BeginsString (text : List Char) (value : String) (rest : List Char) : Prop :=
  ∃ inside chars, skipSpace text = '"' :: inside ∧ readString inside = some (chars, rest) ∧
    String.ofList chars = value

variable {text rest : List Char} {key value : String}

/-- Space in front of a string does not matter. -/
theorem beginsString_skipSpace :
    BeginsString (skipSpace text) value rest ↔ BeginsString text value rest := by
  rw [BeginsString, BeginsString, skipSpace_skipSpace]

/-- What begins with anything but a quote does not begin with a string. -/
theorem not_beginsString {c : Char} {inside : List Char} (h : skipSpace text = c :: inside)
    (hc : c ≠ '"') : ¬ BeginsString text value rest := by
  rintro ⟨_, _, hquote, -⟩
  rw [h] at hquote
  exact hc (List.cons.inj hquote).1

/-- A scalar that is a string **begins with a quote**. -/
theorem readScalar_eq_string_iff :
    readScalar .strict text = some (string value, rest) ↔
      ∃ inside chars, text = '"' :: inside ∧ readString inside = some (chars, rest) ∧
        String.ofList chars = value := by
  constructor
  · intro h
    unfold readScalar at h
    split at h
    · simp at h
    · simp at h
    · simp at h
    · rename_i inside
      obtain ⟨⟨chars, rest'⟩, hread, heq⟩ := Option.map_eq_some_iff.mp h
      cases heq
      exact ⟨inside, chars, rfl, hread, rfl⟩
    · split at h
      · cases h
      · simp at h
  · rintro ⟨inside, chars, rfl, hread, rfl⟩
    have hread' : readStringWith escape? inside = some (chars, rest) := hread
    simp [readScalar, Leaves.strict, hread']

/-- What is read as a string **begins with one**, whatever the bounds are. -/
theorem readWith_eq_string_iff {limit depth : Nat} :
    readWith .strict limit depth text = some (string value, rest) ↔
      BeginsString text value rest := by
  rw [readWith]
  split
  · rename_i htext
    refine iff_of_false (fun h => ?_) (not_beginsString htext (by decide))
    cases depth with
    | zero => cases h
    | succ depth => simp at h
  · rename_i htext
    refine iff_of_false (fun h => ?_) (not_beginsString htext (by decide))
    cases depth with
    | zero => cases h
    | succ depth => simp at h
  · exact readScalar_eq_string_iff

/-- A **key** is a string and a colon. -/
theorem readKey_eq_some_iff :
    readKey escape? text = some (key, rest) ↔
      ∃ next, BeginsString text key next ∧ skipSpace next = ':' :: rest := by
  constructor
  · intro h
    rw [readKey] at h
    split at h
    · rename_i inside htext
      split at h
      · cases h
      · rename_i chars next hread
        split at h
        · rename_i after hcolon
          cases h
          exact ⟨next, ⟨inside, chars, htext, hread, rfl⟩, hcolon⟩
        · cases h
    · cases h
  · rintro ⟨next, ⟨inside, chars, htext, hread, rfl⟩, hcolon⟩
    have hread' : readStringWith escape? inside = some (chars, next) := hread
    simp only [readKey, htext, hread', hcolon]

/-! ### Lists and objects of one -/

section Sequences

variable {α : Type} {item : List Char → Option (α × List Char)} {close : Char} {limit : Nat}

/-- A sequence that is not closed at once has **an item at least**. -/
theorem readItems_ne_nil : readItems item close limit text ≠ some ([], rest) := by
  cases limit with
  | zero => exact nofun
  | succ limit =>
      intro h
      rw [readItems] at h
      split at h
      · cases h
      · split at h
        · cases h
        · split_ifs at h
          · cases h
          · simp at h

/-- One item and the closing character. -/
theorem readItems_eq_singleton_iff {a : α} :
    readItems item close limit text = some ([a], rest) ↔
      0 < limit ∧ ∃ next, item text = some (a, next) ∧ skipSpace next = close :: rest := by
  cases limit with
  | zero => exact iff_of_false nofun fun h => Nat.lt_irrefl 0 h.1
  | succ limit =>
      rw [readItems]
      constructor
      · intro h
        split at h
        · cases h
        · rename_i first next hitem
          split at h
          · cases h
          · rename_i last after hnext
            split_ifs at h with hlast hcomma
            · cases h
              exact ⟨limit.succ_pos, next, hitem, hlast ▸ hnext⟩
            · obtain ⟨⟨items, _⟩, hitems, heq⟩ := Option.map_eq_some_iff.mp h
              cases heq
              exact absurd hitems readItems_ne_nil
      · rintro ⟨-, next, hitem, hnext⟩
        simp only [hitem, hnext, if_true]

/-- A sequence of **one item**, after its opening character. -/
theorem readSequence_eq_singleton_iff {a : α} :
    readSequence item close limit text = some ([a], rest) ↔
      0 < limit ∧ ∃ c inside next, skipSpace text = c :: inside ∧ c ≠ close ∧
        item (c :: inside) = some (a, next) ∧ skipSpace next = close :: rest := by
  rw [readSequence]
  cases htext : skipSpace text with
  | nil => exact iff_of_false nofun nofun
  | cons c inside =>
      constructor
      · intro h
        dsimp only at h
        split_ifs at h with hclose
        · cases h
        · obtain ⟨hlimit, next, hitem, hnext⟩ := readItems_eq_singleton_iff.mp h
          exact ⟨hlimit, c, inside, next, rfl, hclose, hitem, hnext⟩
      · rintro ⟨hlimit, _, _, next, heq, hclose, hitem, hnext⟩
        cases heq
        refine (if_neg hclose).trans ?_
        exact readItems_eq_singleton_iff.mpr ⟨hlimit, next, hitem, hnext⟩

end Sequences

/-- A scalar is **neither a list nor an object**. -/
theorem readScalar_ne_nested {leaves : Leaves} {v : Json}
    (h : readScalar leaves text = some (v, rest)) :
    (∀ items, v ≠ array items) ∧ ∀ members, v ≠ object members := by
  unfold readScalar at h
  split at h
  case h_5 =>
      split at h
      · cases h
      · obtain ⟨_, -, heq⟩ := Option.map_eq_some_iff.mp h
        cases heq
        exact ⟨nofun, nofun⟩
  all_goals
    obtain ⟨_, -, heq⟩ := Option.map_eq_some_iff.mp h
    cases heq
    exact ⟨nofun, nofun⟩

/-- What is read as a list **begins with a bracket**. -/
theorem readWith_eq_array_iff {leaves : Leaves} {limit depth : Nat} {items : List Json} :
    readWith leaves limit (depth + 1) text = some (array items, rest) ↔
      ∃ inside, skipSpace text = '[' :: inside ∧
        readSequence (readWith leaves limit depth) ']' limit inside = some (items, rest) := by
  rw [readWith]
  split
  · rename_i inside htext
    simp [htext]
  · rename_i inside htext
    simp [htext]
  · rename_i hbracket hbrace
    constructor
    · intro h
      exact absurd rfl ((readScalar_ne_nested h).1 items)
    · rintro ⟨inside, htext, -⟩
      exact absurd htext (hbracket inside)

/-- What is read as an object **begins with a brace**. -/
theorem readWith_eq_object_iff {leaves : Leaves} {limit depth : Nat}
    {members : List (String × Json)} :
    readWith leaves limit (depth + 1) text = some (object members, rest) ↔
      ∃ inside, skipSpace text = '\x7b' :: inside ∧
        readSequence (readMember leaves.escape (readWith leaves limit depth)) '\x7d' limit inside =
          some (members, rest) := by
  rw [readWith]
  split
  · rename_i inside htext
    simp [htext]
  · rename_i inside htext
    simp [htext]
  · rename_i hbracket hbrace
    constructor
    · intro h
      exact absurd rfl ((readScalar_ne_nested h).2 members)
    · rintro ⟨inside, htext, -⟩
      exact absurd htext (hbrace inside)

/-- A list of **one string**. -/
theorem readWith_eq_texts_iff {limit depth : Nat} :
    readWith .strict limit (depth + 1) text = some (array [string value], rest) ↔
      0 < limit ∧ ∃ inside next, skipSpace text = '[' :: inside ∧ BeginsString inside value next ∧
        skipSpace next = ']' :: rest := by
  rw [readWith_eq_array_iff]
  constructor
  · rintro ⟨inside, htext, hitems⟩
    obtain ⟨hlimit, c, after, next, hinside, -, hitem, hnext⟩ :=
      readSequence_eq_singleton_iff.mp hitems
    rw [← hinside] at hitem
    exact ⟨hlimit, inside, next, htext,
      beginsString_skipSpace.mp (readWith_eq_string_iff.mp hitem), hnext⟩
  · rintro ⟨hlimit, inside, next, htext, hstring, hnext⟩
    obtain ⟨after, -, hinside, -⟩ := id hstring
    have hitem : readWith .strict limit depth ('"' :: after) = some (string value, next) :=
      readWith_eq_string_iff.mpr (hinside ▸ beginsString_skipSpace.mpr hstring)
    exact ⟨inside, htext, readSequence_eq_singleton_iff.mpr
      ⟨hlimit, _, _, next, hinside, by decide, hitem, hnext⟩⟩

/-- A text **opens an object** with a key, and goes on with `rest` after the colon. -/
def OpensObject (text : List Char) (key : String) (rest : List Char) : Prop :=
  ∃ inside next, skipSpace text = '\x7b' :: inside ∧ BeginsString inside key next ∧
    skipSpace next = ':' :: rest

/-- An object of **one member**. -/
theorem readWith_eq_member_iff {limit depth : Nat} {member : Json} :
    readWith .strict limit (depth + 1) text = some (object [(key, member)], rest) ↔
      0 < limit ∧ ∃ after next, OpensObject text key after ∧
        readWith .strict limit depth after = some (member, next) ∧
        skipSpace next = '\x7d' :: rest := by
  rw [readWith_eq_object_iff]
  constructor
  · rintro ⟨inside, htext, hmembers⟩
    obtain ⟨hlimit, c, more, next, hinside, -, hmember, hnext⟩ :=
      readSequence_eq_singleton_iff.mp hmembers
    rw [readMember, ← hinside] at hmember
    split at hmember
    · cases hmember
    · rename_i name after hkey
      obtain ⟨⟨_, last⟩, hvalue, heq⟩ := Option.map_eq_some_iff.mp hmember
      cases heq
      obtain ⟨colon, hstring, hcolon⟩ := readKey_eq_some_iff.mp hkey
      exact ⟨hlimit, after, last, ⟨inside, colon, htext, beginsString_skipSpace.mp hstring, hcolon⟩,
        hvalue, hnext⟩
  · rintro ⟨hlimit, after, next, ⟨inside, colon, htext, hstring, hcolon⟩, hvalue, hnext⟩
    obtain ⟨more, -, hinside, -⟩ := id hstring
    have hkey : readKey escape? ('"' :: more) = some (key, after) :=
      readKey_eq_some_iff.mpr ⟨colon, hinside ▸ beginsString_skipSpace.mpr hstring, hcolon⟩
    have hmember : readMember escape? (readWith .strict limit depth) ('"' :: more) =
        some ((key, member), next) := by
      simp only [readMember, hkey, hvalue, Option.map_some]
    exact ⟨inside, htext, readSequence_eq_singleton_iff.mpr
      ⟨hlimit, _, _, next, hinside, by decide, hmember, hnext⟩⟩

/-! ### Whole texts -/

/-- A whole text is **a value and blanks**. -/
theorem parse_eq_some_iff {body : String} {v : Json} :
    parse body = some v ↔
      ∃ rest, readWith .strict body.toList.length maxDepth body.toList = some (v, rest) ∧
        skipSpace rest = [] := by
  rw [parse, parseWithin, read]
  cases hread : readWith .strict body.toList.length maxDepth body.toList with
  | none => simp
  | some found =>
      obtain ⟨found, rest⟩ := found
      constructor
      · intro h
        obtain ⟨hrest, heq⟩ := Option.ite_none_right_eq_some.mp h
        cases heq
        exact ⟨rest, rfl, List.isEmpty_iff.mp hrest⟩
      · rintro ⟨rest', heq, hrest⟩
        cases heq
        simp [hrest]

/-- A text that opens an object has characters. -/
theorem OpensObject.length_pos (h : OpensObject text key rest) : 0 < text.length := by
  obtain ⟨inside, _, htext, -⟩ := h
  cases text with
  | nil => cases htext
  | cons c text => exact Nat.succ_pos _

/-- The texts of an object whose only member is **a value** that some reader reads. -/
theorem parse_eq_member_iff {body : String} {member : Json} :
    parse body = some (object [(key, member)]) ↔
      ∃ after next rest, OpensObject body.toList key after ∧
        readWith .strict body.toList.length (maxDepth - 1) after = some (member, next) ∧
        skipSpace next = '\x7d' :: rest ∧ skipSpace rest = [] := by
  rw [parse_eq_some_iff]
  constructor
  · rintro ⟨rest, hread, hrest⟩
    obtain ⟨-, after, next, hopens, hmember, hnext⟩ := readWith_eq_member_iff.mp hread
    exact ⟨after, next, rest, hopens, hmember, hnext, hrest⟩
  · rintro ⟨after, next, rest, hopens, hmember, hnext, hrest⟩
    exact ⟨rest, readWith_eq_member_iff.mpr
      ⟨hopens.length_pos, after, next, hopens, hmember, hnext⟩, hrest⟩

/-! ### Written strings -/

/-- A control character is read from its **hexadecimal digits**. -/
theorem escape?_control {c : Char} (h : c.toNat < 0x20) (tail : List Char) :
    escape? ('u' :: '0' :: '0' :: hexDigit (c.toNat / 16) :: hexDigit (c.toNat % 16) :: tail) =
      some (c, 5) := by
  have hunit : readUnit
      ('0' :: '0' :: hexDigit (c.toNat / 16) :: hexDigit (c.toNat % 16) :: tail) =
        some (c.toNat, tail) := by
    rw [readUnit, hexValue?_hexDigit _ (by omega), hexValue?_hexDigit _ (by omega)]
    change some (((0 * 16 + 0) * 16 + c.toNat / 16) * 16 + c.toNat % 16, tail) = _
    rw [Nat.zero_mul, Nat.zero_add, Nat.div_add_mod']
  have hlow : isLowSurrogate c.toNat = false := by
    simp [isLowSurrogate]
    omega
  have hhigh : isHighSurrogate c.toNat = false := by
    simp [isHighSurrogate]
    omega
  have hcode : codePoint?
      ('0' :: '0' :: hexDigit (c.toNat / 16) :: hexDigit (c.toNat % 16) :: tail) =
        some (c, 4) := by
    rw [codePoint?, hunit]
    simp [hlow, hhigh]
  rw [escape?, hcode]
  rfl

/-- A character that was **escaped** is read as itself. -/
theorem readStringFrom_escapeChar (c : Char) (tail : List Char) :
    readStringFrom escape? 0 (escapeChar c ++ tail) =
      (readStringFrom escape? 0 tail).map fun s => (c :: s.1, s.2) := by
  unfold escapeChar
  split_ifs with hquote hbackslash hb hf hn hr ht hcontrol
  · subst hquote; rfl
  · subst hbackslash; rfl
  · subst hb; rfl
  · subst hf; rfl
  · subst hn; rfl
  · subst hr; rfl
  · subst ht; rfl
  · simp only [List.cons_append, List.nil_append]
    rw [readStringFrom, if_neg (by decide), if_pos rfl, escape?_control hcontrol]
    rfl
  · rw [List.singleton_append, readStringFrom, if_neg hquote, if_neg hbackslash, if_neg hcontrol]

/-- A string that was **written** is read again. -/
theorem readString_escaped (chars rest : List Char) :
    readString (chars.flatMap escapeChar ++ '"' :: rest) = some (chars, rest) := by
  induction chars with
  | nil => rfl
  | cons c chars ih =>
      change readStringFrom escape? 0 (chars.flatMap escapeChar ++ '"' :: rest) = _ at ih
      change readStringFrom escape? 0 ((c :: chars).flatMap escapeChar ++ '"' :: rest) = _
      rw [List.flatMap_cons, List.append_assoc, readStringFrom_escapeChar, ih]
      rfl

/-- A text that begins with a written string **begins with it**. -/
theorem beginsString_quotedChars (value : String) (rest : List Char) :
    BeginsString (quotedChars value.toList ++ rest) value rest := by
  refine ⟨value.toList.flatMap escapeChar ++ '"' :: rest, value.toList, ?_,
    readString_escaped _ _, String.ofList_toList⟩
  simp [quotedChars, skipSpace, isSpace]

/-- An object with one member is read again as **it was written**, if its member is. -/
theorem parse_compact_member {member : Json}
    (h : ∀ limit, 0 < limit →
      readWith .strict limit (maxDepth - 1) (member.chars ++ ['\x7d']) = some (member, ['\x7d'])) :
    parse (compact (object [(key, member)])) = some (object [(key, member)]) := by
  have hopens : OpensObject (compact (object [(key, member)])).toList key
      (member.chars ++ ['\x7d']) := by
    refine ⟨quotedChars key.toList ++ ':' :: (member.chars ++ ['\x7d']), _, ?_,
      beginsString_quotedChars key _, rfl⟩
    simp [compact, chars, membersChars, skipSpace, isSpace]
  exact parse_eq_member_iff.mpr ⟨_, _, [], hopens, h _ hopens.length_pos, rfl, rfl⟩

/-- A string as the only member is read again. -/
theorem parse_compact_text (key value : String) :
    parse (compact (object [(key, string value)])) = some (object [(key, string value)]) :=
  parse_compact_member fun _ _ =>
    readWith_eq_string_iff.mpr (beginsString_quotedChars value ['\x7d'])

/-- A list of one string as the only member is read again. -/
theorem parse_compact_texts (key value : String) :
    parse (compact (object [(key, array [string value])])) =
      some (object [(key, array [string value])]) := by
  refine parse_compact_member fun limit hlimit => readWith_eq_texts_iff.mpr
    ⟨hlimit, quotedChars value.toList ++ [']', '\x7d'], [']', '\x7d'], ?_,
      beginsString_quotedChars value _, rfl⟩
  simp [chars, itemsChars, skipSpace, isSpace]

end Tabletop.Json
