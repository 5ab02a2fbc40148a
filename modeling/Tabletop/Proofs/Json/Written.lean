import Tabletop.Proofs.Json.Numbers
import Tabletop.Proofs.Json.Shapes

/-!
# Written Values

A JSON value is read back from **its compact text** if its numbers are and if it is not nested too
deeply. A value that was read is not, so what can be lost on the way is the exact value of a float
and nothing else.

The induction is on the nesting of the value. A list is written as its items with commas in between,
and each item is read back as far as the comma or the bracket behind it, because no numeral goes on
with these.

## Main definitions

* `Json.Within`: values with a bound on their nesting.
* `Json.All`: values with conditions on the keys and the numbers in them.

## Main results

* `Json.within_of_parse`, `Json.fits_of_parse`: a value that was read has its bounds.
* `Json.parse_compact`: a value is read back from its compact text.
-/

namespace Tabletop.Json

/-- At most `depth` lists and objects of the value **are open at once**. -/
inductive Within : (depth : Nat) → Json → Prop
  | null {depth : Nat} : Within depth null
  | bool {depth : Nat} {value : Bool} : Within depth (bool value)
  | number {depth : Nat} {value : Number} : Within depth (number value)
  | string {depth : Nat} {value : String} : Within depth (string value)
  | array {depth : Nat} {items : List Json} :
      (∀ item ∈ items, Within depth item) → Within (depth + 1) (array items)
  | object {depth : Nat} {members : List (String × Json)} :
      (∀ m ∈ members, Within depth m.2) → Within (depth + 1) (object members)

/-- All keys of objects in the value, and all numbers, **satisfy a condition**. -/
inductive All (key : String → Prop) (num : Number → Prop) : Json → Prop
  | null : All key num null
  | bool {value : Bool} : All key num (bool value)
  | number {value : Number} : num value → All key num (number value)
  | string {value : String} : All key num (string value)
  | array {items : List Json} : (∀ item ∈ items, All key num item) → All key num (array items)
  | object {members : List (String × Json)} :
      (∀ m ∈ members, key m.1) → (∀ m ∈ members, All key num m.2) → All key num (object members)

variable {key other : String → Prop} {num more : Number → Prop}
variable {text rest : List Char} {v : Json} {limit depth : Nat}

/-- A larger bound on nesting **will do**. -/
theorem Within.mono {more : Nat} (h : Within depth v) (hle : depth ≤ more) : Within more v := by
  induction h generalizing more with
  | null => exact .null
  | bool => exact .bool
  | number => exact .number
  | string => exact .string
  | @array depth _ _ ih =>
      obtain ⟨more, rfl⟩ : ∃ fewer, more = fewer + 1 := ⟨more - 1, by omega⟩
      exact .array fun item hitem => ih item hitem (by omega)
  | @object depth _ _ ih =>
      obtain ⟨more, rfl⟩ : ∃ fewer, more = fewer + 1 := ⟨more - 1, by omega⟩
      exact .object fun m hm => ih m hm (by omega)

/-- Conditions that all keys and numbers satisfy imply **weaker ones**. -/
theorem All.imp (h : All key num v) (hkey : ∀ k, key k → other k) (hnum : ∀ n, num n → more n) :
    All other more v := by
  induction h with
  | null => exact .null
  | bool => exact .bool
  | number hn => exact .number (hnum _ hn)
  | string => exact .string
  | array _ ih => exact .array ih
  | object hkeys _ ih => exact .object (fun m hm => hkey _ (hkeys m hm)) ih

/-- Two conditions may be taken **together**. -/
theorem All.and (h : All key num v) (hother : All other more v) :
    All (fun k => key k ∧ other k) (fun n => num n ∧ more n) v := by
  induction h with
  | null => exact .null
  | bool => exact .bool
  | number hn =>
      cases hother with
      | number hmore => exact .number ⟨hn, hmore⟩
  | string => exact .string
  | array _ ih =>
      cases hother with
      | array hitems => exact .array fun item hitem => ih item hitem (hitems item hitem)
  | object hkeys _ ih =>
      cases hother with
      | object hothers hmembers =>
          exact .object (fun m hm => ⟨hkeys m hm, hothers m hm⟩)
            fun m hm => ih m hm (hmembers m hm)

/-! ### What was read -/

section Sequences

variable {α : Type} {item : List Char → Option (α × List Char)} {close : Char} {P : α → Prop}
variable {items : List α}

/-- What holds of whatever the reader of an item reads holds of **all items**. -/
theorem forall_of_readItems (hitem : ∀ {text a rest}, item text = some (a, rest) → P a)
    (h : readItems item close limit text = some (items, rest)) : ∀ a ∈ items, P a := by
  induction limit generalizing text items with
  | zero => cases h
  | succ limit ih =>
      rw [readItems] at h
      split at h
      · cases h
      · rename_i first next hfirst
        split at h
        · cases h
        · split_ifs at h
          · cases h
            exact List.forall_mem_singleton.mpr (hitem hfirst)
          · obtain ⟨⟨others, _⟩, hothers, heq⟩ := Option.map_eq_some_iff.mp h
            cases heq
            exact List.forall_mem_cons.mpr ⟨hitem hfirst, ih hothers⟩

/-- What holds of all that one item can be read as holds of **every item** between the brackets. -/
theorem forall_of_readSequence (hitem : ∀ {text a rest}, item text = some (a, rest) → P a)
    (h : readSequence item close limit text = some (items, rest)) : ∀ a ∈ items, P a := by
  rw [readSequence] at h
  split at h
  · cases h
  · split_ifs at h
    · cases h
      exact nofun
    · exact forall_of_readItems hitem h

end Sequences

/-- **Induction over reading.** What holds of the scalars, and of lists and objects if it holds one
level below of what is in them, holds of every value that is read. -/
theorem readWith_induction {P : Nat → Json → Prop}
    (hscalar : ∀ {depth text v rest}, readScalar .strict text = some (v, rest) → P depth v)
    (harray : ∀ {depth items}, (∀ item ∈ items, P depth item) → P (depth + 1) (array items))
    (hobject : ∀ {depth members}, (∀ m ∈ members, P depth (Prod.snd m)) →
      P (depth + 1) (object members))
    (h : readWith .strict limit depth text = some (v, rest)) : P depth v := by
  induction depth generalizing text v rest with
  | zero =>
      rw [readWith] at h
      split at h
      · cases h
      · cases h
      · exact hscalar h
  | succ depth ih =>
      rw [readWith] at h
      split at h
      · obtain ⟨⟨items, _⟩, hitems, heq⟩ := Option.map_eq_some_iff.mp h
        cases heq
        exact harray (forall_of_readSequence (fun hitem => ih hitem) hitems)
      · obtain ⟨⟨members, _⟩, hmembers, heq⟩ := Option.map_eq_some_iff.mp h
        cases heq
        refine hobject (forall_of_readSequence (fun {_ m _} hmember => ?_) hmembers)
        rw [readMember] at hmember
        split at hmember
        · cases hmember
        · obtain ⟨_, hvalue, heq⟩ := Option.map_eq_some_iff.mp hmember
          cases heq
          exact ih hvalue
      · exact hscalar h

/-- A scalar that is a number is **what a numeral denotes**. -/
theorem readScalar_eq_number {n : Number} (h : readScalar .strict text = some (number n, rest)) :
    ∃ numeral, readNumeral text = some (numeral, rest) ∧ numeral.value? = some n := by
  unfold readScalar at h
  split at h
  case h_5 =>
      split at h
      · cases h
      · rename_i numeral rest hnumeral
        obtain ⟨_, hvalue, heq⟩ := Option.map_eq_some_iff.mp h
        cases heq
        exact ⟨numeral, hnumeral, hvalue⟩
  all_goals
    obtain ⟨_, -, heq⟩ := Option.map_eq_some_iff.mp h
    cases heq

/-- What is read as a number is **a numeral** after blanks. -/
theorem readWith_eq_number {n : Number}
    (h : readWith .strict limit depth text = some (number n, rest)) :
    ∃ numeral, readNumeral (skipSpace text) = some (numeral, rest) ∧ numeral.value? = some n := by
  rw [readWith] at h
  split at h
  · cases depth with
    | zero => cases h
    | succ depth => simp at h
  · cases depth with
    | zero => cases h
    | succ depth => simp at h
  · exact readScalar_eq_number h

/-- A value that was read is **within the bound** on nesting. -/
theorem within_of_readWith (h : readWith .strict limit depth text = some (v, rest)) :
    Within depth v := by
  refine readWith_induction (fun {depth _ v _} hscalar => ?_) .array .object h
  cases v with
  | null => exact .null
  | bool => exact .bool
  | number => exact .number
  | string => exact .string
  | array items => exact absurd rfl ((readScalar_ne_nested hscalar).1 items)
  | object members => exact absurd rfl ((readScalar_ne_nested hscalar).2 members)

/-- The numbers of a value that was read **fit** into 64 bits. -/
theorem fits_of_readWith (h : readWith .strict limit depth text = some (v, rest)) :
    All (fun _ => True) Number.Fits v := by
  refine readWith_induction (P := fun _ v => All (fun _ => True) Number.Fits v)
    (fun {_ _ v _} hscalar => ?_) .array (.object fun _ _ => trivial) h
  cases v with
  | null => exact .null
  | bool => exact .bool
  | number =>
      obtain ⟨numeral, -, hvalue⟩ := readScalar_eq_number hscalar
      exact .number (Number.fits_of_value? hvalue)
  | string => exact .string
  | array items => exact absurd rfl ((readScalar_ne_nested hscalar).1 items)
  | object members => exact absurd rfl ((readScalar_ne_nested hscalar).2 members)

/-- A text denotes a value of **bounded depth**. -/
theorem within_of_parse {body : String} (h : parse body = some v) : Within maxDepth v := by
  obtain ⟨_, hread, -⟩ := parse_eq_some_iff.mp h
  exact within_of_readWith hread

/-- The numbers that a text denotes **fit**. -/
theorem fits_of_parse {body : String} (h : parse body = some v) :
    All (fun _ => True) Number.Fits v := by
  obtain ⟨_, hread, -⟩ := parse_eq_some_iff.mp h
  exact fits_of_readWith hread

/-! ### What is written -/

/-- A character that differs from everything but signs and digits is **no space**. -/
theorem isSpace_of_ne {c : Char} (h : ∀ d : Char, d ≠ '-' → d.isDigit = false → c ≠ d) :
    isSpace c = false := by
  simp only [isSpace, Bool.or_eq_false_iff, beq_eq_false_iff_ne]
  exact ⟨⟨⟨h _ (by decide) (by decide), h _ (by decide) (by decide)⟩, h _ (by decide) (by decide)⟩,
    h _ (by decide) (by decide)⟩

/-- The first character of what is written for a value: **no blank**, and nothing that closes a list
or an object. -/
theorem chars_eq_cons (h : All key Number.ReadsBack v) :
    ∃ c tail, v.chars = c :: tail ∧ isSpace c = false ∧ c ≠ ']' ∧ c ≠ '\x7d' := by
  cases h with
  | null => exact ⟨_, _, rfl, by decide⟩
  | @bool value => cases value <;> exact ⟨_, _, rfl, by decide⟩
  | string => exact ⟨_, _, rfl, by decide⟩
  | array _ => exact ⟨_, _, rfl, by decide⟩
  | object _ _ => exact ⟨_, _, rfl, by decide⟩
  | number hn =>
      obtain ⟨numeral, hread, -⟩ := hn
      obtain ⟨c, tail, heq, hne⟩ := readNumeral_head hread
      exact ⟨c, tail, heq, isSpace_of_ne hne, hne _ (by decide) (by decide),
        hne _ (by decide) (by decide)⟩

/-- The text of a member. -/
def memberChars (m : String × Json) : List Char :=
  quotedChars m.1.toList ++ ':' :: m.2.chars

/-- The items of a list are written with **commas between them**. -/
theorem itemsChars_eq (items : List Json) :
    itemsChars items = [','].intercalate (items.map chars) := by
  induction items with
  | nil => rfl
  | cons item items ih =>
      cases items with
      | nil => simp [itemsChars]
      | cons next items =>
          rw [itemsChars, ih]
          · simp only [List.map_cons, List.intercalate_cons_cons, List.append_assoc,
              List.singleton_append]
          · exact List.cons_ne_nil _ _

/-- So are the members of an object. -/
theorem membersChars_eq (members : List (String × Json)) :
    membersChars members = [','].intercalate (members.map memberChars) := by
  induction members with
  | nil => rfl
  | cons m members ih =>
      cases members with
      | nil => simp [membersChars, memberChars]
      | cons next members =>
          rw [membersChars, ih]
          · simp only [List.map_cons, List.intercalate_cons_cons, memberChars, List.append_assoc,
              List.cons_append, List.nil_append]
          · exact List.cons_ne_nil _ _

/-- A list is written between brackets, in front of what comes behind it. -/
theorem chars_array (items : List Json) (rest : List Char) :
    (array items).chars ++ rest = '[' :: ([','].intercalate (items.map chars) ++ ']' :: rest) := by
  rw [chars, itemsChars_eq, List.append_assoc, List.cons_append, List.singleton_append]

/-- An object is written between braces, in front of what comes behind it. -/
theorem chars_object (members : List (String × Json)) (rest : List Char) :
    (object members).chars ++ rest =
      '\x7b' :: ([','].intercalate (members.map memberChars) ++ '\x7d' :: rest) := by
  rw [chars, membersChars_eq, List.append_assoc, List.cons_append, List.singleton_append]

/-- Between commas every part is **no longer than the whole**, and there are not many more parts
than characters. -/
theorem length_le_of_mem_intercalate (parts : List (List Char)) :
    parts.length ≤ ([','].intercalate parts).length + 1 ∧
      ∀ part ∈ parts, part.length ≤ ([','].intercalate parts).length := by
  induction parts with
  | nil => exact ⟨Nat.zero_le _, nofun⟩
  | cons part parts ih =>
      cases parts with
      | nil => simp
      | cons next parts =>
          rw [List.intercalate_cons_cons]
          simp only [List.length_cons, List.length_append, List.length_nil, List.forall_mem_cons]
            at ih ⊢
          refine ⟨by omega, by omega, by omega, fun other hother => ?_⟩
          have hle := ih.2.2 other hother
          omega

section Sequences

variable {α : Type} {item : List Char → Option (α × List Char)} {close : Char}
variable {write : α → List Char} {items : List α}

/-- Items with commas in between **are read**, if each is as far as the comma or the closing
character behind it. -/
theorem readItems_written (hcomma : ',' ≠ close) (hspace : isSpace close = false)
    (hread : ∀ a ∈ items, ∀ c rest, c = ',' ∨ c = close →
      item (write a ++ c :: rest) = some (a, c :: rest))
    (hne : items ≠ []) (hlimit : items.length ≤ limit) :
    readItems item close limit ([','].intercalate (items.map write) ++ close :: rest) =
      some (items, rest) := by
  induction items generalizing limit with
  | nil => exact absurd rfl hne
  | cons a items ih =>
      obtain ⟨limit, rfl⟩ : ∃ fewer, limit = fewer + 1 := ⟨limit - 1, by simp at hlimit; omega⟩
      cases items with
      | nil =>
          have hitem := hread a List.mem_cons_self close rest (.inr rfl)
          have hskip : skipSpace (close :: rest) = close :: rest := by simp [skipSpace, hspace]
          simp only [List.map_cons, List.map_nil, List.intercalate_singleton, readItems, hitem,
            hskip, if_true]
      | cons next items =>
          have hitem := hread a List.mem_cons_self ','
            ([','].intercalate ((next :: items).map write) ++ close :: rest) (.inl rfl)
          have hskip : ∀ rest, skipSpace (',' :: rest) = ',' :: rest := fun rest => rfl
          have hothers := ih (fun b hb => hread b (List.mem_cons_of_mem a hb))
            (List.cons_ne_nil _ _) (Nat.le_of_succ_le_succ hlimit)
          rw [List.map_cons, List.map_cons, List.intercalate_cons_cons, ← List.map_cons,
            List.append_assoc, List.append_assoc, List.singleton_append, readItems]
          simp only [hitem, hskip, if_neg hcomma, if_true, hothers, Option.map_some]

/-- A sequence of items is read after its opening character. -/
theorem readSequence_written (hcomma : ',' ≠ close) (hspace : isSpace close = false)
    (hread : ∀ a ∈ items, ∀ c rest, c = ',' ∨ c = close →
      item (write a ++ c :: rest) = some (a, c :: rest))
    (hhead : ∀ a ∈ items, ∃ c tail, write a = c :: tail ∧ isSpace c = false ∧ c ≠ close)
    (hlimit : items.length ≤ limit) :
    readSequence item close limit ([','].intercalate (items.map write) ++ close :: rest) =
      some (items, rest) := by
  cases items with
  | nil => simp [readSequence, skipSpace, hspace]
  | cons a items =>
      have hitems : readItems item close limit
          ([','].intercalate ((a :: items).map write) ++ close :: rest) = some (a :: items, rest) :=
        readItems_written hcomma hspace hread (List.cons_ne_nil _ _) hlimit
      obtain ⟨c, tail, heq, hblank, hclose⟩ := hhead a List.mem_cons_self
      obtain ⟨more, htext⟩ : ∃ more,
          [','].intercalate ((a :: items).map write) ++ close :: rest = c :: more := by
        cases items with
        | nil => exact ⟨_, by simp [heq]; rfl⟩
        | cons next items =>
            rw [List.map_cons, List.map_cons, List.intercalate_cons_cons, heq]
            exact ⟨_, rfl⟩
      rw [htext] at hitems ⊢
      have hskip : skipSpace (c :: more) = c :: more := by simp [skipSpace, hblank]
      simp only [readSequence, hskip, if_neg hclose, hitems]

end Sequences

/-! ### What was written is read -/

/-- A word is taken from **the start** of a text that begins with it. -/
theorem dropWord?_append (word : String) (rest : List Char) :
    dropWord? word (word.toList ++ rest) = some rest := by
  have hprefix : word.toList.isPrefixOf (word.toList ++ rest) = true :=
    List.isPrefixOf_iff_prefix.mpr (List.prefix_append _ _)
  rw [dropWord?, if_pos hprefix, ← String.length_toList, List.drop_left]

/-- What begins with no bracket, no brace and no blank **is a scalar**. -/
theorem readWith_eq_readScalar {c : Char} {tail : List Char} (hspace : isSpace c = false)
    (hbracket : c ≠ '[') (hbrace : c ≠ '\x7b') :
    readWith .strict limit depth (c :: tail) = readScalar .strict (c :: tail) := by
  have hskip : skipSpace (c :: tail) = c :: tail := by simp [skipSpace, hspace]
  rw [readWith]
  split
  · rename_i heq
    rw [hskip] at heq
    exact absurd (List.cons.inj heq).1 hbracket
  · rename_i heq
    rw [hskip] at heq
    exact absurd (List.cons.inj heq).1 hbrace
  · rw [hskip]

/-- A number is read back **from a text that begins with it**. -/
theorem readWith_number {n : Number} (h : n.ReadsBack) (hrest : Stops isNumeralChar rest) :
    readWith .strict limit depth (n.chars ++ rest) = some (number n, rest) := by
  obtain ⟨numeral, hread, hvalue⟩ := h
  obtain ⟨c, tail, heq, hne⟩ := readNumeral_head hread
  have hnumeral : readNumeral (c :: (tail ++ rest)) = some (numeral, rest) := by
    have happend := readNumeral_append hrest hread
    rwa [heq] at happend
  have hscalar : readScalar .strict (c :: (tail ++ rest)) = some (number n, rest) := by
    rw [readScalar]
    · simp only [hnumeral, Leaves.strict, hvalue, Option.map_some]
    all_goals exact fun _ heq => hne _ (by decide) (by decide) (List.cons.inj heq).1
  rw [heq, List.cons_append, readWith_eq_readScalar (isSpace_of_ne hne)
    (hne _ (by decide) (by decide)) (hne _ (by decide) (by decide)), hscalar]

/-- A word is read back from a text that begins with it. -/
theorem readWith_word (word : String) {c : Char} {tail : List Char}
    (hword : word.toList = c :: tail)
    (hscalar : ∀ text, readScalar .strict (c :: text) =
      (dropWord? word (c :: text)).map fun rest => (v, rest))
    (hspace : isSpace c = false) (hbracket : c ≠ '[') (hbrace : c ≠ '\x7b') :
    readWith .strict limit depth (c :: tail ++ rest) = some (v, rest) := by
  have hdrop := dropWord?_append word rest
  rw [hword, List.cons_append] at hdrop
  rw [List.cons_append, readWith_eq_readScalar hspace hbracket hbrace, hscalar, hdrop]
  rfl

/-- A member is read back if its value is. -/
theorem readMember_written {value : List Char → Option (Json × List Char)} {m : String × Json}
    (h : value (m.2.chars ++ rest) = some (m.2, rest)) :
    readMember escape? value (memberChars m ++ rest) = some (m, rest) := by
  have hkey : readKey escape? (memberChars m ++ rest) = some (m.1, m.2.chars ++ rest) := by
    refine readKey_eq_some_iff.mpr ⟨':' :: (m.2.chars ++ rest), ?_, rfl⟩
    rw [memberChars, List.append_assoc, List.cons_append]
    exact beginsString_quotedChars _ _
  rw [readMember, hkey]
  simp only [h, Option.map_some]

/-- A value within the bounds is read back **from a text that begins with it**. -/
theorem Within.readWith_chars (h : Within depth v) (hall : All key Number.ReadsBack v)
    (hlimit : v.chars.length ≤ limit) (hrest : Stops isNumeralChar rest) :
    readWith .strict limit depth (v.chars ++ rest) = some (v, rest) := by
  induction h generalizing rest with
  | null =>
      exact readWith_word "null" rfl (fun _ => rfl) (by decide) (by decide) (by decide)
  | @bool _ value =>
      cases value with
      | true =>
          exact readWith_word "true" rfl (fun _ => rfl) (by decide) (by decide) (by decide)
      | false =>
          exact readWith_word "false" rfl (fun _ => rfl) (by decide) (by decide)
            (by decide)
  | number =>
      cases hall with
      | number hn => exact readWith_number hn hrest
  | string => exact readWith_eq_string_iff.mpr (beginsString_quotedChars _ _)
  | @array depth items hitems ih =>
      cases hall with
      | array hall =>
          have hlength := congrArg List.length (chars_array items [])
          simp only [List.length_append, List.length_cons, List.length_nil] at hlength
          obtain ⟨hcount, hparts⟩ := length_le_of_mem_intercalate (items.map chars)
          rw [List.length_map] at hcount
          rw [chars_array]
          refine readWith_eq_array_iff.mpr ⟨_, rfl, ?_⟩
          refine readSequence_written (by decide) (by decide) ?_ ?_ (by omega)
          · intro item hitem c more hc
            have hpart := hparts _ (List.mem_map_of_mem hitem)
            refine ih item hitem (hall item hitem) (by omega) (stops_cons.mpr ?_)
            rcases hc with rfl | rfl <;> decide
          · intro item hitem
            obtain ⟨c, tail, heq, hspace, hbracket, -⟩ := chars_eq_cons (hall item hitem)
            exact ⟨c, tail, heq, hspace, hbracket⟩
  | @object depth members hmembers ih =>
      cases hall with
      | object _ hall =>
          have hlength := congrArg List.length (chars_object members [])
          simp only [List.length_append, List.length_cons, List.length_nil] at hlength
          obtain ⟨hcount, hparts⟩ := length_le_of_mem_intercalate (members.map memberChars)
          rw [List.length_map] at hcount
          rw [chars_object]
          refine readWith_eq_object_iff.mpr ⟨_, rfl, ?_⟩
          refine readSequence_written (by decide) (by decide) ?_ ?_ (by omega)
          · intro m hm c more hc
            have hpart := hparts _ (List.mem_map_of_mem hm)
            have hvalue : m.2.chars.length ≤ (memberChars m).length := by
              rw [memberChars, List.length_append, List.length_cons]
              omega
            refine readMember_written (ih m hm (hall m hm) (by omega) (stops_cons.mpr ?_))
            rcases hc with rfl | rfl <;> decide
          · exact fun m _ => ⟨_, _, rfl, by decide, by decide⟩

/-- A value is **read back from its compact text** if it is not nested too deeply and its numbers
are read back. -/
theorem parse_compact (h : Within maxDepth v) (hall : All key Number.ReadsBack v) :
    parse (compact v) = some v := by
  have hread := h.readWith_chars hall (Nat.le_refl _) (stops_nil _)
  rw [List.append_nil] at hread
  refine parse_eq_some_iff.mpr ⟨[], ?_, rfl⟩
  rwa [compact, String.toList_ofList]

end Tabletop.Json
