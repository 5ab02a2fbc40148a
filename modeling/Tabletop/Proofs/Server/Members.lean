import Tabletop.Proofs.Json.Written
import Tabletop.Proofs.Server.Bodies

/-!
# Bodies with Several Fields

A form takes the members of an object one after another, as the reader of values does. So a body
that denotes **an object with the fields of a form**, each once and with a value of its kind, gives
the values of the fields, in whatever order they stand there.

## Main definitions

* `Form.Fills`: the values of a kind.
* `Form.Matches`: the members of an object that are fields of a form.

## Main results

* `Form.Matches.readMembers`: a form takes such members.
* `Request.entity_of_parse`: an entity to be added.
-/

namespace Tabletop

open Json

namespace Form

variable {form : Form} {found : Found} {text rest : List Char} {limit depth count more : Nat}

/-- A JSON value **fills** a field of a kind, with a value of this kind. -/
inductive Fills : FieldKind → Json → FieldValue → Prop
  | text {value : String} : Fills .text (.string value) (.text value)
  | integer {value : Int} : fitsSigned value = true → Fills .integer (.ofInt value) (.integer value)

/-- What fills a field is **read as its value**. -/
theorem Fills.readField {kind : FieldKind} {v : Json} {field : FieldValue} (h : Fills kind v field)
    (hread : readWith .strict limit depth text = some (v, rest)) :
    readField kind text = .ok (field, rest) := by
  cases h with
  | text => exact readField_text (readWith_eq_string_iff.mp hread)
  | integer hfits =>
      obtain ⟨numeral, hnumeral, hvalue⟩ := readWith_eq_number hread
      obtain ⟨c, tail, htext, hhead⟩ := readNumeral_head hnumeral
      have hc : c = '-' ∨ c.isDigit = true := by
        by_cases hminus : c = '-'
        · exact .inl hminus
        · cases hdigit : c.isDigit with
          | true => exact .inr rfl
          | false => exact absurd rfl (hhead c hminus hdigit)
      rw [htext] at hnumeral
      simp only [Form.readField, htext, if_pos hc, readInteger, hnumeral, hvalue, if_pos hfits]

/-- The members of an object are **fields of a form**, each at most once, and not found before. -/
inductive Matches (form : Form) : Found → List (String × Json) → Found → Prop
  | nil {found : Found} : Matches form found [] found
  | cons {found next : Found} {key : String} {kind : FieldKind} {v : Json} {field : FieldValue}
      {members : List (String × Json)} : form.lookup key = some kind → found.lookup key = none →
      Fills kind v field → Matches form ((key, field) :: found) members next →
      Matches form found ((key, v) :: members) next

/-- A member that is read gives **the value of its field**. -/
theorem readMember_of_fills {key : String} {kind : FieldKind} {v : Json} {field : FieldValue}
    (length : Nat) (hkind : form.lookup key = some kind) (hnew : found.lookup key = none)
    (hfills : Fills kind v field)
    (hread : Json.readMember escape? (readWith .strict limit depth) text = some ((key, v), rest)) :
    readMember form length found text = .ok ((key, field) :: found, rest) := by
  rw [Json.readMember] at hread
  split at hread
  · cases hread
  · rename_i after hkey
    obtain ⟨⟨_, _⟩, hvalue, heq⟩ := Option.map_eq_some_iff.mp hread
    cases heq
    obtain ⟨colon, hstring, hcolon⟩ := readKey_eq_some_iff.mp hkey
    exact readMember_of_lookup length hstring hcolon hkind hnew (hfills.readField hvalue)

/-- A form takes **the members of an object** that are fields of it. -/
theorem Matches.readMembers {members : List (String × Json)} {next : Found}
    (h : Matches form found members next) (length : Nat)
    (hread : readItems (Json.readMember escape? (readWith .strict limit depth)) '\x7d' more text =
      some (members, rest)) (hcount : members.length ≤ count) :
    readMembers form length count found text = .ok (next, rest) := by
  induction h generalizing more count text with
  | nil => exact absurd hread readItems_ne_nil
  | @cons found next key kind v field members hkind hnew hfills hmembers ih =>
      obtain ⟨count, rfl⟩ : ∃ fewer, count = fewer + 1 := ⟨count - 1, by simp at hcount; omega⟩
      cases more with
      | zero => cases hread
      | succ more =>
          rw [readItems] at hread
          split at hread
          · cases hread
          · rename_i first after hfirst
            split at hread
            · cases hread
            · rename_i c last hlast
              split at hread
              · -- The member is the last one.
                rename_i hclose
                cases hread
                cases hmembers
                have hmember := readMember_of_fills length hkind hnew hfills hfirst
                subst hclose
                simp only [Form.readMembers, hmember, hlast]
              · split at hread
                · rename_i hcomma
                  obtain ⟨⟨others, _⟩, hothers, heq⟩ := Option.map_eq_some_iff.mp hread
                  cases heq
                  have hmember := readMember_of_fills length hkind hnew hfills hfirst
                  subst hcomma
                  simp only [Form.readMembers, hmember, hlast]
                  exact ih hothers (Nat.le_of_succ_le_succ hcount)
                · cases hread

/-- A text that begins with a string has two characters at least, its quotes. -/
theorem two_le_length_of_beginsString {value : String} (h : BeginsString text value rest) :
    2 ≤ (skipSpace text).length := by
  obtain ⟨inside, chars, htext, hread, -⟩ := h
  cases inside with
  | nil => cases hread
  | cons c inside =>
      rw [htext, List.length_cons, List.length_cons]
      omega

/-- Where items are read, **the first** is read at the start of the text. -/
theorem exists_of_readItems {α : Type} {item : List Char → Option (α × List Char)} {close : Char}
    {items : List α} (h : readItems item close limit text = some (items, rest)) :
    ∃ first next, item text = some (first, next) := by
  cases limit with
  | zero => cases h
  | succ limit =>
      rw [readItems] at h
      split at h
      · cases h
      · rename_i first next hfirst
        exact ⟨first, next, hfirst⟩

/-- A form is read from **an object of its fields**, one or two. -/
theorem read_of_parse {body : String} {members : List (String × Json)} {next : Found}
    {values : List FieldValue} (hbody : Json.parse body = some (.object members))
    (h : Matches form [] members next) (hne : members ≠ []) (htwo : members.length ≤ 2)
    (hcollect : collect form next = .ok values) : read form body = .ok values := by
  obtain ⟨rest, hread, hrest⟩ := parse_eq_some_iff.mp hbody
  obtain ⟨inside, hbrace, hmembers⟩ := readWith_eq_object_iff.mp hread
  have hobject : readObject form inside = .ok (values, rest) := by
    rw [readSequence] at hmembers
    rw [readObject]
    split at hmembers
    · cases hmembers
    · rename_i c more hinside
      split at hmembers
      · cases hmembers
        exact absurd rfl hne
      · rename_i hclose
        have hcount : members.length ≤ (c :: more).length := by
          obtain ⟨first, after, hfirst⟩ := exists_of_readItems hmembers
          rw [Json.readMember] at hfirst
          split at hfirst
          · cases hfirst
          · rename_i hkey
            obtain ⟨_, hstring, -⟩ := readKey_eq_some_iff.mp hkey
            have hlength := two_le_length_of_beginsString hstring
            rw [← hinside, skipSpace_skipSpace] at hlength
            rw [← hinside]
            omega
        have hfound := h.readMembers (c :: more).length hmembers hcount
        split
        · rename_i hbrace'
          rw [hinside] at hbrace'
          exact absurd (List.cons.inj hbrace').1 hclose
        · rw [hinside, hfound]
          simp only [hcollect]
          rfl
  rw [read, hbrace]
  simp only [hobject, hrest, List.isEmpty_nil, if_true]

end Form

variable {r : Request} {name : String} {value : Int}

/-- A name and an integer of 64 bits are **an entity** to be added. -/
theorem Request.entity_of_parse (hjson : r.contentType.any MediaType.isJson = true)
    (hbody : Json.parse r.body = some (.object
      [("entityName", .string name), ("initiativeValue", .ofInt value)]))
    (hfits : fitsSigned value = true) : r.entity = .ok (name, value) := by
  have hmatches : Form.Matches entityForm []
      [("entityName", .string name), ("initiativeValue", .ofInt value)]
      [("initiativeValue", .integer value), ("entityName", .text name)] :=
    .cons rfl rfl .text (.cons rfl rfl (.integer hfits) .nil)
  have hcollect : Form.collect entityForm
      [("initiativeValue", .integer value), ("entityName", .text name)] =
        .ok [.text name, .integer value] := rfl
  rw [Request.entity, Request.fields, if_pos hjson,
    Form.read_of_parse hbody hmatches (List.cons_ne_nil _ _) (Nat.le_refl 2) hcollect]

end Tabletop
