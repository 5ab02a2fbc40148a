import Tabletop.Proofs.Json.Shapes
import Tabletop.Server.Answer

/-!
# Bodies with One Field

A body that denotes an object whose only member is the field that a request needs gives the value
of that field, however the text is written: the reader of forms takes the same lexemes as the
reader of values, one after another.

## Main results

* `Form.read_of_opensObject`: a form of one field reads an object with that member.
* `Request.batch_of_parse`: a batch of one formula.
* `Request.expression_of_parse`: a formula to be saved.
-/

namespace Tabletop

open Json

namespace Form

variable {text inside next rest : List Char} {value : String}

/-- A string fills a field for **a text**. -/
theorem readField_text (h : BeginsString text value rest) :
    readField .text text = .ok (.text value, rest) := by
  obtain ⟨after, chars, htext, hread, rfl⟩ := h
  simp only [readField, htext, hread]

/-- A list of one string fills a field for **requests** with one formula. -/
theorem readField_texts (htext : skipSpace text = '[' :: inside)
    (hstring : BeginsString inside value next) (hnext : skipSpace next = ']' :: rest) :
    readField .requests text = .ok (.requests [.adhoc value], rest) := by
  obtain ⟨after, -, hinside, -⟩ := id hstring
  have hitem : ∀ limit,
      readWith .strict limit itemDepth ('"' :: after) = some (.string value, next) :=
    fun limit => readWith_eq_string_iff.mpr (hinside ▸ beginsString_skipSpace.mpr hstring)
  have hlist : readRequestList inside = .ok ([.adhoc value], rest) := by
    rw [readRequestList, hinside]
    change readRequests (after.length + 1) (after.length + 1) ('"' :: after) = _
    simp only [readRequests, hitem, RollRequest.ofJson?, hnext]
  simp only [readField, htext, hlist]
  rfl

section Single

variable {key body : String} {kind : FieldKind} {field : FieldValue} {after : List Char}

/-- A member with the key of a field that was not found before gives **the value of that field**. -/
theorem readMember_of_lookup {form : Form} {found : Found} (length : Nat)
    (hstring : BeginsString text key next) (hnext : skipSpace next = ':' :: after)
    (hkind : form.lookup key = some kind) (hnew : found.lookup key = none)
    (hfield : readField kind after = .ok (field, rest)) :
    readMember form length found text = .ok ((key, field) :: found, rest) := by
  obtain ⟨inside, chars, htext, hread, rfl⟩ := hstring
  rw [readMember, htext]
  simp only [hread, hkind, hnew, Option.isSome_none, Bool.and_false, hnext, hfield]
  rfl

/-- A form of one field is read from **an object with that member**. -/
theorem read_of_opensObject (hopens : OpensObject body.toList key after)
    (hfield : readField kind after = .ok (field, next)) (hnext : skipSpace next = '\x7d' :: rest)
    (hrest : skipSpace rest = []) : read [(key, kind)] body = .ok [field] := by
  obtain ⟨inside, colon, hbrace, hstring, hcolon⟩ := hopens
  obtain ⟨quoted, -, hquote, -⟩ := id hstring
  have hmembers : readMembers [(key, kind)] (quoted.length + 1) (quoted.length + 1) []
      ('"' :: quoted) = .ok ([(key, field)], rest) := by
    have hmember : readMember [(key, kind)] (quoted.length + 1) [] ('"' :: quoted) =
        .ok ([(key, field)], next) :=
      readMember_of_lookup _ (hquote ▸ beginsString_skipSpace.mpr hstring) hcolon
        List.lookup_cons_self List.lookup_nil hfield
    simp only [readMembers, hmember, hnext]
  have hobject : readObject [(key, kind)] inside = .ok ([field], rest) := by
    have hcollect : collect [(key, kind)] [(key, field)] = .ok [field] := by
      simp [collect, List.lookup_cons_self]
    rw [readObject]
    split
    · rename_i hclose
      rw [hquote] at hclose
      cases hclose
    · simp only [hquote, List.length_cons, hmembers, hcollect]
      rfl
  rw [read, hbrace]
  simp only [hobject, hrest, List.isEmpty_nil, if_true]

end Single

end Form

variable {r : Request} {text : String}

/-- A list of one string is **a batch of one formula**. -/
theorem Request.batch_of_parse (hjson : r.contentType.any MediaType.isJson = true)
    (hbody : Json.parse r.body = some (.object [("rolls", .array [.string text])])) :
    r.batch = .ok [.adhoc text] := by
  obtain ⟨after, next, rest, hopens, hmember, hnext, hrest⟩ := Json.parse_eq_member_iff.mp hbody
  obtain ⟨-, inside, last, hafter, hstring, hlast⟩ := Json.readWith_eq_texts_iff.mp hmember
  rw [Request.batch, Request.fields, if_pos hjson, batchForm,
    Form.read_of_opensObject hopens (Form.readField_texts hafter hstring hlast) hnext hrest]

/-- A string is **the text of a formula** to be saved. -/
theorem Request.expression_of_parse (hjson : r.contentType.any MediaType.isJson = true)
    (hbody : Json.parse r.body = some (.object [("expression", .string text)])) :
    r.expression = .ok text := by
  obtain ⟨after, next, rest, hopens, hmember, hnext, hrest⟩ := Json.parse_eq_member_iff.mp hbody
  have hstring := Json.readWith_eq_string_iff.mp hmember
  rw [Request.expression, Request.fields, if_pos hjson, savedRollForm,
    Form.read_of_opensObject hopens (Form.readField_text hstring) hnext hrest]

end Tabletop
