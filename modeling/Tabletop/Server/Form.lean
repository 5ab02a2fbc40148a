import Tabletop.Batch

/-!
# Forms

The bodies of requests are JSON records with fixed fields. A **form** lists the fields of a
record in their declared order, each with the kind of its value. A body is read from left to
right, and the first thing wrong with it decides: text that is not JSON is **malformed**,
and JSON that does not fit the form is **mismatched**. A body is a text here, of any length: that
it is too long, or no UTF-8, is found out before it is read.

A record may be written as an object, with its fields in any order. Other members are
skipped, whatever their values. A field that comes again is refused at its key, and a field
that does not come at all is missed when the object ends.

A record may also be written as a list of its values in the declared order. Such a list is
mismatched if it is too short, and malformed if it is too long.

A list of requests is refused as mismatched at the end of the first item that is none.

Where a value has the wrong kind it is still read as far as that takes no nesting: a broken
string or numeral is malformed, while a list or an object is mismatched at its first
character.

## Main definitions

* `FieldKind`, `FieldValue`, `Form`.
* `BodyFault`: what is wrong with a body.
* `Form.read`: the values of the fields, in the declared order.
-/

namespace Tabletop

open Json

/-- What is wrong with the body of a request. Which field it is wrong in and where is **not kept**,
so the words for it (`BodyFault.message`) say no more than what kind of fault it is. -/
inductive BodyFault where
  /-- The body is not announced as JSON. -/
  | unannounced
  /-- The body is not JSON. -/
  | malformed
  /-- The body does not have the expected form. -/
  | mismatched
  deriving DecidableEq, Repr, Inhabited

/-- The kind of the value of a field. -/
inductive FieldKind where
  /-- A string. -/
  | text
  /-- An integer of 64 bits, with sign. -/
  | integer
  /-- A list of requests for rolls. -/
  | requests
  deriving DecidableEq, Repr, Inhabited

/-- The value of a field. -/
inductive FieldValue where
  | text (value : String)
  | integer (value : Int)
  | requests (items : List RollRequest)
  deriving Repr, Inhabited

/-- The fields of a record in their declared order. -/
abbrev Form := List (String × FieldKind)

namespace Form

/-- What is wrong with a value that has the wrong kind. -/
def misfit (text : List Char) : BodyFault :=
  match text with
  | '[' :: _ => .mismatched
  | '\x7b' :: _ => .mismatched
  | _ => if (readScalar .strict text).isSome then .mismatched else .malformed

/-- An integer of 64 bits with sign. Any other number does not fit. -/
def readInteger (text : List Char) : Except BodyFault (FieldValue × List Char) :=
  match readNumeral text with
  | none => .error .malformed
  | some (numeral, rest) =>
    match numeral.value? with
    | none => .error .malformed
    | some (.float _) => .error .mismatched
    | some (.integer value) =>
      if fitsSigned value then .ok (.integer value, rest)
      else .error .mismatched

/-- The lists and objects that may be open at once inside the list of a record. -/
def itemDepth : Nat := maxDepth - 2

/-- Requests for rolls up to and including the closing bracket of their list: at least one,
and at most `limit`. The text has at most `length` characters. -/
def readRequests (length : Nat) : (limit : Nat) → List Char →
    Except BodyFault (List RollRequest × List Char)
  | 0, _ => .error .malformed
  | limit + 1, text =>
    match readWith .strict length itemDepth text with
    | none => .error .malformed
    | some (value, rest) =>
      match RollRequest.ofJson? value with
      | none => .error .mismatched
      | some request =>
        match skipSpace rest with
        | ']' :: next => .ok ([request], next)
        | ',' :: next =>
          (readRequests length limit next).map fun others => (request :: others.1, others.2)
        | _ => .error .malformed

/-- A list of requests for rolls, after its opening bracket. -/
def readRequestList (text : List Char) : Except BodyFault (List RollRequest × List Char) :=
  match skipSpace text with
  | ']' :: rest => .ok ([], rest)
  | rest => readRequests rest.length rest.length rest

/-- The value of a field of the given kind. -/
def readField (kind : FieldKind) (text : List Char) :
    Except BodyFault (FieldValue × List Char) :=
  match kind, skipSpace text with
  | .text, '"' :: rest =>
    match readString rest with
    | none => .error .malformed
    | some (value, rest) => .ok (.text (String.ofList value), rest)
  | .requests, '[' :: rest =>
    (readRequestList rest).map fun items => (.requests items.1, items.2)
  | .integer, c :: rest =>
    if c = '-' ∨ c.isDigit then readInteger (c :: rest) else .error (misfit (c :: rest))
  | _, rest => .error (misfit rest)

/-! ### Records as objects -/

/-- The fields found so far, the latest first. -/
abbrev Found := List (String × FieldValue)

/-- One member of an object: a field of the form, or a member that is skipped. A field that
has been found before is refused before its colon. The text has at most `length`
characters. -/
def readMember (form : Form) (length : Nat) (found : Found) (text : List Char) :
    Except BodyFault (Found × List Char) :=
  match skipSpace text with
  | '"' :: rest =>
    match readString rest with
    | none => .error .malformed
    | some (key, rest) =>
      let key := String.ofList key
      let kind := form.lookup key
      if kind.isSome && (found.lookup key).isSome then .error .mismatched
      else
        match skipSpace rest with
        | ':' :: rest =>
          match kind with
          | some kind =>
            match readField kind rest with
            | .error fault => .error fault
            | .ok (value, rest) => .ok ((key, value) :: found, rest)
          | none =>
            match skip length rest with
            | none => .error .malformed
            | some rest => .ok (found, rest)
        | _ => .error .malformed
  | _ => .error .malformed

/-- The members of an object up to and including its closing brace: at least one, and at most
`limit`. The text has at most `length` characters. -/
def readMembers (form : Form) (length : Nat) : (limit : Nat) → Found → List Char →
    Except BodyFault (Found × List Char)
  | 0, _, _ => .error .malformed
  | limit + 1, found, text =>
    match readMember form length found text with
    | .error fault => .error fault
    | .ok (found, rest) =>
      match skipSpace rest with
      | '\x7d' :: next => .ok (found, next)
      | ',' :: next => readMembers form length limit found next
      | _ => .error .malformed

/-- The values of all fields, if none is missing. -/
def collect (form : Form) (found : Found) : Except BodyFault (List FieldValue) :=
  match form.mapM fun field => found.lookup field.1 with
  | some values => .ok values
  | none => .error .mismatched

/-- A record as an object, after its opening brace. -/
def readObject (form : Form) (text : List Char) :
    Except BodyFault (List FieldValue × List Char) :=
  match skipSpace text with
  | '\x7d' :: rest => (collect form []).map fun values => (values, rest)
  | rest =>
    match readMembers form rest.length rest.length [] rest with
    | .error fault => .error fault
    | .ok (found, rest) => (collect form found).map fun values => (values, rest)

/-! ### Records as lists -/

/-- The values of a list after the first, up to and including its closing bracket. -/
def readMoreValues : Form → List Char → Except BodyFault (List FieldValue × List Char)
  | [], text =>
    match skipSpace text with
    | ']' :: rest => .ok ([], rest)
    | _ => .error .malformed
  | (_, kind) :: form, text =>
    match skipSpace text with
    | ']' :: _ => .error .mismatched
    | ',' :: rest =>
      match skipSpace rest with
      | [] => .error .malformed
      | ']' :: _ => .error .malformed
      | c :: rest =>
        match readField kind (c :: rest) with
        | .error fault => .error fault
        | .ok (value, rest) =>
          (readMoreValues form rest).map fun values => (value :: values.1, values.2)
    | _ => .error .malformed

/-- A record as a list, after its opening bracket. -/
def readList (form : Form) (text : List Char) :
    Except BodyFault (List FieldValue × List Char) :=
  match form, skipSpace text with
  | [], ']' :: rest => .ok ([], rest)
  | _, ']' :: _ => .error .mismatched
  | [], _ => .error .malformed
  | _, [] => .error .malformed
  | (_, kind) :: form, c :: rest =>
    match readField kind (c :: rest) with
    | .error fault => .error fault
    | .ok (value, rest) =>
      (readMoreValues form rest).map fun values => (value :: values.1, values.2)

/-! ### Bodies -/

/-- The values of the fields of a record, in the declared order. Nothing but blanks may
follow the record. -/
def read (form : Form) (body : String) : Except BodyFault (List FieldValue) :=
  let record := match skipSpace body.toList with
    | '\x7b' :: rest => readObject form rest
    | '[' :: rest => readList form rest
    | rest => .error (misfit rest)
  match record with
  | .error fault => .error fault
  | .ok (values, rest) => if (skipSpace rest).isEmpty then .ok values else .error .malformed

end Form

end Tabletop
