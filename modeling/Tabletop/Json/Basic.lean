import Tabletop.Lists.Keyed
import Tabletop.Number.Binary64

/-!
# JSON Values

JSON values with the members of objects **as written**: in the order of the text, and with
repeated keys. `Json.normal` is the plain form of a value, in which every key occurs once
with the last of its values, and the keys ascend. Keys are compared code point by code
point, which is the order of their UTF-8 bytes.

## Main definitions

* `Json`, `Number`: values and the numbers in them.
* `Json.normal`: the plain form of a value.
* `Json.member?`, `Json.soleMember?`: the value of a key, and of a key that occurs once.
-/

namespace Tabletop

/-- A JSON number: an integer of at most 64 bits, or a binary64 number. -/
inductive Number where
  | integer (value : Int)
  | float (value : Binary64)
  deriving DecidableEq, Repr, Inhabited

/-- A JSON value. -/
inductive Json where
  | null
  | bool (value : Bool)
  | number (value : Number)
  | string (value : String)
  | array (items : List Json)
  | object (members : List (String × Json))
  deriving Repr, Inhabited

namespace Json

/-- An integer as a value. -/
def ofInt (value : Int) : Json :=
  number (.integer value)

/-- A natural number as a value. -/
def ofNat (value : Nat) : Json :=
  ofInt value

/-! ### Plain forms -/

mutual

/-- The plain form of a value: in each object every key once, with the last of its values,
and the keys in ascending order. -/
def normal : Json → Json
  | array items => array (normalItems items)
  | object members => object (normalMembers [] members)
  | other => other

/-- The plain forms of the items of a list. -/
def normalItems : List Json → List Json
  | [] => []
  | item :: items => normal item :: normalItems items

/-- The plain forms of the members of an object, set one after another in `done`. -/
def normalMembers (done : List (String × Json)) : List (String × Json) → List (String × Json)
  | [] => done
  | (key, value) :: members => normalMembers (setKey Prod.fst (key, normal value) done) members

end

/-! ### Looking into values -/

/-- The last value of a key of an object. -/
def member? (key : String) : Json → Option Json
  | object members => (members.reverse.find? fun m => m.1 == key).map Prod.snd
  | _ => none

/-- The value of a key that occurs **exactly once** among the members. -/
def soleMember? (key : String) (members : List (String × Json)) : Option Json :=
  match members.filter fun m => m.1 == key with
  | [m] => some m.2
  | _ => none

/-- The text of a string. -/
def text? : Json → Option String
  | string value => some value
  | _ => none

end Json

end Tabletop
