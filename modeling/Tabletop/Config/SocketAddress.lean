import Tabletop.Number.Bounds
import Tabletop.Text.Fixed
import Tabletop.Text.Hex

/-!
# Socket Addresses

An IP address with a port, such as `127.0.0.1:8080` or `[::1]:80`.

An IPv4 address is four decimal numbers below 256 without leading zeros. An IPv6 address is
eight hexadecimal groups of up to four digits, of which the last two may be written as an
IPv4 address, and a double colon may stand for one or more groups of zeros. In a socket
address it stands between brackets, and a decimal scope may follow it after a percent sign.

An address is written with the longest run of two or more zero groups left out, the first
one if there are several; an IPv6 address that maps an IPv4 address shows the latter.

## Main definitions

* `IpAddress`, `SocketAddress`.
* `SocketAddress.parse?`, `SocketAddress.toText`: reading and writing.
-/

namespace Tabletop

open Text

/-- An IP address. -/
inductive IpAddress where
  /-- Four numbers below 256. -/
  | v4 (octets : List Nat)
  /-- Eight numbers below 65536, and a scope. -/
  | v6 (groups : List Nat) (scope : Nat)
  deriving DecidableEq, Repr, Inhabited

/-- An IP address with a port. -/
structure SocketAddress where
  /-- The address of the host. -/
  ip : IpAddress
  /-- The port. -/
  port : Nat
  deriving DecidableEq, Repr, Inhabited

namespace SocketAddress

/-! ### Reading -/

/-- A decimal number up to `limit`, with any number of leading zeros. -/
def readDecimal (limit : Nat) (text : List Char) : Option (Nat × List Char) :=
  let digits := text.takeWhile Char.isDigit
  if digits.isEmpty || numeralValue digits > limit then none
  else some (numeralValue digits, text.dropWhile Char.isDigit)

/-- A number below 256 of at most three digits, without leading zeros. -/
def readOctet (text : List Char) : Option (Nat × List Char) :=
  let digits := text.takeWhile Char.isDigit
  if digits.length > 3 || (digits.length > 1 && digits.head? == some '0') then none
  else readDecimal 255 text

/-- A group of up to four hexadecimal digits. -/
def readGroup (text : List Char) : Option (Nat × List Char) :=
  let digits := text.takeWhile fun c => (hexValue? c).isSome
  if digits.isEmpty || digits.length > 4 then none
  else
    some (digits.foldl (fun n c => n * 16 + (hexValue? c).getD 0) 0, text.drop digits.length)

/-- Four octets with points in between. -/
def readOctets (text : List Char) : Option (List Nat × List Char) := do
  let (a, rest) ← readOctet text
  let (b, rest) ← readOctet (← dropChar? '.' rest)
  let (c, rest) ← readOctet (← dropChar? '.' rest)
  let (d, rest) ← readOctet (← dropChar? '.' rest)
  return ([a, b, c, d], rest)

/-- The two groups that four octets make. -/
def groupsOfOctets : List Nat → List Nat
  | [a, b, c, d] => [a * 256 + b, c * 256 + d]
  | _ => []

/-- A series of groups. -/
structure Groups where
  /-- The groups. -/
  groups : List Nat
  /-- Whether the last two are written as an IPv4 address. -/
  endsWithOctets : Bool
  /-- The text after the groups. -/
  rest : List Char

/-- As many groups as there are, at most `limit`, with colons in between. -/
def readGroups : (limit : Nat) → (isFirst : Bool) → List Char → Groups
  | 0, _, text => ⟨[], false, text⟩
  | limit + 1, isFirst, text =>
    match if isFirst then some text else dropChar? ':' text with
    | none => ⟨[], false, text⟩
    | some inner =>
      match if limit = 0 then none else readOctets inner with
      | some (octets, rest) => ⟨groupsOfOctets octets, true, rest⟩
      | none =>
        match readGroup inner with
        | none => ⟨[], false, text⟩
        | some (group, rest) =>
          let others := readGroups limit false rest
          { others with groups := group :: others.groups }

/-- The eight groups of an IPv6 address. -/
def readV6 (text : List Char) : Option (List Nat × List Char) := do
  let head := readGroups 8 true text
  if head.groups.length = 8 then return (head.groups, head.rest)
  if head.endsWithOctets then none
  let rest ← dropChar? ':' (← dropChar? ':' head.rest)
  let tail := readGroups (7 - head.groups.length) true rest
  let zeros := List.replicate (8 - head.groups.length - tail.groups.length) 0
  return (head.groups ++ zeros ++ tail.groups, tail.rest)

/-- The scope after a percent sign, or zero. -/
def readScope (text : List Char) : Nat × List Char :=
  match dropChar? '%' text >>= readDecimal (wordRange - 1) with
  | some (scope, rest) => (scope, rest)
  | none => (0, text)

/-- An IPv4 address, or an IPv6 address between brackets. -/
def readIp : List Char → Option (IpAddress × List Char)
  | '[' :: rest => do
    let (groups, rest) ← readV6 rest
    let (scope, rest) := readScope rest
    let rest ← dropChar? ']' rest
    return (.v6 groups scope, rest)
  | text => (readOctets text).map fun o => (.v4 o.1, o.2)

/-- The socket address that a whole text denotes. -/
def parse? (text : String) : Option SocketAddress := do
  let (ip, rest) ← readIp text.toList
  let (port, rest) ← readDecimal 65535 (← dropChar? ':' rest)
  if rest.isEmpty then some ⟨ip, port⟩ else none

/-! ### Writing -/

/-- A run of zero groups. -/
structure ZeroRun where
  /-- The number of groups before the run. -/
  start : Nat
  /-- The number of groups in the run. -/
  length : Nat

/-- The longest run of zeros, the first one if there are several. -/
def longestZeros : (index : Nat) → (current longest : ZeroRun) → List Nat → ZeroRun
  | _, _, longest, [] => longest
  | index, current, longest, group :: groups =>
    if group = 0 then
      let current : ZeroRun :=
        if current.length = 0 then ⟨index, 1⟩ else ⟨current.start, current.length + 1⟩
      longestZeros (index + 1) current
        (if current.length > longest.length then current else longest) groups
    else longestZeros (index + 1) ⟨0, 0⟩ longest groups

/-- Groups with colons in between. -/
def groupsText (groups : List Nat) : String :=
  ":".intercalate (groups.map fun group => String.ofList (Nat.toDigits 16 group))

/-- Octets with points in between. -/
def octetsText (octets : List Nat) : String :=
  ".".intercalate (octets.map toString)

/-- An IPv6 address. -/
def v6Text (groups : List Nat) : String :=
  match groups with
  | [0, 0, 0, 0, 0, 0xffff, high, low] =>
    "::ffff:" ++ octetsText [high / 256, high % 256, low / 256, low % 256]
  | _ =>
    let zeros := longestZeros 0 ⟨0, 0⟩ ⟨0, 0⟩ groups
    if zeros.length > 1 then
      groupsText (groups.take zeros.start) ++ "::" ++
        groupsText (groups.drop (zeros.start + zeros.length))
    else groupsText groups

/-- The text of a socket address. -/
def toText (a : SocketAddress) : String :=
  let host := match a.ip with
    | .v4 octets => octetsText octets
    | .v6 groups scope =>
      "[" ++ v6Text groups ++ (if scope = 0 then "" else "%" ++ toString scope) ++ "]"
  host ++ ":" ++ toString a.port

/-- The address to listen on unless another is given. -/
def default : SocketAddress :=
  ⟨.v4 [127, 0, 0, 1], 8080⟩

/-- The longest run of zero groups is left out. -/
example : (parse? "[1:0:0:2:0:0:0:3]:080").map toText = some "[1:0:0:2::3]:80" := by
  decide +kernel

/-- Leading zeros are refused in octets. -/
example : parse? "1.2.03.4:5" = none := by decide +kernel

end SocketAddress

end Tabletop
