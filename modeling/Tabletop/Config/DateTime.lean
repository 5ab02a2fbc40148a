import Tabletop.Text.Fixed

/-!
# Dates and Times

Dates, times of day and both together, with or without the distance from universal time, as
in `1979-05-27T07:32:00.5-07:00`. Every number in them has a fixed number of digits, except
for the fraction of a second: it has any number, and those after the ninth are dropped.

A date is one of the Gregorian calendar. A minute may have a sixty-first second.

A moment is written with a `T` between date and time and a `Z` for universal time, in upper
case, and without zeros at the end of the fraction.

## Main definitions

* `Date`, `TimeOfDay`, `Offset`, `Moment`.
* `Moment.read`: the moment at the start of a text.
* `Moment.chars`: the text of a moment.
-/

namespace Tabletop

open Text

/-- A date. -/
structure Date where
  year : Nat
  month : Nat
  day : Nat
  deriving DecidableEq, Repr, Inhabited

/-- A time of day. -/
structure TimeOfDay where
  hour : Nat
  minute : Nat
  second : Nat
  nanosecond : Nat
  deriving DecidableEq, Repr, Inhabited

/-- How far a time is ahead of universal time. -/
inductive Offset where
  /-- Universal time itself. -/
  | universal
  /-- A number of minutes, negative if the time is behind. -/
  | minutes (ahead : Int)
  deriving DecidableEq, Repr, Inhabited

/-- A date, a time of day, or both. -/
inductive Moment where
  | date (date : Date)
  | time (time : TimeOfDay)
  | dateTime (date : Date) (time : TimeOfDay) (offset : Option Offset)
  deriving DecidableEq, Repr, Inhabited

/-! ### The calendar -/

/-- Whether a year has a twenty-ninth of February. -/
def isLeapYear (year : Nat) : Bool :=
  year % 4 == 0 && (year % 100 != 0 || year % 400 == 0)

/-- The number of days in a month. -/
def daysInMonth (year month : Nat) : Nat :=
  if month = 2 then if isLeapYear year then 29 else 28
  else if month ∈ [4, 6, 9, 11] then 30
  else 31

namespace Moment

/-! ### Reading -/

/-- A number of two digits between two bounds. -/
def readPair (least most : Nat) (text : List Char) : Option (Nat × List Char) :=
  match readFixed 2 text with
  | none => none
  | some (n, rest) => if least ≤ n ∧ n ≤ most then some (n, rest) else none

/-- A date, with hyphens in between. -/
def readDate (text : List Char) : Option (Date × List Char) := do
  let (year, rest) ← readFixed 4 text
  let (month, rest) ← readPair 1 12 (← dropChar? '-' rest)
  let (day, rest) ← readPair 1 (daysInMonth year month) (← dropChar? '-' rest)
  return (⟨year, month, day⟩, rest)

/-- The nanoseconds in the fraction of a second, if a point and digits stand there. -/
def readNanoseconds (text : List Char) : Nat × List Char :=
  match text with
  | '.' :: rest =>
    let digits := rest.takeWhile Char.isDigit
    if digits.isEmpty then (0, text)
    else
      (numeralValue ((digits ++ List.replicate 9 '0').take 9), rest.dropWhile Char.isDigit)
  | _ => (0, text)

/-- A time of day, with colons in between. -/
def readTime (text : List Char) : Option (TimeOfDay × List Char) := do
  let (hour, rest) ← readPair 0 23 text
  let (minute, rest) ← readPair 0 59 (← dropChar? ':' rest)
  let (second, rest) ← readPair 0 60 (← dropChar? ':' rest)
  let (nanosecond, rest) := readNanoseconds rest
  return (⟨hour, minute, second, nanosecond⟩, rest)

/-- Hours and minutes after the sign of an offset, in minutes. -/
def readMinutes (text : List Char) : Option (Nat × List Char) := do
  let (hours, rest) ← readPair 0 23 text
  let (minutes, rest) ← readPair 0 59 (← dropChar? ':' rest)
  return (hours * 60 + minutes, rest)

/-- An offset, if there is one. -/
def readOffset (text : List Char) : Option Offset × List Char :=
  match text with
  | 'Z' :: rest | 'z' :: rest => (some .universal, rest)
  | '+' :: rest =>
    match readMinutes rest with
    | some (n, rest) => (some (.minutes n), rest)
    | none => (none, text)
  | '-' :: rest =>
    match readMinutes rest with
    | some (n, rest) => (some (.minutes (-n)), rest)
    | none => (none, text)
  | _ => (none, text)

/-- Whether a character separates the date from the time. -/
def isDelimiter (c : Char) : Bool :=
  c == 'T' || c == 't' || c == ' '

/-- The time after a date, if there is one. -/
def readTimeAfterDate : List Char → Option (TimeOfDay × List Char)
  | c :: rest => if isDelimiter c then readTime rest else none
  | [] => none

/-- The moment at the start of a text. -/
def read (text : List Char) : Option (Moment × List Char) :=
  match readDate text with
  | none => (readTime text).map fun t => (.time t.1, t.2)
  | some (d, rest) =>
    match readTimeAfterDate rest with
    | none => some (.date d, rest)
    | some (t, rest) =>
      let (offset, rest) := readOffset rest
      some (.dateTime d t offset, rest)

end Moment

/-! ### Writing -/

/-- The text of a date. -/
def Date.chars (d : Date) : List Char :=
  fixedNumeral 4 d.year ++ '-' :: fixedNumeral 2 d.month ++ '-' :: fixedNumeral 2 d.day

/-- The text of the fraction of a second. -/
def fractionChars (nanosecond : Nat) : List Char :=
  if nanosecond = 0 then []
  else '.' :: ((fixedNumeral 9 nanosecond).reverse.dropWhile (· == '0')).reverse

/-- The text of a time of day. -/
def TimeOfDay.chars (t : TimeOfDay) : List Char :=
  fixedNumeral 2 t.hour ++ ':' :: fixedNumeral 2 t.minute ++ ':' :: fixedNumeral 2 t.second ++
    fractionChars t.nanosecond

/-- The text of an offset. -/
def Offset.chars : Offset → List Char
  | universal => ['Z']
  | minutes ahead =>
    (if ahead < 0 then '-' else '+') :: fixedNumeral 2 (ahead.natAbs / 60) ++
      ':' :: fixedNumeral 2 (ahead.natAbs % 60)

/-- The text of a moment. -/
def Moment.chars : Moment → List Char
  | date d => d.chars
  | time t => t.chars
  | dateTime d t offset =>
    d.chars ++ 'T' :: t.chars ++ ((offset.map Offset.chars).getD [])

/-- A moment is written in upper case, and without zeros at the end of the fraction. -/
example : (Moment.read "1979-05-27t07:32:00.500z".toList).map (fun m => (m.1.chars, m.2)) =
    some ("1979-05-27T07:32:00.5Z".toList, []) := by
  decide +kernel

/-- Only leap years have a twenty-ninth of February. -/
example : Moment.readDate "2001-02-29".toList = none := by decide +kernel

/-- What does not continue a date is left. -/
example : Moment.read "2000-02-29 #".toList =
    some (.date ⟨2000, 2, 29⟩, " #".toList) := by
  decide +kernel

end Tabletop
