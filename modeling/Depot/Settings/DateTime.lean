import Depot.Decimal.Digits
/-!
# Dates and times

A date, a time of day, or both, and then perhaps a zone, in the notation of RFC 3339. A date is in
front of a time by `T` or a blank; fractions of a second count up to nanoseconds. Ranges are those
of the single fields: every month may have 31 days, hours go up to 24.

`DateTime.text` writes what was read in one way: `T` between date and time, no zeros at the end of
a fraction, `Z` for the zone without offset.
-/

namespace Depot

open Decimal (takeDigits? ofDigits padded)

/-- A day. -/
structure Date where
  year : Nat
  month : Nat
  day : Nat
  deriving DecidableEq, Repr

/-- A time of day. -/
structure TimeOfDay where
  hour : Nat
  minute : Nat
  second : Nat
  nanosecond : Nat
  deriving DecidableEq, Repr

/-- How a time of day relates to universal time. -/
inductive Zone where
  | universal
  /-- An offset in hours and minutes. The hours alone have a sign, so an offset of less than an hour
  has none. -/
  | offset (hours : Int) (minutes : Nat)
  deriving DecidableEq, Repr

/-- A date, a time or both. -/
structure DateTime where
  date : Option Date
  time : Option TimeOfDay
  zone : Option Zone
  deriving DecidableEq, Repr

namespace DateTime

/-! ## Reading -/

/-- Leave out a character. -/
def expect? (c : Char) : List Char → Option (List Char)
  | x :: rest => if x = c then some rest else none
  | [] => none

/-- A day and what follows it. -/
def readDate? (s : List Char) : Option (Date × List Char) := do
  let (year, s) ← takeDigits? 4 s
  let (month, s) ← takeDigits? 2 (← expect? '-' s)
  let (day, s) ← takeDigits? 2 (← expect? '-' s)
  guard (1 ≤ month && month ≤ 12 && 1 ≤ day && day ≤ 31)
  return (⟨year, month, day⟩, s)

/-- The nanoseconds of a fraction of a second, zero if there is none. -/
def readFraction? (s : List Char) : Option (Nat × List Char) :=
  match s with
  | '.' :: s =>
    let digits := s.takeWhile Char.isDigit
    if digits.isEmpty then none
    else some (ofDigits ((digits ++ List.replicate 9 '0').take 9), s.dropWhile Char.isDigit)
  | s => some (0, s)

/-- A time of day and what follows it. -/
def readTime? (s : List Char) : Option (TimeOfDay × List Char) := do
  let (hour, s) ← takeDigits? 2 s
  let (minute, s) ← takeDigits? 2 (← expect? ':' s)
  let (second, s) ← takeDigits? 2 (← expect? ':' s)
  let (nanosecond, s) ← readFraction? s
  guard (hour ≤ 24 && minute ≤ 59 && second ≤ 59)
  return (⟨hour, minute, second, nanosecond⟩, s)

/-- A zone, which ends the text; none at the end of it. -/
def readZone? (s : List Char) : Option (Option Zone) := do
  match s with
  | [] => return none
  | sign :: s =>
    if sign == 'Z' || sign == 'z' then
      guard s.isEmpty
      return some .universal
    guard (sign == '+' || sign == '-')
    let (hours, s) ← takeDigits? 2 s
    let (minutes, s) ← takeDigits? 2 (← expect? ':' s)
    guard s.isEmpty
    return some (.offset (if sign == '-' then -(hours : Int) else hours) minutes)

/-- Whether a character stands between a date and a time. -/
def isSeparator (c : Char) : Bool := c == 'T' || c == 't' || c == ' '

/-- The date, the time or both that a text spells. A zone may stand behind both only. -/
def ofText? (s : List Char) : Option DateTime := do
  if s[2]? = some ':' then
    let (time, s) ← readTime? s
    guard s.isEmpty
    return ⟨none, some time, none⟩
  let (date, s) ← readDate? s
  match s with
  | [] => return ⟨some date, none, none⟩
  | c :: s =>
    guard (isSeparator c)
    let (time, s) ← readTime? s
    return ⟨some date, some time, ← readZone? s⟩

/-! ## Writing -/

/-- The text of a day. -/
def dateText (d : Date) : List Char :=
  padded 4 d.year ++ '-' :: padded 2 d.month ++ '-' :: padded 2 d.day

/-- The text of a time of day. -/
def timeText (t : TimeOfDay) : List Char :=
  let fraction := ((padded 9 t.nanosecond).reverse.dropWhile (· == '0')).reverse
  padded 2 t.hour ++ ':' :: padded 2 t.minute ++ ':' :: padded 2 t.second ++
    (if fraction.isEmpty then [] else '.' :: fraction)

/-- The text of a zone. -/
def zoneText : Zone → List Char
  | .universal => ['Z']
  | .offset hours minutes =>
    (if hours < 0 then '-' else '+') :: padded 2 hours.natAbs ++ ':' :: padded 2 minutes

/-- The text of a date, a time or both. -/
def text (d : DateTime) : String :=
  let between := if d.date.isSome && d.time.isSome then ['T'] else []
  String.ofList
    ((d.date.map dateText).getD [] ++ between ++ (d.time.map timeText).getD [] ++
      (d.zone.map zoneText).getD [])

end DateTime

end Depot
