import HeaderReflection.Text.Number

/-!
# Dates and times

Dates of the Gregorian calendar, times of day to the nanosecond, and moments, which are both of them with the distance
of their time zone.

## Main definitions

- `Date`, `TimeOfDay`, `Moment`: the values.
- `Date.daysIn`: the length of a month.
- `Date.shown`, `TimeOfDay.shown`, `Moment.shown`: their texts.
-/

namespace HeaderReflection

open Text (byte padded)

/-- A date. -/
structure Date where
  year : Nat
  month : Nat
  day : Nat
  deriving DecidableEq, Repr, Inhabited

/-- A time of day. -/
structure TimeOfDay where
  hour : Nat := 0
  minute : Nat := 0
  second : Nat := 0
  nanosecond : Nat := 0
  deriving DecidableEq, Repr, Inhabited

/-- A date and a time, with the distance of their time zone in minutes. -/
structure Moment where
  date : Date
  time : TimeOfDay := {}
  offset : Int := 0
  deriving DecidableEq, Repr, Inhabited

namespace Date

/-- The number of days in a month. -/
def daysIn (year month : Nat) : Nat :=
  if month = 2 then if year % 4 = 0 ∧ (year % 100 ≠ 0 ∨ year % 400 = 0) then 29 else 28
  else if month = 4 ∨ month = 6 ∨ month = 9 ∨ month = 11 then 30 else 31

/-- Whether there is such a day. -/
def isValid (d : Date) : Bool :=
  1 ≤ d.month && d.month ≤ 12 && 1 ≤ d.day && d.day ≤ daysIn d.year d.month

/-- The day after. -/
def next (d : Date) : Date :=
  if d.day < daysIn d.year d.month then { d with day := d.day + 1 }
  else if d.month < 12 then { d with month := d.month + 1, day := 1 }
  else { year := d.year + 1, month := 1, day := 1 }

/-- The text of a date. -/
def shown (d : Date) : Text := padded 4 d.year ++ "-" ++ padded 2 d.month ++ "-" ++ padded 2 d.day

end Date

namespace TimeOfDay

/-- The nanoseconds of a fraction of a second; digits behind the ninth do not count. -/
def nanosecondsOf (digits : Text) : Nat :=
  Text.digitsValue (digits.take 9 ++ List.replicate (9 - digits.length) (byte '0'))

/-- Hours, minutes and seconds. -/
def clock (t : TimeOfDay) : Text := padded 2 t.hour ++ ":" ++ padded 2 t.minute ++ ":" ++ padded 2 t.second

/-- The text of a time, with as many digits of the fraction as it needs. -/
def shown (t : TimeOfDay) : Text :=
  let part := Text.trimEndOf [byte '0'] (padded 9 t.nanosecond)
  t.clock ++ (if part = [] then [] else byte '.' :: part)

end TimeOfDay

namespace Moment

/-- A moment whose seconds are below sixty: a leap second is the first one of the next minute. -/
def carried (m : Moment) : Moment :=
  if m.time.second < 60 then m
  else
    let minute := m.time.minute + 1
    let hour := m.time.hour + minute / 60
    { m with
      date := if hour = 24 then m.date.next else m.date
      time := { m.time with second := m.time.second - 60, minute := minute % 60, hour := hour % 24 } }

/-- The distance of a time zone. -/
def offsetText (minutes : Int) : Text :=
  (if minutes < 0 then "-" else "+") ++ padded 2 (minutes.natAbs / 60) ++ padded 2 (minutes.natAbs % 60)

/-- The text of a moment. Its time zone is told by its distance, and by its name if it has one. -/
def shown (m : Moment) : Text :=
  let zone := offsetText m.offset
  m.date.shown ++ " " ++ m.time.shown ++ " " ++ zone ++ " " ++ (if m.offset = 0 then ("UTC" : Text) else zone)

end Moment

end HeaderReflection
