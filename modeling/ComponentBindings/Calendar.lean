/-!
# Dates and moments

A document can hold dates of the Gregorian calendar, and moments, which are a date with a time of
day. A moment may say how far the clock that shows it is ahead of universal time; two such moments
are the same if they are one instant, whatever their clocks show. The calendar reaches from year 1
to year 9999.
-/

namespace ComponentBindings

/-- A year with a 29th of February. -/
def isLeapYear (year : Nat) : Bool := year % 4 = 0 && (year % 100 ≠ 0 || year % 400 = 0)

/-- The number of days of a month. -/
def daysInMonth (year month : Nat) : Nat :=
  if month = 2 then if isLeapYear year then 29 else 28
  else if [4, 6, 9, 11].contains month then 30
  else 31

/-- **A date.** -/
structure Date where
  /-- The year. -/
  year : Nat
  /-- The month, from 1 to 12. -/
  month : Nat
  /-- The day of the month, from 1. -/
  day : Nat
  deriving DecidableEq, Repr

namespace Date

/-- The number of days from the first day of the calendar to a date. -/
def dayNumber (d : Date) : Nat :=
  let years := d.year - 1
  let before := years * 365 + years / 4 - years / 100 + years / 400
  let months := List.range' 1 (d.month - 1)
  months.foldl (fun days month => days + daysInMonth d.year month) before + (d.day - 1)

end Date

/-- **A date with a time of day.** -/
structure Moment where
  /-- The date. -/
  date : Date
  /-- The hour, below 24. -/
  hour : Nat
  /-- The minute, below 60. -/
  minute : Nat
  /-- The second, below 60. -/
  second : Nat
  /-- The millionths of a second. -/
  microsecond : Nat
  /-- How many minutes the clock is ahead of universal time, if it is said. -/
  offset : Option Int
  deriving DecidableEq, Repr

namespace Moment

/-- The number of microseconds from the start of the calendar to what the clock shows. -/
def reading (m : Moment) : Nat :=
  (((m.date.dayNumber * 24 + m.hour) * 60 + m.minute) * 60 + m.second) * 1000000 + m.microsecond

/-- Whether two moments are the same: they are one instant, or neither says how its clock is set
and both show the same. -/
def same (m n : Moment) : Bool :=
  match m.offset, n.offset with
  | some a, some b => (m.reading : Int) - a * 60000000 = n.reading - b * 60000000
  | _, _ => m = n

/-- A moment is the same as itself. -/
theorem same_self (m : Moment) : m.same m = true := by
  unfold same
  cases m.offset <;> simp

end Moment

end ComponentBindings
