import ComponentBindings.Document.Scalar
import ComponentBindings.Document.Scalar.Unrepresentable

/-!
# Timestamps

A plain scalar is a date if it has four digits, two and two with dashes
between them. With one or two digits for the month and the day and a time of
day behind a blank or a `T` it is a moment; the time can have a fraction, of
which six digits count, and say how the clock is set.

What has this form need not exist. Of several things that are wrong the
setting of the clock comes first, and then they come in the order in which
they are written.
-/

namespace ComponentBindings.Yaml

/-- The digits at the front of a text, as many as there are up to a number,
and the rest. There has to be a number of them at least. -/
def digitsAt (least most : Nat) (cs : List Char) : Option (List Char × List Char) :=
  let digits := (cs.take most).takeWhile Char.isDigit
  if digits.length < least then none else some (digits, cs.drop digits.length)

/-- The rest of a text behind a mark. -/
def behind (mark : Char) : List Char → Option (List Char)
  | [] => none
  | c :: rest => if c = mark then some rest else none

/-- The number that digits are. -/
def numberOf (digits : List Char) : Nat :=
  digits.foldl (fun n c => 10 * n + (c.toNat - '0'.toNat)) 0

/-- A blank. -/
def isGap (c : Char) : Bool := c = ' ' || c = '\t'

/-- The rest of a text behind what stands between a date and a time. -/
def behindDate : List Char → Option (List Char)
  | [] => none
  | c :: rest =>
    if c = 'T' || c = 't' then some rest
    else if isGap c then some (rest.dropWhile isGap)
    else none

/-- How a clock is set, in minutes: nothing, a `Z`, or a sign, hours and
perhaps minutes. -/
def clock? (cs : List Char) : Option (Option Int) :=
  match cs.dropWhile isGap with
  | [] => if cs.isEmpty then some none else none
  | ['Z'] => some (some 0)
  | sign :: rest => do
    if sign ≠ '+' && sign ≠ '-' then none
    let (hours, rest) ← digitsAt 1 2 rest
    let minutes ← if rest.isEmpty then some [] else do
      let (minutes, rest) ← digitsAt 2 2 (← behind ':' rest)
      if rest.isEmpty then some minutes else none
    let ahead : Int := numberOf hours * 60 + numberOf minutes
    some (some (if sign = '-' then -ahead else ahead))

/-- The fraction of a second at the front of a text, in microseconds, and the
rest. -/
def fractionAt : List Char → Nat × List Char
  | '.' :: rest =>
    let digits := rest.takeWhile Char.isDigit
    let six := (digits ++ List.replicate 6 '0').take 6
    (numberOf six, rest.drop digits.length)
  | cs => (0, cs)

/-- The date with a year, a month and a day, if it exists. -/
def dateOf (year month day : Nat) : Except Unrepresentable Date :=
  if year = 0 then .error (.year year)
  else if month = 0 || 12 < month then .error .month
  else if day = 0 || daysInMonth year month < day then .error .day
  else .ok { year, month, day }

/-- The time of day at the front of a text and how its clock is set, on a
date that is given by its numbers. -/
def momentOn (year month day : Nat) (cs : List Char) :
    Option (Except Unrepresentable Moment) := do
  let (hour, rest) ← digitsAt 1 2 cs
  let (minute, rest) ← digitsAt 2 2 (← behind ':' rest)
  let (second, rest) ← digitsAt 2 2 (← behind ':' rest)
  let (microsecond, rest) := fractionAt rest
  let offset ← clock? rest
  let hour := numberOf hour
  let minute := numberOf minute
  let second := numberOf second
  some do
    if let some minutes := offset then
      if 1440 ≤ minutes.natAbs then throw (.offset minutes)
    let date ← dateOf year month day
    if 23 < hour then throw .hour
    if 59 < minute then throw .minute
    if 59 < second then throw .second
    return { date, hour, minute, second, microsecond, offset }

/-- **The date or moment that a plain scalar has the form of**, which need not
exist. -/
def timestamp? (cs : List Char) : Option (Except Unrepresentable Scalar) := do
  let (year, rest) ← digitsAt 4 4 cs
  let (month, rest) ← digitsAt 1 2 (← behind '-' rest)
  let (day, rest) ← digitsAt 1 2 (← behind '-' rest)
  if rest.isEmpty then
    if month.length = 2 && day.length = 2 then
      some ((dateOf (numberOf year) (numberOf month) (numberOf day)).map .date)
    else none
  else
    let moment ← momentOn (numberOf year) (numberOf month) (numberOf day) (← behindDate rest)
    some (moment.map .moment)

end ComponentBindings.Yaml
