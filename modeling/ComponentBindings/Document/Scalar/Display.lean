import ComponentBindings.Decimal.Shortest
import ComponentBindings.Document.Scalar
import ComponentBindings.Document.Scalar.Unrepresentable
import ComponentBindings.Text.Quoted

/-!
# Scalars in messages

A scalar can appear in a message in two ways. As a value (`Scalar.display`) a text stands in quotes
and a date is written as what makes it. As a name (`Scalar.shown`) a text stands for itself, and a
date is written in the order year, month, day with a time of day behind it. Numbers are written
alike in both: with the fewest digits that identify them, positionally where the leading digit
stands between the fourth place after the point and the sixteenth before it, and with a signed
exponent of at least two digits elsewhere.
-/

namespace ComponentBindings

/-- `n` zeros. -/
def Decimal.zeros (n : Nat) : String := String.ofList (List.replicate n '0')

/-- A decimal in the positional notation, with a digit on either side of the point, or in the
notation with an exponent. -/
def Decimal.display (d : Decimal) : String :=
  let digits := Nat.toDigits 10 d.digits
  let digits := (digits.reverse.dropWhile (· == '0')).reverse
  let places : Int := d.exponent + (Nat.toDigits 10 d.digits).length
  let lead := places - 1
  if -4 ≤ lead && lead < 16 then
    if places ≤ 0 then "0." ++ zeros (-places).toNat ++ String.ofList digits
    else if digits.length ≤ places.toNat then
      String.ofList digits ++ zeros (places.toNat - digits.length) ++ ".0"
    else String.ofList (digits.take places.toNat) ++ "." ++ String.ofList (digits.drop places.toNat)
  else
    let exponent := toString lead.natAbs
    String.ofList (digits.take 1) ++ (if digits.length ≤ 1 then "" else ".") ++
      String.ofList (digits.drop 1) ++ (if lead < 0 then "e-" else "e+") ++
      zeros (2 - exponent.length) ++ exponent

/-- A number as a message shows it. -/
def Binary64.display (x : Binary64) : String :=
  if x.isNaN then "nan"
  else (if x.isNegative then "-" else "") ++
    (if !x.isFinite then "inf" else if x.isZero then "0.0" else (Decimal.shortest x).display)

/-- A natural in a number of digits at least. -/
def padded (width n : Nat) : String :=
  let digits := toString n
  Decimal.zeros (width - digits.length) ++ digits

/-- A date as a value. -/
def Date.display (d : Date) : String :=
  "datetime.date(" ++ ", ".intercalate ([d.year, d.month, d.day].map toString) ++ ")"

/-- A date as a name. -/
def Date.shown (d : Date) : String := padded 4 d.year ++ "-" ++ padded 2 d.month ++ "-" ++
  padded 2 d.day

/-- How the clock of a moment is set, as a value. -/
def displayOffset (minutes : Int) : String :=
  if minutes = 0 then "datetime.timezone.utc"
  else "datetime.timezone(" ++ displaySpan minutes ++ ")"

/-- A moment as a value. Seconds are left out if nothing follows the minute. -/
def Moment.display (m : Moment) : String :=
  let fields := [m.date.year, m.date.month, m.date.day, m.hour, m.minute]
  let fields := if m.second = 0 && m.microsecond = 0 then fields else fields ++ [m.second]
  let fields := if m.microsecond = 0 then fields else fields ++ [m.microsecond]
  let offset := m.offset.toList.map fun minutes => "tzinfo=" ++ displayOffset minutes
  "datetime.datetime(" ++ ", ".intercalate (fields.map toString ++ offset) ++ ")"

/-- A moment as a name. -/
def Moment.shown (m : Moment) : String :=
  m.date.shown ++ " " ++ ":".intercalate ([m.hour, m.minute, m.second].map (padded 2)) ++
    (if m.microsecond = 0 then "" else "." ++ padded 6 m.microsecond) ++
    m.offset.elim "" fun minutes =>
      (if minutes < 0 then "-" else "+") ++ padded 2 (minutes.natAbs / 60) ++ ":" ++
        padded 2 (minutes.natAbs % 60)

namespace Scalar

/-- **A scalar as a value.** -/
def display : Scalar → String
  | .null => "None"
  | .bool true => "True"
  | .bool false => "False"
  | .int value => toString value
  | .float value => value.display
  | .text value => Text.quoted value
  | .date value => value.display
  | .moment value => value.display

/-- **A scalar as a name.** -/
def shown : Scalar → String
  | .text value => value
  | .date value => value.shown
  | .moment value => value.shown
  | other => other.display

/-- The least number that has too many digits to be shown. -/
def showLimit : Nat := tenTo digitLimit

/-- Whether a scalar can be shown: it is not an integer with too many digits. -/
def isShowable : Scalar → Bool
  | .int value => value.natAbs < showLimit
  | _ => true

end Scalar

end ComponentBindings
