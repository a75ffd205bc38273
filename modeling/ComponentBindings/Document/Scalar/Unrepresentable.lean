import ComponentBindings.Calendar

/-!
# Scalars that stand for nothing

A scalar can be written like a number, a date or a character and stand for none: there is no month
13, a number needs a digit, and numbers of more than 4300 digits are neither read nor shown.
-/

namespace ComponentBindings

/-- **Why a scalar stands for nothing.** -/
inductive Unrepresentable where
  /-- A number in a base has no digit. -/
  | noDigit (base : Nat)
  /-- A number has too many digits to be read. -/
  | tooManyDigits (count : Nat)
  /-- A number has too many digits to be shown. -/
  | tooLongToShow
  /-- A place of a number in base sixty is out of range. -/
  | tooManyPlaces
  /-- A character has a code that is none. -/
  | code
  /-- A character has a code that does not fit a signed word of 32 bits. -/
  | longCode
  /-- A clock is a day or more away from universal time. -/
  | offset (minutes : Int)
  /-- A year is not in the calendar. -/
  | year (number : Nat)
  /-- A month does not exist. -/
  | month
  /-- A month does not have a day. -/
  | day
  /-- There is no such hour. -/
  | hour
  /-- There is no such minute. -/
  | minute
  /-- There is no such second. -/
  | second
  deriving DecidableEq, Repr

/-- The most digits that a number may have. -/
def digitLimit : Nat := 4300

/-- A span of time as messages show it: whole days and what is left in seconds, which is not
negative. -/
def displaySpan (minutes : Int) : String :=
  let days := Int.fdiv minutes 1440
  let seconds := Int.fmod minutes 1440 * 60
  let part (name : String) (n : Int) : List String := if n = 0 then [] else [s!"{name}={n}"]
  let parts := part "days" days ++ part "seconds" seconds
  "datetime.timedelta(" ++ (if parts.isEmpty then "0" else ", ".intercalate parts) ++ ")"

/-- The wording. -/
def Unrepresentable.message : Unrepresentable → String
  | noDigit base => s!"invalid literal for int() with base {base}: ''"
  | tooManyDigits count =>
    s!"Exceeds the limit ({digitLimit} digits) for integer string conversion: value has {count} " ++
      "digits; use sys.set_int_max_str_digits() to increase the limit"
  | tooLongToShow =>
    s!"Exceeds the limit ({digitLimit} digits) for integer string conversion; use " ++
      "sys.set_int_max_str_digits() to increase the limit"
  | tooManyPlaces => "int too large to convert to float"
  | code => "chr() arg not in range(0x110000)"
  | longCode => "Python int too large to convert to C int"
  | offset minutes =>
    "offset must be a timedelta strictly between -timedelta(hours=24) and timedelta(hours=24), " ++
      "not " ++ displaySpan minutes ++ "."
  | year number => s!"year {number} is out of range"
  | month => "month must be in 1..12"
  | day => "day is out of range for month"
  | hour => "hour must be in 0..23"
  | minute => "minute must be in 0..59"
  | second => "second must be in 0..59"

end ComponentBindings
