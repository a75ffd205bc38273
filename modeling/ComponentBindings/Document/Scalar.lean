import ComponentBindings.Calendar
import ComponentBindings.Decimal.Binary64

/-!
# Scalars

A scalar is a value of a document that has no parts. Scalars are also what the members of an object
are named by, and for that purpose a number is the same name however it is written: `1`, `1.0` and
the truth value that stands for one are one name (`Scalar.same`).
-/

namespace ComponentBindings

/-- A value without parts. Integers are unbounded, and a number written with a fraction or an
exponent is not an integer. -/
inductive Scalar where
  /-- The absent value. -/
  | null
  /-- A truth value. -/
  | bool (value : Bool)
  /-- An integer. -/
  | int (value : Int)
  /-- A number that is not an integer. -/
  | float (value : Binary64)
  /-- A text. -/
  | text (value : String)
  /-- A date. -/
  | date (value : Date)
  /-- A date with a time of day. -/
  | moment (value : Moment)
  deriving DecidableEq, Repr, Inhabited

namespace Scalar

/-- Whether a scalar counts as empty: the absent value, falsehood, a zero, and the empty text. -/
def isEmpty : Scalar → Bool
  | .null => true
  | .bool value => !value
  | .int value => value = 0
  | .float value => value.isZero
  | .text value => value = ""
  | .date _ | .moment _ => false

/-- A scalar with numbers in one form: truth values are zero and one, and a number that is written
with a fraction and has none is an integer. -/
def normal : Scalar → Scalar
  | .bool value => .int (if value then 1 else 0)
  | .float value => value.integer?.elim (.float value) .int
  | other => other

/-- Whether two scalars are the same name. -/
def same : Scalar → Scalar → Bool
  | .moment m, .moment n => m.same n
  | a, b => a.normal = b.normal

/-- A scalar is the same name as itself. -/
theorem same_self (s : Scalar) : s.same s = true := by
  cases s <;> simp [same, Moment.same_self]

end Scalar

end ComponentBindings
