import ComponentBindings.Decimal.Binary64

/-!
# The shortest decimal

Of the decimals that read back to a given binary number, those with the fewest digits are sought,
and of those the one nearest to the number. The reals that round to a number form an interval that
reaches half-way to its two neighbours; its ends belong to it exactly when the significand is even.
The search goes through the grids of one, two, … seventeen significant digits and tests, on each,
the two points next to the number.
-/

namespace ComponentBindings

/-- The decimal `digits * 10 ^ exponent`. -/
structure Decimal where
  /-- The digits, as a natural. -/
  digits : Nat
  /-- The power of ten of the last digit. -/
  exponent : Int
  deriving DecidableEq, Repr

namespace Decimal

/-- How `a * 10 ^ i` compares with `b / c`. -/
def compareScaled (a : Nat) (i : Int) (b c : Nat) : Ordering :=
  compare (a * tenTo i.toNat * c) (b * tenTo (-i).toNat)

/-- A finite positive number as quarters of a unit in its last place, with what they are divided
by: the number is `4 * m * scale / unit` for `m` its significand. -/
structure Quarters where
  /-- The significand. -/
  significand : Nat
  /-- The factor of every quarter. -/
  scale : Nat
  /-- The divisor of every quarter. -/
  unit : Nat
  /-- How many quarters below the number its interval starts: one where the neighbour below is half
  as far as the neighbour above. -/
  below : Nat

/-- The quarters of a finite number. -/
def Quarters.of (x : Binary64) : Quarters where
  significand := x.significand
  scale := twoTo x.exponent.toNat
  unit := 4 * twoTo (-x.exponent).toNat
  below := if x.fraction = 0 && 1 < x.biasedExponent then 1 else 2

/-- The number as a numerator over `unit`. -/
def Quarters.value (x : Quarters) : Nat := 4 * x.significand * x.scale

/-- Whether a decimal lies in the interval of the reals that round to the number. -/
def Quarters.readsBack (x : Quarters) (d : Decimal) : Bool :=
  let closed := x.significand % 2 = 0
  let low := compareScaled d.digits d.exponent ((4 * x.significand - x.below) * x.scale) x.unit
  let high := compareScaled d.digits d.exponent ((4 * x.significand + 2) * x.scale) x.unit
  (low == .gt || (closed && low == .eq)) && (high == .lt || (closed && high == .eq))

/-- The least power of ten above the number, found from its binary logarithm. -/
def Quarters.magnitude (x : Quarters) : Int :=
  let estimate := Int.fdiv (((x.value.log2 : Int) - x.unit.log2 - 1) * 30103) 100000
  match (List.range 5).find? fun (i : Nat) =>
      compareScaled 1 (estimate + i) x.value x.unit == .gt with
  | some i => estimate + i
  | none => estimate

/-- The point next to the number on the grid of `10 ^ i` that reads back, the nearer of two, and the
even one of two equally near. -/
def Quarters.onGrid (x : Quarters) (i : Int) : Option Decimal :=
  let floor := x.value * tenTo (-i).toNat / (tenTo i.toNat * x.unit)
  let down : Decimal := ⟨floor, i⟩
  let up : Decimal := ⟨floor + 1, i⟩
  match x.readsBack down, x.readsBack up with
  | true, true =>
    match compareScaled (2 * floor + 1) i (2 * x.value) x.unit with
    | .gt => some down
    | .lt => some up
    | .eq => some (if floor % 2 = 0 then down else up)
  | true, false => some down
  | false, true => some up
  | false, false => none

/-- The shortest decimal that reads back to a finite positive number, the exact value standing in
where seventeen digits do not. -/
def shortest (x : Binary64) : Decimal :=
  let quarters := Quarters.of x
  let top := quarters.magnitude
  match (List.range 17).findSome? fun (n : Nat) => quarters.onGrid (top - n - 1) with
  | some d => d
  | none =>
    ⟨x.significand * twoTo x.exponent.toNat * Nat.pow 5 (-x.exponent).toNat, min x.exponent 0⟩

end Decimal

end ComponentBindings
