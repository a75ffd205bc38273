/-!
# Binary floating-point numbers

A floating-point number of a document is held by its sixty-four bits, and everything that is done
with it is done on naturals: a decimal is rounded to the nearest number, ties to the even one
(`Binary64.nearest`), and a finite number is taken apart into a significand and a power of two
(`Binary64.significand`, `Binary64.exponent`). Sums and products are the exact ones, rounded once.
-/

namespace ComponentBindings

/-- A power of two. -/
def twoTo (n : Nat) : Nat := Nat.pow 2 n

/-- A power of ten. -/
def tenTo (n : Nat) : Nat := Nat.pow 10 n

/-- A number in the binary format of sixty-four bits: a sign, eleven bits of exponent and fifty-two
bits of fraction. -/
structure Binary64 where
  /-- The bits, the sign being the highest. -/
  bits : UInt64
  deriving DecidableEq, Repr, Inhabited

namespace Binary64

/-- The sign bit. -/
def isNegative (x : Binary64) : Bool := twoTo 63 ≤ x.bits.toNat

/-- The bits of the exponent. -/
def biasedExponent (x : Binary64) : Nat := x.bits.toNat / twoTo 52 % twoTo 11

/-- The bits of the fraction. -/
def fraction (x : Binary64) : Nat := x.bits.toNat % twoTo 52

/-- Neither an infinity nor undefined. -/
def isFinite (x : Binary64) : Bool := x.biasedExponent < 2047

/-- The undefined number. -/
def isNaN (x : Binary64) : Bool := x.biasedExponent = 2047 && x.fraction != 0

/-- Zero of either sign. -/
def isZero (x : Binary64) : Bool := x.bits.toNat % twoTo 63 = 0

/-- The integer that a finite number is a power of two times. -/
def significand (x : Binary64) : Nat :=
  if x.biasedExponent = 0 then x.fraction else twoTo 52 + x.fraction

/-- The power of two that the significand is multiplied with. -/
def exponent (x : Binary64) : Int :=
  if x.biasedExponent = 0 then -1074 else (x.biasedExponent : Int) - 1075

/-- Positive infinity. -/
def infinity : Binary64 := ⟨0x7FF0000000000000⟩

/-- The undefined number that a document can write. -/
def nan : Binary64 := ⟨0x7FF8000000000000⟩

/-- The number of the other sign. -/
def neg (x : Binary64) : Binary64 := ⟨x.bits ^^^ 0x8000000000000000⟩

/-- The quotient rounded to the nearest natural, an exact half to the even one. -/
def roundedQuotient (num den : Nat) : Nat :=
  let q := num / den
  let r := num % den
  if 2 * r < den || (2 * r = den && q % 2 = 0) then q else q + 1

/-- The number nearest to a quotient of positive naturals.

With `l` the exponent of the highest binary digit of the quotient, the significand has its lowest
digit at `l - 52`, or at `-1074` where that is higher. A significand that is rounded up to the next
power of two carries into the exponent, because the two stand side by side in the bits. -/
def nearestQuotient (num den : Nat) : Binary64 :=
  let guess : Int := (num.log2 : Int) - den.log2
  let top : Int := if num * twoTo (-guess).toNat < den * twoTo guess.toNat then guess - 1 else guess
  let low : Int := max (top - 52) (-1074)
  let k := roundedQuotient (num * twoTo (-low).toNat) (den * twoTo low.toNat)
  let bits := if k < twoTo 52 then k else (low + 1074).toNat * twoTo 52 + k
  if 0x7FF0000000000000 ≤ bits then infinity else ⟨UInt64.ofNat bits⟩

/-- The number nearest to `m * 10 ^ e`.

Beyond the four-hundredth power of ten on either side every number is infinity or zero, so that no
large power is computed for those. -/
def nearest (m : Nat) (e : Int) : Binary64 :=
  if m = 0 then ⟨0⟩
  else
    let size : Int := e + (m.log2 / 3 : Nat)
    if 400 < e then infinity
    else if size < -800 then ⟨0⟩
    else nearestQuotient (m * tenTo e.toNat) (tenTo (-e).toNat)

/-- The number nearest to `m * 2 ^ e`. -/
def nearestScaled (m : Nat) (e : Int) : Binary64 :=
  if m = 0 then ⟨0⟩ else nearestQuotient (m * twoTo e.toNat) (twoTo (-e).toNat)

/-- The number nearest to a natural. -/
def ofNat (n : Nat) : Binary64 := nearestScaled n 0

/-- The sum of two numbers that are zero or more. -/
def add (x y : Binary64) : Binary64 :=
  if x.isFinite && y.isFinite then
    let e := min x.exponent y.exponent
    nearestScaled (x.significand * twoTo (x.exponent - e).toNat +
      y.significand * twoTo (y.exponent - e).toNat) e
  else infinity

/-- The product of a number that is zero or more and a positive one. -/
def mul (x y : Binary64) : Binary64 :=
  if x.isFinite && y.isFinite then
    nearestScaled (x.significand * y.significand) (x.exponent + y.exponent)
  else infinity

/-- The integer that a number is, if it is one. -/
def integer? (x : Binary64) : Option Int :=
  let scale := twoTo (-x.exponent).toNat
  if x.isFinite && x.significand % scale = 0 then
    let n : Nat := x.significand / scale * twoTo x.exponent.toNat
    some (if x.isNegative then -(n : Int) else n)
  else none

end Binary64

end ComponentBindings
