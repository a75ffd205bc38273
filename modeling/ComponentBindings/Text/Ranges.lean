/-!
# Sets of characters as ranges

A property of characters is held as a list of closed ranges of code points, ascending and apart, and
a mapping of characters as a list of runs that move by one distance.
-/

namespace ComponentBindings.Text

/-- Whether a code point lies in one of the closed ranges. -/
def inRanges (ranges : List (Nat × Nat)) (code : Nat) : Bool :=
  ranges.any fun r => r.1 ≤ code && code ≤ r.2

/-- Code points from `first` to `last`, every `step`-th one, each sent `shift` further. -/
structure Run where
  /-- The first code point of the run. -/
  first : Nat
  /-- The last code point of the run. -/
  last : Nat
  /-- The distance between neighbours of the run. -/
  step : Nat
  /-- How far each code point is moved. -/
  shift : Int

/-- Whether the run moves a code point. -/
def Run.covers (r : Run) (code : Nat) : Bool :=
  r.first ≤ code && code ≤ r.last && (code - r.first) % r.step == 0

/-- The code point a mapping sends `code` to; a code point in no run stays. -/
def shifted (runs : List Run) (code : Nat) : Nat :=
  match runs.find? (·.covers code) with
  | some r => (code + r.shift).toNat
  | none => code

end ComponentBindings.Text
