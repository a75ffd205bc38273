import ComponentBindings.Document.Yaml.Timestamp
import ComponentBindings.Text.Digit
import ComponentBindings.Text.Pieces

/-!
# What plain scalars stand for

A plain scalar is an absent value, a truth value, an integer, another number
or a timestamp if it is written like one, and a text otherwise. Integers are
written in base ten, two, eight (with a zero in front), sixteen or sixty
(with colons between the places), and underscores between digits count for
nothing. A number that is no integer has a point, and an exponent only with
its sign; in base sixty only its last place has a fraction, and its value is
summed up from the last place to the first.
-/

namespace ComponentBindings.Yaml

open Text (digit?)

/-- The number that digits in a base are, underscores aside. -/
def natural? (base : Nat) (cs : List Char) : Option Nat :=
  cs.foldlM (fun n c => if c = '_' then some n else (digit? base c).map (base * n + ·)) 0

/-- How many digits there are among digits and underscores. -/
def digitCount (cs : List Char) : Nat := (cs.filter (· ≠ '_')).length

/-- A number in a base behind its mark. There has to be a character, and one
that is not an underscore. -/
def marked? (base : Nat) (cs : List Char) : Option (Except Unrepresentable Nat) :=
  if cs.isEmpty then none
  else (natural? base cs).map fun n =>
    if digitCount cs = 0 then .error (.noDigit base) else .ok n

/-- Digits in base ten and underscores that start with a digit. -/
def isDecimal : List Char → Bool
  | [] => false
  | c :: rest => c.isDigit && rest.all fun d => d.isDigit || d = '_'

/-- A number in base ten. -/
def decimal? (cs : List Char) : Option (Except Unrepresentable Nat) :=
  if isDecimal cs then
    (natural? 10 cs).map fun n =>
      if digitLimit < digitCount cs then .error (.tooManyDigits (digitCount cs)) else .ok n
  else none

/-- A place of a number in base sixty: a digit, or two below sixty. -/
def place? : List Char → Option Nat
  | [c] => digit? 10 c
  | [c, d] => do
    let high ← digit? 6 c
    let low ← digit? 10 d
    some (10 * high + low)
  | _ => none

/-- The places of a number in base sixty, of which there are two at least.
The first one is any number. -/
def places? (cs : List Char) : Option (List Char × List Nat) :=
  match Text.pieces (· = ':') cs with
  | first :: second :: more =>
    if isDecimal first then (second :: more).mapM place? |>.map (first, ·) else none
  | _ => none

/-- A number in base sixty. -/
def sexagesimal? (cs : List Char) : Option (Except Unrepresentable Nat) := do
  let (first, more) ← places? cs
  let first ← decimal? first
  some (first.map fun first => more.foldl (fun n place => 60 * n + place) first)

/-- A sign at the front of a text: whether it is a minus, and the rest. -/
def takeSign : List Char → Bool × List Char
  | '-' :: rest => (true, rest)
  | '+' :: rest => (false, rest)
  | cs => (false, cs)

/-- A natural number in one of the bases. -/
def unsigned? : List Char → Option (Except Unrepresentable Nat)
  | ['0'] => some (.ok 0)
  | '0' :: 'b' :: rest => marked? 2 rest
  | '0' :: 'x' :: rest => marked? 16 rest
  | '0' :: rest => (natural? 8 rest).map .ok
  | cs => (decimal? cs).orElse fun _ => sexagesimal? cs

/-- An integer. -/
def integer? (cs : List Char) : Option (Except Unrepresentable Int) :=
  let (negative, rest) := takeSign cs
  (unsigned? rest).map fun n => n.map fun n => if negative then -n else n

/-- An exponent with its sign. -/
def exponent? : List Char → Option Int
  | [] => some 0
  | e :: sign :: rest =>
    if (e = 'e' || e = 'E') && (sign = '-' || sign = '+') && !rest.isEmpty &&
        rest.all Char.isDigit then
      (natural? 10 rest).map fun n => if sign = '-' then -n else n
    else none
  | _ => none

/-- The value of a number in base sixty from its last place on, each place
with its weight. -/
def sumPlaces (sum : Binary64) (weight : Nat) :
    List Binary64 → Except Unrepresentable Binary64
  | [] => .ok sum
  | place :: rest =>
    let factor := Binary64.ofNat weight
    if factor.isFinite then sumPlaces (sum.add (place.mul factor)) (60 * weight) rest
    else .error .tooManyPlaces

/-- A number in base sixty whose last place has a fraction. -/
def sexagesimalPoint? (whole fraction : List Char) :
    Option (Except Unrepresentable Binary64) := do
  let (first, more) ← places? whole
  let first ← natural? 10 first
  let fractionNumber ← natural? 10 fraction
  let digits := digitCount fraction
  match (first :: more).reverse with
  | last :: before =>
    let last := Binary64.nearest (last * tenTo digits + fractionNumber) (-digits)
    some (sumPlaces ⟨0⟩ 1 (last :: before.map fun place => Binary64.nearest place 0))
  | [] => none

/-- A number in base ten with a point and perhaps an exponent. -/
def decimalPoint? (whole fraction exponent : List Char) : Option Binary64 := do
  let n ← natural? 10 (whole ++ fraction)
  let e ← exponent? exponent
  some (Binary64.nearest n (e - digitCount fraction))

/-- A number with a point, without its sign. Without digits in front of the
point there has to be one behind it. -/
def pointed? (cs : List Char) : Option (Except Unrepresentable Binary64) := do
  let isPart (c : Char) : Bool := c.isDigit || c = '_'
  let whole := cs.takeWhile (· ≠ '.')
  let '.' :: rest := cs.dropWhile (· ≠ '.') | none
  let fraction := rest.takeWhile isPart
  let exponent := rest.dropWhile isPart
  if whole.isEmpty then
    if isDecimal fraction then (decimalPoint? [] fraction exponent).map .ok else none
  else if isDecimal whole then (decimalPoint? whole fraction exponent).map .ok
  else if exponent.isEmpty then sexagesimalPoint? whole fraction
  else none

/-- A number that is no integer. -/
def float? (cs : List Char) : Option (Except Unrepresentable Binary64) :=
  let (negative, rest) := takeSign cs
  let signed := rest.length < cs.length
  let text := String.ofList rest
  let withSign (x : Binary64) : Binary64 := if negative then x.neg else x
  if [".inf", ".Inf", ".INF"].contains text then some (.ok (withSign .infinity))
  else if [".nan", ".NaN", ".NAN"].contains text then if signed then none else some (.ok .nan)
  else if signed && rest.head? = some '.' then none
  else (pointed? rest).map fun x => x.map withSign

/-- **What a plain scalar stands for.** -/
def plainValue (cs : List Char) : Except Unrepresentable Scalar :=
  let text := String.ofList cs
  if ["", "~", "null", "Null", "NULL"].contains text then .ok .null
  else if ["yes", "Yes", "YES", "true", "True", "TRUE", "on", "On", "ON"].contains text then
    .ok (.bool true)
  else if ["no", "No", "NO", "false", "False", "FALSE", "off", "Off", "OFF"].contains text then
    .ok (.bool false)
  else match float? cs, integer? cs, timestamp? cs with
    | some x, _, _ => x.map .float
    | none, some n, _ => n.map .int
    | none, none, some stamp => stamp
    | none, none, none => .ok (.text text)

end ComponentBindings.Yaml
