import RecordQuery.Binary64

/-!
# The shortest decimal of a double

A decimal *reads back* as a double if it lies in the double's rounding interval: between the
midpoints to the two neighbouring magnitudes, the midpoints themselves belonging to the even
magnitude. The written form of a double uses the coarsest power of ten that has a multiple in the
interval, and of two such multiples the nearer one.

The interval is handled in half units, where a magnitude's value is `2 * units magnitude` and both
midpoints are whole: a sum of two neighbouring values.

## Main definitions

* `Binary64.Decimal` — a natural number of powers of ten
* `Binary64.shortest` — the shortest decimal that reads back
* `Binary64.text` — its positional spelling: no exponent, no point unless needed
-/

namespace RecordQuery

namespace Binary64

/-- The number `digits * 10 ^ exponent`. -/
structure Decimal where
  /-- The significant digits, read as a number. -/
  digits : Nat
  /-- The power of ten that the last digit counts. -/
  exponent : Int
  deriving DecidableEq

/-! ### Choosing the digits -/

/-- The half units in `10 ^ exponent`, as a quotient of two natural numbers. -/
def halfUnits (exponent : Int) : Nat × Nat :=
  if 0 ≤ exponent then (Nat.pow 10 exponent.toNat * (2 * unitsPerOne), 1)
  else (2 * unitsPerOne, Nat.pow 10 (-exponent).toNat)

/-- Whether `digits * 10 ^ exponent` reads back as `magnitude`. -/
def readsBack (magnitude digits : Nat) (exponent : Int) : Bool :=
  let (num, den) := halfUnits exponent
  let low := (units (magnitude - 1) + units magnitude) * den
  let high := (units magnitude + units (magnitude + 1)) * den
  let value := digits * num
  if magnitude % 2 = 0 then low ≤ value && value ≤ high else low < value && value < high

/-- The multiple of `10 ^ exponent` that reads back as `magnitude`: of the two around its value
the nearer one, the upper one of two equally near. -/
def digitsAt? (magnitude : Nat) (exponent : Int) : Option Nat :=
  let (num, den) := halfUnits exponent
  let value := 2 * units magnitude * den
  let below := value / num
  match readsBack magnitude below exponent, readsBack magnitude (below + 1) exponent with
  | true, true => some (if 2 * (value % num) < num then below else below + 1)
  | true, false => some below
  | false, true => some (below + 1)
  | false, false => none

/-- The least exponent worth trying: its power of ten is below the smallest double. -/
def leastExponent : Int := -324

/-- The coarsest decimal that reads back, among the `steps` lowest exponents. -/
def shortestBelow (magnitude : Nat) : Nat → Decimal
  | 0 => ⟨0, 0⟩
  | step + 1 =>
    match digitsAt? magnitude (leastExponent + step) with
    | some digits => ⟨digits, leastExponent + step⟩
    | none => shortestBelow magnitude step

/-- The shortest decimal that reads back as a finite magnitude. The search starts at `10 ^ 308`,
the largest power of ten below infinity. -/
def shortest (magnitude : Nat) : Decimal :=
  if magnitude = 0 then ⟨0, 0⟩ else shortestBelow magnitude 633

/-! ### Spelling -/

/-- Positional notation: zeros are written up to the point on either side, and a point only if
digits follow it. -/
def Decimal.spell (d : Decimal) : List Char :=
  let digits := Nat.toDigits 10 d.digits
  if 0 ≤ d.exponent then digits ++ List.replicate d.exponent.toNat '0'
  else
    let places := (-d.exponent).toNat
    if places < digits.length then
      digits.take (digits.length - places) ++ '.' :: digits.drop (digits.length - places)
    else '0' :: '.' :: (List.replicate (places - digits.length) '0' ++ digits)

/-- The written form of a double: a sign if its sign bit is set, then the shortest decimal that
reads back. -/
def text (x : Binary64) : String :=
  if x.isNaN then "NaN"
  else
    let body := if x.isInfinite then "inf".toList else (shortest x.magnitude).spell
    String.ofList (if x.negative then '-' :: body else body)

end Binary64

end RecordQuery
