/-!
# Doubles as signed magnitudes

A `Binary64` is an IEEE 754 double: a sign, and a magnitude that counts how many doubles lie
between it and zero. The magnitude is the low 63 bits of the interchange format read as a number,
so counting up walks through the subnormals, the normals, infinity and then the NaNs.

## Exact arithmetic, one rounding

Every finite double is a whole multiple of the smallest subnormal, `2 ^ (-1074)`. `units` reads a
magnitude as that multiple, which makes the exact value of a double a natural number and the exact
result of an operation a quotient of two natural numbers. The operations compute that quotient and
round once, to the nearest magnitude, a tie going to the even one.

## Total, permissive reading

There is no bound on `magnitude`: every magnitude past infinity's is a NaN. Statements that need a
finite double say so with `isFinite`.

## Main definitions

* `Binary64.units` — the exact value of a magnitude, in multiples of `2 ^ (-1074)`
* `Binary64.roundMagnitude` — the magnitude nearest to an exact quotient
* `Binary64.add`, `sub`, `mul`, `div` — exact results, rounded once
* `Binary64.compare?` — the order, undefined on NaNs, with the two zeros equal
-/

namespace RecordQuery

/-- A double: its sign, and the number of doubles between zero and it. -/
structure Binary64 where
  /-- Whether the sign bit is set. Zeros and NaNs have one too. -/
  negative : Bool
  /-- The low 63 bits of the interchange format, read as a number. -/
  magnitude : Nat
  deriving DecidableEq

namespace Binary64

/-! ### Magnitudes -/

/-- The number of doubles from one power of two up to the next. -/
def binade : Nat := Nat.pow 2 52

/-- The magnitude of infinity. The magnitudes above it are the NaNs. -/
def infinite : Nat := 2047 * binade

/-- The number of units in one: a unit is the smallest subnormal, `2 ^ (-1074)`. -/
def unitsPerOne : Nat := Nat.pow 2 1074

/-- The exact value of a magnitude, in units. In the lowest two binades consecutive doubles are
one unit apart; from there on the distance doubles with every binade. -/
def units (magnitude : Nat) : Nat :=
  if magnitude < 2 * binade then magnitude
  else (binade + magnitude % binade) * Nat.pow 2 (magnitude / binade - 1)

/-- The natural number nearest to `num / den`, a tie going to the even neighbour. -/
def nearest (num den : Nat) : Nat :=
  let quotient := num / den
  let doubled := 2 * (num % den)
  if doubled < den then quotient
  else if den < doubled then quotient + 1
  else quotient + quotient % 2

/-- The magnitude nearest to `num / den` units, ties to even. The shift leaves a quotient of 53
bits; a quotient that rounds up to the next power of two lands on the next binade by itself. -/
def roundMagnitude (num den : Nat) : Nat :=
  let shift := (num / den).log2 - 52
  min infinite (shift * binade + nearest num (den * Nat.pow 2 shift))

/-! ### Classes and constants -/

/-- Whether the double is not a number. -/
def isNaN (x : Binary64) : Bool := infinite < x.magnitude

/-- Whether the double is one of the two infinities. -/
def isInfinite (x : Binary64) : Bool := x.magnitude == infinite

/-- Whether the double has a finite value. -/
def isFinite (x : Binary64) : Bool := x.magnitude < infinite

/-- Whether the double is one of the two zeros. -/
def isZero (x : Binary64) : Bool := x.magnitude == 0

/-- The one NaN that operations return. -/
def nan : Binary64 := ⟨false, infinite + binade / 2⟩

/-- The zero with the sign bit set, which is the sum of nothing. -/
def negZero : Binary64 := ⟨true, 0⟩

/-- The exact value of a finite double, in units. -/
def signedUnits (x : Binary64) : Int :=
  if x.negative then -(units x.magnitude : Int) else (units x.magnitude : Int)

/-- There is one infinity of either sign. -/
theorem eq_of_isInfinite {x y : Binary64} (hx : x.isInfinite = true) (hy : y.isInfinite = true)
    (h : x.negative = y.negative) : x = y := by
  obtain ⟨_, _⟩ := x
  obtain ⟨_, _⟩ := y
  simp only [isInfinite, beq_iff_eq] at hx hy
  simp_all

/-! ### The interchange format -/

/-- The sign bit of the 64-bit pattern. -/
def signBit : Nat := Nat.pow 2 63

/-- The double with the given 64-bit pattern. -/
def ofBits (bits : Nat) : Binary64 := ⟨decide (signBit ≤ bits), bits % signBit⟩

/-- The 64-bit pattern of a double. -/
def toBits (x : Binary64) : Nat := (if x.negative then signBit else 0) + x.magnitude

theorem ofBits_toBits {x : Binary64} (h : x.magnitude < signBit) : ofBits x.toBits = x := by
  obtain ⟨negative, magnitude⟩ := x
  have : magnitude < signBit := h
  cases negative
  · simp [ofBits, toBits, Nat.mod_eq_of_lt this, this]
  · simp [ofBits, toBits, Nat.mod_eq_of_lt this]

/-! ### Conversions -/

/-- The double nearest to an integer. -/
def ofInt (n : Int) : Binary64 :=
  ⟨decide (n < 0), roundMagnitude (n.natAbs * unitsPerOne) 1⟩

/-- The double nearest to the decimal `mantissa * 10 ^ exponent`, where `negativeExponent` says
that the exponent counts places after the point. -/
def ofDecimal (mantissa : Nat) (negativeExponent : Bool) (exponent : Nat) : Binary64 :=
  let num := mantissa * unitsPerOne
  ⟨false, if negativeExponent then roundMagnitude num (Nat.pow 10 exponent)
    else roundMagnitude (num * Nat.pow 10 exponent) 1⟩

/-- The natural number that a double is, if it is one. Both zeros are `0`. -/
def toNat? (x : Binary64) : Option Nat :=
  if x.isFinite && (!x.negative || x.isZero) && units x.magnitude % unitsPerOne == 0 then
    some (units x.magnitude / unitsPerOne)
  else none

/-! ### Arithmetic -/

/-- The same double with the other sign. -/
def neg (x : Binary64) : Binary64 := ⟨!x.negative, x.magnitude⟩

/-- The sum. A sum of exactly zero is negative only if both terms are. -/
def add (x y : Binary64) : Binary64 :=
  if x.isNaN || y.isNaN then nan
  else if x.isInfinite then
    if y.isInfinite && x.negative != y.negative then nan else x
  else if y.isInfinite then y
  else
    let total := x.signedUnits + y.signedUnits
    if total = 0 then ⟨x.negative && y.negative, 0⟩
    else ⟨decide (total < 0), roundMagnitude total.natAbs 1⟩

/-- Addition is commutative, to the bit. -/
protected theorem add_comm (x y : Binary64) : x.add y = y.add x := by
  have hnan : (y.isNaN || x.isNaN) = (x.isNaN || y.isNaN) := Bool.or_comm ..
  have htotal : y.signedUnits + x.signedUnits = x.signedUnits + y.signedUnits := Int.add_comm ..
  have hnegative : (y.negative && x.negative) = (x.negative && y.negative) := Bool.and_comm ..
  simp only [add, hnan, htotal, hnegative]
  cases hx : x.isInfinite <;> cases hy : y.isInfinite <;> simp only [↓reduceIte, Bool.true_and,
    Bool.false_and, Bool.false_eq_true, bne_iff_ne]
  by_cases h : x.negative = y.negative
  · rw [if_neg (not_not_intro h), if_neg (not_not_intro h.symm), eq_of_isInfinite hx hy h]
  · rw [if_pos h, if_pos (Ne.symm h)]

/-- The difference: the sum with the other sign. -/
def sub (x y : Binary64) : Binary64 := x.add y.neg

/-- The product. Zero times infinity is not a number. -/
def mul (x y : Binary64) : Binary64 :=
  let negative := x.negative != y.negative
  if x.isNaN || y.isNaN then nan
  else if x.isInfinite || y.isInfinite then
    if x.isZero || y.isZero then nan else ⟨negative, infinite⟩
  else ⟨negative, roundMagnitude (units x.magnitude * units y.magnitude) unitsPerOne⟩

/-- The quotient. Zero by zero and infinity by infinity are not numbers; any other number by zero
is infinite. -/
def div (x y : Binary64) : Binary64 :=
  let negative := x.negative != y.negative
  if x.isNaN || y.isNaN then nan
  else if x.isInfinite then if y.isInfinite then nan else ⟨negative, infinite⟩
  else if y.isInfinite then ⟨negative, 0⟩
  else if y.isZero then if x.isZero then nan else ⟨negative, infinite⟩
  else ⟨negative, roundMagnitude (units x.magnitude * unitsPerOne) (units y.magnitude)⟩

instance : Add Binary64 := ⟨add⟩
instance : Sub Binary64 := ⟨sub⟩
instance : Mul Binary64 := ⟨mul⟩
instance : Div Binary64 := ⟨div⟩
instance : NatCast Binary64 := ⟨fun n => ofInt n⟩
instance : OfScientific Binary64 := ⟨ofDecimal⟩

/-! ### Order -/

/-- The place of a number in the order of all doubles, the two zeros sharing one. -/
def rank (x : Binary64) : Int :=
  if x.negative then -(x.magnitude : Int) else (x.magnitude : Int)

/-- The order of two doubles; none if one of them is a NaN. -/
def compare? (x y : Binary64) : Option Ordering :=
  if x.isNaN || y.isNaN then none else some (compare x.rank y.rank)

/-- Numeric equality: the zeros are equal, and a NaN equals nothing. -/
def equal (x y : Binary64) : Bool := x.compare? y == some .eq

instance : LT Binary64 := ⟨fun x y => x.compare? y = some .lt⟩
instance : LE Binary64 := ⟨fun x y => x.compare? y = some .lt ∨ x.compare? y = some .eq⟩

instance (x y : Binary64) : Decidable (x < y) :=
  inferInstanceAs (Decidable (x.compare? y = some .lt))
instance (x y : Binary64) : Decidable (x ≤ y) :=
  inferInstanceAs (Decidable (x.compare? y = some .lt ∨ x.compare? y = some .eq))

end Binary64

end RecordQuery
