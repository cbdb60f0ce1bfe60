import RecordQuery.Value

/-!
# Equality, order and truth of values

Three relations that every operation shares.

* `Value.equal` — strict equality. Two numbers are equal if their numeric values are, so `1` equals
  `1.0`; all else is equal only if it is identical, and inside arrays and objects `1` and `1.0`
  are not identical.
* `Value.compare?` — the native order. It relates numbers, strings, booleans, and `null` with
  everything; other pairs have no order.
* `Value.truthy` — `null`, `false`, zeros and the empty string are false.
-/

namespace RecordQuery

namespace Num

/-- Integers below this bound are compared exactly with each other. -/
def exactBound : Int := Nat.pow 2 63

/-- Same representation and same value; the zeros of both signs are the same double. -/
def identical : Num → Num → Bool
  | .int m, .int n => m == n
  | .float x, .float y => x.equal y
  | _, _ => false

/-- Equal numeric value: integers exactly, any other pair as doubles. -/
def equal : Num → Num → Bool
  | .int m, .int n => m == n
  | a, b => a.toBinary64.equal b.toBinary64

/-- The numeric order: two integers below `exactBound` exactly, any other pair as doubles. -/
def compare? : Num → Num → Option Ordering
  | .int m, .int n =>
    if m < exactBound ∧ n < exactBound then some (compare m n)
    else (Binary64.ofInt m).compare? (.ofInt n)
  | a, b => a.toBinary64.compare? b.toBinary64

end Num

namespace Value

/-! ### Equality -/

mutual

/-- The same value, representations of numbers included. -/
def identical : Value → Value → Bool
  | .null, .null => true
  | .bool a, .bool b => a == b
  | .num a, .num b => a.identical b
  | .str a, .str b => a == b
  | .arr as, .arr bs => identicalItems as bs
  | .obj as, .obj bs => identicalFields as bs
  | _, _ => false

/-- Pairwise identical items. -/
def identicalItems : List Value → List Value → Bool
  | [], [] => true
  | a :: as, b :: bs => identical a b && identicalItems as bs
  | _, _ => false

/-- The same keys in the same order, with identical values. -/
def identicalFields : List (String × Value) → List (String × Value) → Bool
  | [], [] => true
  | (k, a) :: as, (l, b) :: bs => k == l && (identical a b && identicalFields as bs)
  | _, _ => false

end

/-- Strict equality: numbers by value, all else identical. -/
def equal : Value → Value → Bool
  | .num a, .num b => a.equal b
  | a, b => identical a b

/-! ### Order -/

/-- The native order of two values, if they have one. `null` comes before everything else. -/
def compare? : Value → Value → Option Ordering
  | .null, .null => some .eq
  | .null, _ => some .lt
  | _, .null => some .gt
  | .num a, .num b => a.compare? b
  | .str a, .str b => some (compare a b)
  | .bool a, .bool b => some (compare a b)
  | _, _ => none

/-- The native order with unordered pairs taken as equal, which is what sorting uses. -/
def nativeOrder (a b : Value) : Ordering := (compare? a b).getD .eq

/-! ### Truth -/

/-- Whether a value counts as true. -/
def truthy : Value → Bool
  | .null => false
  | .bool b => b
  | .num n => !n.toBinary64.isZero
  | .str s => !s.isEmpty
  | .arr _ => true
  | .obj _ => true

end Value

end RecordQuery
