/-!
# Sets of characters as ranges

A property of characters is stored as the ranges of code points that have it.
-/

namespace RecordQuery

namespace Text

/-- Ranges of code points, both ends included. -/
abbrev Ranges := List (Nat × Nat)

/-- Whether a character is in one of the ranges. -/
def Ranges.has (ranges : Ranges) (c : Char) : Bool :=
  ranges.any fun (low, high) => low ≤ c.toNat && c.toNat ≤ high

end Text

end RecordQuery
