import RecordQuery.Binary64

/-!
# The arithmetic of a score

A similarity score is a short formula in counts. Which arithmetic evaluates it is a separate
question: programs report doubles, and arguments about the formula want exact rationals. `Scale`
names the operations that the formulas use, so that each is written once and read in either.
-/

namespace RecordQuery

/-- A type that scores can be computed and compared in. -/
class Scale (S : Type) extends
    Add S, Sub S, Mul S, Div S, NatCast S, OfScientific S, LT S, LE S where
  /-- Comparing two scores is a test that can be run. -/
  decidableLT (x y : S) : Decidable (x < y)
  /-- Comparing a score with a limit is a test that can be run. -/
  decidableLE (x y : S) : Decidable (x ≤ y)

namespace Scale

instance (priority := low) instDecidableLT {S : Type} [Scale S] (x y : S) : Decidable (x < y) :=
  decidableLT x y

instance (priority := low) instDecidableLE {S : Type} [Scale S] (x y : S) : Decidable (x ≤ y) :=
  decidableLE x y

end Scale

instance : Scale Binary64 where
  decidableLT _ _ := inferInstance
  decidableLE _ _ := inferInstance

instance : Scale Rat where
  decidableLT _ _ := inferInstance
  decidableLE _ _ := inferInstance

end RecordQuery
