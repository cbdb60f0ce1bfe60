import RecordQuery.Column
import RecordQuery.Value.Compare

/-!
# Predicates

A predicate on a value and its position. It may fail, and it may have effects: it runs in a monad
`m` with query errors on top. Nothing here looks inside `m`, so two predicates that agree in every
monad make the same calls in the same order. Predicates without effects are the case `m = Id`.

## Main definitions

* `Predicate.test`, `Predicate.select` — on one value, and over a list
* `Predicate.on` — the same predicate, asked of a column
* `Predicate.eq`, `gt`, … — comparison with a fixed reference
* `Predicate.all`, `Predicate.one` — over the items of an array, stopping at the deciding one
* `Predicate.allOf`, `Predicate.oneOf` — over several columns
-/

namespace RecordQuery

/-- A computation that may fail with a query error and has the effects of `m`. -/
abbrev Query (m : Type → Type) (α : Type) := ExceptT QueryError m α

/-- An outcome without effects, as a computation. -/
def Query.ofExcept {m : Type → Type} [Monad m] {α : Type} (outcome : Except QueryError α) :
    Query m α :=
  ExceptT.mk (pure outcome)

@[simp] theorem Query.ofExcept_ok {m : Type → Type} [Monad m] {α : Type} (a : α) :
    (Query.ofExcept (.ok a) : Query m α) = pure a := rfl

@[simp] theorem Query.ofExcept_error {m : Type → Type} [Monad m] {α : Type} (e : QueryError) :
    (Query.ofExcept (.error e) : Query m α) = throw e := rfl

/-- A predicate on a value and its position. -/
structure Predicate (m : Type → Type) where
  /-- Asks the predicate about a value at a position. -/
  test : Value → Nat → Query m Bool

namespace Predicate

variable {m : Type → Type} [Monad m]

/-- The predicate of a test on values. -/
def ofBool (p : Value → Bool) : Predicate m := ⟨fun value _ => return p value⟩

/-- The predicate of a test on values and positions. -/
def ofIndexed (p : Value → Nat → Bool) : Predicate m :=
  ⟨fun value position => return p value position⟩

/-- The values that satisfy the predicate, in order, when the first one is at position `start`. -/
def selectFrom (predicate : Predicate m) (start : Nat) : List Value → Query m (List Value)
  | [] => return []
  | value :: rest => do
    let holds ← predicate.test value start
    let kept ← selectFrom predicate (start + 1) rest
    return if holds then value :: kept else kept

/-- The values of a list that satisfy the predicate, in order. -/
def select (predicate : Predicate m) (values : List Value) : Query m (List Value) :=
  predicate.selectFrom 0 values

/-- The predicate asked of a column of the value. -/
def on (predicate : Predicate m) (column : Column) : Predicate m :=
  ⟨fun value position => do
    predicate.test (← Query.ofExcept (column.read value position)) position⟩

/-! ### Comparison with a reference -/

/-- The value strictly equals the reference. -/
def eq (reference : Value) : Predicate m := ofBool (·.equal reference)

/-- The value does not strictly equal the reference. -/
def neq (reference : Value) : Predicate m := ofBool (!·.equal reference)

/-- The value comes after the reference in the native order. -/
def gt (reference : Value) : Predicate m := ofBool (·.compare? reference == some .gt)

/-- The value comes before the reference in the native order. -/
def lt (reference : Value) : Predicate m := ofBool (·.compare? reference == some .lt)

/-- The value comes after the reference in the native order, or level with it. -/
def gte (reference : Value) : Predicate m :=
  ofBool fun value => value.compare? reference == some .gt || value.compare? reference == some .eq

/-- The value comes before the reference in the native order, or level with it. -/
def lte (reference : Value) : Predicate m :=
  ofBool fun value => value.compare? reference == some .lt || value.compare? reference == some .eq

/-- The value is `null`. -/
def isNull : Predicate m := ofBool Value.isNull

/-- Holds of every value. -/
def always : Predicate m := ofBool fun _ => true

/-- Holds where the given predicate does not, and fails where it fails. -/
protected def not (predicate : Predicate m) : Predicate m :=
  ⟨fun value position => return !(← predicate.test value position)⟩

/-! ### Quantifiers

Each item is tested at its own position in the list, whatever the position of the element it came
from. Testing stops at the first item that decides. -/

/-- Whether all items satisfy the predicate. -/
def testAll (predicate : Predicate m) (items : List Value) : Query m Bool :=
  items.zipIdx.allM fun (item, position) => predicate.test item position

/-- Whether some item satisfies the predicate. -/
def testOne (predicate : Predicate m) (items : List Value) : Query m Bool :=
  items.zipIdx.anyM fun (item, position) => predicate.test item position

/-- The items of an array; anything else is of the wrong shape. -/
def itemsOf : Value → Except QueryError (List Value)
  | .arr items => .ok items
  | other => .error (.badShape (.notValues other.kind))

/-- Every item of the array satisfies the predicate. -/
def all (predicate : Predicate m) : Predicate m :=
  ⟨fun value _ => do predicate.testAll (← Query.ofExcept (itemsOf value))⟩

/-- Some item of the array satisfies the predicate. -/
def one (predicate : Predicate m) : Predicate m :=
  ⟨fun value _ => do predicate.testOne (← Query.ofExcept (itemsOf value))⟩

/-- The values of all columns satisfy the predicate. All are read before the first test. -/
def allOf (columns : List Column) (predicate : Predicate m) : Predicate m :=
  ⟨fun value position => do
    predicate.testAll (← Query.ofExcept (Column.readAll columns value position))⟩

/-- The value of some column satisfies the predicate. All are read before the first test. -/
def oneOf (columns : List Column) (predicate : Predicate m) : Predicate m :=
  ⟨fun value position => do
    predicate.testOne (← Query.ofExcept (Column.readAll columns value position))⟩

end Predicate

end RecordQuery
