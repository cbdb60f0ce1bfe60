import RecordQuery.Predicate.Condition
import RecordQuery.Value.Key

/-!
# Records

An ordered sequence of JSON values, and the operations that query it. Every operation leaves the
records as they are and returns new ones or a single result.

Operations with a condition run in the condition's monad. Operations on a column have no effects and
fail at the first element in which the column cannot be read. Positions count from zero in the
records that the operation is applied to.

## Main definitions

* `Records.filter`, `find?`, `unique?`, `any`, `all`, `count` — by condition
* `Records.column` — the values of a column, on which the operations ending in `On` stand
* `Records.mapOn`, `flatMapOn`, `foldlOn`, `sumOn`, `meanOn` — by column
* `Records.append` — by batches
-/

namespace RecordQuery

/-- An ordered sequence of JSON values. -/
structure Records where
  /-- The elements. -/
  toList : List Value

namespace Records

variable {m : Type → Type} [Monad m]

/-- The records that an array holds. -/
def ofValue : Value → Except QueryError Records
  | .arr items => .ok ⟨items⟩
  | other => .error (.badShape (.notAnArray other.kind))

/-- The records as an array. -/
def toValue (records : Records) : Value := .arr records.toList

@[simp] theorem ofValue_toValue (records : Records) : ofValue records.toValue = .ok records := rfl

/-- The number of elements. -/
def size (records : Records) : Nat := records.toList.length

/-- Whether there are no elements. -/
def isEmpty (records : Records) : Bool := records.toList.isEmpty

/-- The elements with their positions. -/
def indexed (records : Records) : List (Value × Nat) := records.toList.zipIdx

theorem map_fst_indexed (records : Records) : records.indexed.map Prod.fst = records.toList :=
  List.zipIdx_map_fst 0 _

/-! ### By condition -/

/-- The elements that satisfy the condition, in order. -/
def filter (records : Records) (condition : Condition m) : Query m Records :=
  return ⟨← condition.predicate.select records.toList⟩

/-- The first element that satisfies the condition. Later elements are not tested. -/
def find? (records : Records) (condition : Condition m) : Query m (Option Value) := do
  let found ← records.indexed.findM? fun (value, position) =>
    condition.predicate.test value position
  return found.map Prod.fst

/-- The only element that satisfies the condition. All elements are tested, and more than one is an
error. -/
def unique? (records : Records) (condition : Condition m) : Query m (Option Value) := do
  match ← condition.predicate.select records.toList with
  | [] => return none
  | [only] => return some only
  | several => throw (.notUnique several.length)

/-- The number of elements that satisfy the condition. -/
def count (records : Records) (condition : Condition m) : Query m Nat :=
  return (← condition.predicate.select records.toList).length

/-- Whether some element satisfies the condition. Later elements are not tested. -/
def any (records : Records) (condition : Condition m) : Query m Bool :=
  return (← records.find? condition).isSome

/-- Whether all elements satisfy the condition. Testing stops at the first that does not. -/
def all (records : Records) (condition : Condition m) : Query m Bool :=
  records.indexed.allM fun (value, position) => condition.predicate.test value position

/-! ### By column -/

/-- The values of a column, in order. -/
def column (records : Records) (c : Column) : Except QueryError (List Value) :=
  records.indexed.mapM fun (value, position) => c.read value position

/-- The values of a column in place of the elements. -/
def mapOn (records : Records) (c : Column) : Except QueryError Records :=
  return ⟨← records.column c⟩

/-- The items of an array; any other value by itself. -/
def spread : Value → List Value
  | .arr items => items
  | other => [other]

/-- The values of a column, the items of arrays taking the place of the array. -/
def flatMapOn (records : Records) (c : Column) : Except QueryError Records :=
  return ⟨(← records.column c).flatMap spread⟩

/-- The lists that a function of element and position returns, one after the other. -/
def flatMap (records : Records) (f : Value → Nat → List Value) : Records :=
  ⟨records.indexed.flatMap fun (value, position) => f value position⟩

/-- Folds the elements from the left. -/
def foldl {β : Type} (records : Records) (step : β → Value → β) (initial : β) : β :=
  records.toList.foldl step initial

/-- Folds the values of a column from the left. -/
def foldlOn {β : Type} (records : Records) (c : Column) (step : β → Value → β) (initial : β) :
    Except QueryError β :=
  return (← records.column c).foldl step initial

/-- Runs an action on every element and its position. -/
def forEach (records : Records) (action : Value → Nat → m Unit) : m Unit :=
  records.indexed.forM fun (value, position) => action value position

/-- Runs an action on every value of a column and its position, up to the first failure. -/
def forEachOn (records : Records) (c : Column) (action : Value → Nat → m Unit) : Query m Unit :=
  records.indexed.forM fun (value, position) => do
    ExceptT.lift (action (← Query.ofExcept (c.read value position)) position)

/-! ### Sums -/

/-- The sum of the numbers among some values, added up from the left as doubles. -/
def total (values : List Value) : Binary64 :=
  (values.filterMap Value.toBinary64?).foldl (· + ·) Binary64.negZero

/-- The sum of the numeric elements. -/
def sum (records : Records) : Binary64 := total records.toList

/-- The sum of the numeric values of a column. -/
def sumOn (records : Records) (c : Column) : Except QueryError Binary64 :=
  return total (← records.column c)

/-- The sum divided by the number of all elements; not a number if there are none. -/
def mean (records : Records) : Binary64 := records.sum / (records.size : Binary64)

/-- The sum of a column divided by the number of all elements. -/
def meanOn (records : Records) (c : Column) : Except QueryError Binary64 :=
  return (← records.sumOn c) / (records.size : Binary64)

/-! ### Rearranging -/

/-- The elements in reverse order. -/
def reverse (records : Records) : Records := ⟨records.toList.reverse⟩

/-- Something to append: elements one by one, or a value as one element. -/
inductive Batch
  | many (values : List Value)
  | single (element : Value)

/-- The batch that a value stands for: the items of an array, or the value itself. -/
def Batch.ofValue : Value → Batch
  | .arr items => .many items
  | other => .single other

/-- The elements of a batch. -/
def Batch.toList : Batch → List Value
  | .many values => values
  | .single element => [element]

/-- The elements followed by those of the batches, in order. -/
def append (records : Records) (batches : List Batch) : Records :=
  ⟨records.toList ++ batches.flatMap Batch.toList⟩

end Records

end RecordQuery
