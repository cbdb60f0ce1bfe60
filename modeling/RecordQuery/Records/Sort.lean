import RecordQuery.Records

/-!
# Sorting

Records are sorted by criteria, each comparing one column. The first criterion that tells two
elements apart decides, and elements that no criterion tells apart keep their order.

Columns are read before sorting: every element is paired with the row of its values, read at its
original position, and the pairs are sorted by their rows. A descending criterion flips its
comparison, so that ties keep their order in both directions.

The sorts below return records for every comparison. A stable sort is only specified for one that is
a total preorder on what is sorted; by any other it may return the elements in a different order, or
break off. What holds of every stable sort is told apart from what holds of these in
`RecordQuery.Proofs.Sorting.Contract`.
-/

namespace RecordQuery

/-- The direction of a sort. -/
inductive Direction
  | ascending
  | descending
  deriving DecidableEq

namespace Direction

/-- The name of a direction. -/
def name : Direction → String
  | .ascending => "Asc"
  | .descending => "Desc"

/-- The direction of the given name. -/
def ofName? (name : String) : Option Direction :=
  [ascending, descending].find? (·.name == name)

/-- The direction as a value: its name. -/
def toValue (direction : Direction) : Value := .str direction.name

/-- The direction that a value describes: its name, or an object whose only field has that name and
holds `null`. -/
def ofValue? : Value → Option Direction
  | .str name => ofName? name
  | .obj [(name, .null)] => ofName? name
  | _ => none

@[simp] theorem ofValue?_toValue (direction : Direction) :
    ofValue? direction.toValue = some direction := by
  cases direction <;> decide

/-- A comparison in this direction. -/
def apply : Direction → Ordering → Ordering
  | .ascending, ordering => ordering
  | .descending, ordering => ordering.swap

end Direction

/-- What a sort compares: a column, by a comparison, in a direction. -/
structure Criterion where
  /-- The column to compare. -/
  column : Column
  /-- How to compare its values. Without a comparison of its own, a criterion uses the native
  order. -/
  comparison : Option (Value → Value → Ordering)
  /-- The direction. -/
  direction : Direction

namespace Criterion

/-- Compares a column in the native order. -/
def on (column : Column) (direction : Direction) : Criterion := ⟨column, none, direction⟩

/-- How the criterion orders two values of its column. -/
def compare (criterion : Criterion) (a b : Value) : Ordering :=
  criterion.direction.apply ((criterion.comparison.getD Value.nativeOrder) a b)

/-- How criteria order two rows of values: by the first criterion that tells them apart. -/
def compareRows : List Criterion → List Value → List Value → Ordering
  | criterion :: rest, a :: as, b :: bs => (criterion.compare a b).then (compareRows rest as bs)
  | _, _, _ => .eq

end Criterion

namespace Records

/-- The elements sorted by a comparison. Elements that compare as equal keep their order. Only by a
total preorder are they specified. -/
def sortWith (records : Records) (comparison : Value → Value → Ordering) : Records :=
  ⟨records.toList.mergeSort fun a b => (comparison a b).isLE⟩

/-- The elements sorted in the native order, which is no total preorder on values of mixed kinds. -/
def sort (records : Records) : Records := records.sortWith Value.nativeOrder

/-- The values of each element in a row, for several columns of values. -/
def rows (size : Nat) (columns : List (List Value)) : List (List Value) :=
  columns.foldr (List.zipWith List.cons) (List.replicate size [])

/-- The elements sorted by criteria. Without criteria the elements are compared themselves. -/
def sortOn (records : Records) (criteria : List Criterion) : Except QueryError Records :=
  if criteria.isEmpty then .ok records.sort
  else do
    let columns ← criteria.mapM fun criterion => records.column criterion.column
    let pairs := (rows records.size columns).zip records.toList
    let sorted := pairs.mergeSort fun a b => (Criterion.compareRows criteria a.1 b.1).isLE
    return ⟨sorted.map Prod.snd⟩

end Records

end RecordQuery
