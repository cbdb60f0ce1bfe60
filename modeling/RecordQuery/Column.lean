import RecordQuery.DotPath

/-!
# Columns

A column says what to look at in each element: the element itself, the node at a dot path, or the
result of a function of the element and its position. A node that is not there reads as `null`. Only
a path can fail.
-/

namespace RecordQuery

/-- What to look at in an element. -/
inductive Column
  /-- The element itself. -/
  | itself
  /-- The node at a path. -/
  | path (path : DotPath)
  /-- The result of a function of the element and its position. -/
  | computed (f : Value → Nat → Value)

namespace Column

/-- The column at a dotted path. -/
def dotted (text : String) : Column := .path ⟨text⟩

/-- Whether the column returns every element as it is. -/
def isIdentity : Column → Bool
  | .itself => true
  | .path p => p.isIdentity
  | .computed _ => false

/-- The value of the column in the element at a position. -/
def read (column : Column) (element : Value) (position : Nat) : Except QueryError Value :=
  match column with
  | .itself => .ok element
  | .path p => return (← p.resolve element).getD .null
  | .computed f => .ok (f element position)

/-- The values of several columns in one element; the first failure is the outcome. -/
def readAll (columns : List Column) (element : Value) (position : Nat) :
    Except QueryError (List Value) :=
  columns.mapM (·.read element position)

end Column

end RecordQuery
