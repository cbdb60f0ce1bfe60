import RecordQuery.Value

/-!
# What can go wrong in a query

Sparse data never fails: a missing field, a position past the end and an empty sequence have
values of their own. Only four things are errors, and `QueryError.message` gives each its text.
-/

namespace RecordQuery

/-- Why a value does not have the shape that was asked for. -/
inductive ShapeError
  /-- Records were to be built from something other than an array. -/
  | notAnArray (found : Kind)
  /-- A grouping was to be built from something other than an object. -/
  | notAnObject (found : Kind)
  /-- An entry of a grouping is neither a leaf (an array) nor a grouping (an object). -/
  | badEntry (key : String) (found : Kind)
  /-- A quantifier was to run over something other than an array. -/
  | notValues (found : Kind)
  deriving DecidableEq

/-- Why a query failed. -/
inductive QueryError
  /-- A value of the wrong shape. -/
  | badShape (cause : ShapeError)
  /-- A step of a path whose brackets are not one trailing position. -/
  | malformed (step : String)
  /-- A position asked of a value that is there but is not an array. -/
  | notIndexable (step : String) (found : Kind)
  /-- More than one element where at most one was expected. -/
  | notUnique (count : Nat)
  deriving DecidableEq

/-- The shape that was asked for and the kind that was found, in words. -/
def ShapeError.reason : ShapeError → String
  | .notAnArray found => "expected array to be passed into constructor, found " ++ found.name
  | .notAnObject found => "expected object to be passed into constructor, found " ++ found.name
  | .badEntry key found =>
    "group entry '" ++ key ++ "' must be an array or object, found " ++ found.name
  | .notValues found => "expected array of values, found " ++ found.name

/-- The text of an error. -/
def QueryError.message : QueryError → String
  | .badShape cause => "Construction error: " ++ cause.reason
  | .malformed step => "Malformatted key: " ++ step
  | .notIndexable step found =>
    "Cannot access array element of " ++ found.name ++ " (key '" ++ step ++ "')"
  | .notUnique count => "Expected at most one match, found " ++ count.repr

end RecordQuery
