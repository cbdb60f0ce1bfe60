import RecordQuery.Records.Sort
import RecordQuery.Text.Quoted

/-!
# Descriptions

Texts that describe columns and sort criteria to a reader. Functions have no text of their own.
-/

namespace RecordQuery

/-- The description of a column. -/
def Column.describe : Column → String
  | .itself => "Identity"
  | .path p => "Path(" ++ Text.quoted p.text ++ ")"
  | .computed _ => "Func(..)"

/-- The description of a criterion. -/
def Criterion.describe (criterion : Criterion) : String :=
  "SortBy \x7b extractor: " ++ criterion.column.describe
    ++ ", comparator: " ++ (if criterion.comparison.isSome then "Some(\"..\")" else "None")
    ++ ", order: " ++ criterion.direction.name ++ " \x7d"

end RecordQuery
