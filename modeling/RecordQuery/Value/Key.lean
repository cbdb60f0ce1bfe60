import RecordQuery.Binary64.Decimal
import RecordQuery.Value

/-!
# The key text of a value

Grouping, maps, deduplication and intersection identify values by a text. Strings stand for
themselves and numbers for their shortest decimal, so `17` and `17.0` share the key `17`. An array
is its items' texts between commas, a `null` item being empty; all objects share one text.
-/

namespace RecordQuery

/-- The decimal text of a number. -/
def Num.text : Num → String
  | .int (.ofNat n) => n.repr
  | .int (.negSucc n) => "-" ++ (n + 1).repr
  | .float x => x.text

namespace Value

mutual

/-- The text that identifies a value. -/
def keyText : Value → String
  | .null => "null"
  | .bool true => "true"
  | .bool false => "false"
  | .num n => n.text
  | .str s => s
  | .arr items => ",".intercalate (itemTexts items)
  | .obj _ => "[object Object]"

/-- The texts of an array's items. -/
def itemTexts : List Value → List String
  | [] => []
  | .null :: rest => "" :: itemTexts rest
  | item :: rest => keyText item :: itemTexts rest

end

end Value

end RecordQuery
