import RecordQuery.Binary64
import RecordQuery.Entries

/-!
# JSON values

The data that queries run over. A number is an integer or a double, and the two stay apart:
`1` and `1.0` are different values, although they compare as equal numbers.

The fields of an object are a list of entries. Values that come from outside have them sorted by
key, without repetition; `Value.ofEntries` builds such an object from entries in any order. The
type does not enforce it: statements that need it say so.
-/

namespace RecordQuery

/-- A JSON number. -/
inductive Num
  /-- An integer, exact at any size. -/
  | int (n : Int)
  /-- A double. -/
  | float (x : Binary64)
  deriving DecidableEq

/-- The double nearest to a number. -/
def Num.toBinary64 : Num → Binary64
  | .int n => .ofInt n
  | .float x => x

/-- A JSON value. -/
inductive Value
  | null
  | bool (b : Bool)
  | num (n : Num)
  | str (s : String)
  | arr (items : List Value)
  | obj (fields : List (String × Value))

/-- What sort of JSON value it is. -/
inductive Kind
  | null
  | boolean
  | number
  | string
  | array
  | object
  deriving DecidableEq

/-- The word for a kind in messages. -/
def Kind.name : Kind → String
  | .null => "null"
  | .boolean => "boolean"
  | .number => "number"
  | .string => "string"
  | .array => "array"
  | .object => "object"

namespace Value

instance : Inhabited Value := ⟨.null⟩

/-- The kind of a value. -/
def kind : Value → Kind
  | .null => .null
  | .bool _ => .boolean
  | .num _ => .number
  | .str _ => .string
  | .arr _ => .array
  | .obj _ => .object

/-- Whether the value is `null`. -/
def isNull : Value → Bool
  | .null => true
  | _ => false

@[simp] theorem isNull_iff {v : Value} : v.isNull = true ↔ v = .null := by
  cases v <;> simp [isNull]

/-- An integer value. -/
def int (n : Int) : Value := .num (.int n)

/-- A double as a value. JSON has no spelling for infinities and NaNs, which become `null`. -/
def float (x : Binary64) : Value := if x.isFinite then .num (.float x) else .null

/-- The object with the given entries, sorted by key. -/
def ofEntries (entries : Entries Value) : Value := .obj entries.sorted

/-- The number of a numeric value, as a double. -/
def toBinary64? : Value → Option Binary64
  | .num n => some n.toBinary64
  | _ => none

end Value

end RecordQuery
