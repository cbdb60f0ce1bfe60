import RecordQuery.Fuzzy
import RecordQuery.Value

/-!
# Settings of fuzzy matching, by name

Options can be changed one setting at a time, by name and JSON value. Changing is lenient: an
unknown name, or a value that the setting cannot take, changes nothing. A length may be given as a
double if that is a natural number.

Reading all options at once is strict: a field that is there must have its exact type. Fields that
are missing have their standard values, and fields that are not known are ignored.
-/

namespace RecordQuery

namespace Fuzzy

/-- The settings that options consist of. -/
inductive Setting
  | ignoreCase
  | minLength
  | limit
  deriving DecidableEq

namespace Setting

/-- The settings, in the order in which an array lists them. -/
def all : List Setting := [.ignoreCase, .minLength, .limit]

/-- The name of a setting. -/
def name : Setting → String
  | .ignoreCase => "ignoreCase"
  | .minLength => "minLength"
  | .limit => "fuzzyLimit"

/-- The setting of the given name. -/
def ofName? (name : String) : Option Setting := all.find? (·.name == name)

end Setting

/-- The largest length that can be set: larger ones become this one. -/
def lengthLimit : Nat := Nat.pow 2 64 - 1

/-- The natural number that a JSON number is, if it is one: at most `lengthLimit`. -/
def length? : Num → Option Nat
  | .int n => if 0 ≤ n then some (min n.toNat lengthLimit) else none
  | .float x => x.toNat?.map (min · lengthLimit)

namespace Options

/-! ### Changing -/

/-- The options with one setting changed, if the setting can take the value. -/
def change? (options : Options Binary64) : Setting → Value → Option (Options Binary64)
  | .ignoreCase, .bool b => some { options with ignoreCase := b }
  | .minLength, .num n => (length? n).map fun length => { options with minLength := length }
  | .limit, .num n => some { options with limit := n.toBinary64 }
  | _, _ => none

/-- The options with the setting of that name changed, if there is one and it can take the value;
else the same options. -/
def set (options : Options Binary64) (name : String) (value : Value) : Options Binary64 :=
  ((Setting.ofName? name).bind (options.change? · value)).getD options

/-- The options with the settings in the fields of an object changed. -/
def configure (options : Options Binary64) : Value → Options Binary64
  | .obj fields => fields.foldl (fun options (name, value) => options.set name value) options
  | _ => options

/-! ### Showing -/

/-- The JSON value of a setting. -/
def value (options : Options Binary64) : Setting → Value
  | .ignoreCase => .bool options.ignoreCase
  | .minLength => .int options.minLength
  | .limit => .float options.limit

/-- The JSON value of the setting of that name. -/
def get? (options : Options Binary64) (name : String) : Option Value :=
  (Setting.ofName? name).map options.value

/-- The options as an object. -/
def toValue (options : Options Binary64) : Value :=
  .ofEntries (Setting.all.map fun setting => (setting.name, options.value setting))

/-! ### Reading -/

/-- The options with one setting read from a value of exactly its type. -/
def read? (options : Options Binary64) : Setting → Value → Option (Options Binary64)
  | .ignoreCase, .bool b => some { options with ignoreCase := b }
  | .minLength, .num (.int n) =>
    if 0 ≤ n ∧ n ≤ lengthLimit then some { options with minLength := n.toNat } else none
  | .limit, .num n => some { options with limit := n.toBinary64 }
  | _, _ => none

/-- The options that an object or an array of settings describes. An array may leave out settings at
its end, and may not have more items than there are settings. -/
def ofValue? : Value → Option (Options Binary64)
  | .obj fields =>
    Setting.all.foldlM (fun options setting =>
      match fields.lookup setting.name with
      | none => some options
      | some value => options.read? setting value) .standard
  | .arr items =>
    if items.length ≤ Setting.all.length then
      (Setting.all.zip items).foldlM (fun options (setting, value) => options.read? setting value)
        .standard
    else none
  | _ => none

end Options

namespace Outcome

/-- An outcome as an object. -/
def toValue (outcome : Outcome Binary64) : Value :=
  .ofEntries [("match", .float outcome.score),
    ("matches", .arr [.str outcome.needle, .str outcome.haystack])]

/-- The outcome with the given score and pair of texts. -/
def ofParts? : Value → Value → Option (Outcome Binary64)
  | .num score, .arr [.str needle, .str haystack] => some ⟨score.toBinary64, needle, haystack⟩
  | _, _ => none

/-- The outcome that an object with both fields, or an array of two, describes. -/
def ofValue? : Value → Option (Outcome Binary64)
  | .obj fields => do ofParts? (← fields.lookup "match") (← fields.lookup "matches")
  | .arr [score, texts] => ofParts? score texts
  | _ => none

end Outcome

end Fuzzy

end RecordQuery
