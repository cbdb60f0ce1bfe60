import RecordQuery.QueryError
import RecordQuery.Text.Numeral
import RecordQuery.Text.Split

/-!
# Dot paths

A dot path addresses a node of a JSON value:

```
user.name       the field name of the field user
base.arr[1]     the item at position 1 of the field arr of the field base
.               the value itself
```

Each step between dots is a field name, or a field name with one bracketed position behind it. On an
array a plain name that is a numeral is a position too.

## Absent and wrong

A node that is not there is no error: following a path stops with `none` at the first step that
finds nothing, or that would go on from `null`. Two things are errors. A step with misplaced
brackets makes the whole path malformed, whatever the value is, because all steps are read before
the first one is taken; and a bracketed position fails on a value that is there and is not an array.

## Main definitions

* `Value.field?` — the plain step: by name into an object, by position into an array
* `Step.parse`, `Step.take` — one step of a path, read and taken
* `DotPath.resolve` — all steps, from left to right
-/

namespace RecordQuery

/-! ### Plain steps -/

/-- The item at a position. A position that is no 64-bit word is past the end of every array. -/
def itemAt? (items : List Value) (position : Nat) : Option Value :=
  if position < Text.positionBound then items[position]? else none

/-- The value of a field by name. An array takes numerals as names. -/
def Value.field? (name : String) : Value → Option Value
  | .obj fields => fields.lookup name
  | .arr items => (Text.position? name.toList).bind (itemAt? items)
  | _ => none

/-! ### Steps -/

/-- One step of a dot path. -/
structure Step where
  /-- The step as written, for error messages. -/
  text : String
  /-- The field to look up. -/
  name : String
  /-- The position to take from the array in that field, if one is given. -/
  index : Option Nat
  deriving DecidableEq

namespace Step

/-- Whether a character opens or closes a position. -/
def isBracket (c : Char) : Bool := c == '[' || c == ']'

/-- Reads a step: a name without brackets, and then nothing or a numeral between brackets. -/
def parse (text : String) : Except QueryError Step :=
  let name := text.toList.takeWhile (!isBracket ·)
  match text.toList.dropWhile (!isBracket ·) with
  | [] => .ok ⟨text, text, none⟩
  | '[' :: inner =>
    let digits := inner.takeWhile Char.isDigit
    if digits ≠ [] ∧ inner.dropWhile Char.isDigit = [']'] then
      .ok ⟨text, String.ofList name, some (Text.digitsValue digits)⟩
    else .error (.malformed text)
  | _ => .error (.malformed text)

/-- The node that one step leads to from a value. -/
def take (step : Step) (value : Value) : Except QueryError (Option Value) :=
  match step.index, value.field? step.name with
  | none, found => .ok found
  | some _, none => .ok none
  | some position, some (.arr items) => .ok (itemAt? items position)
  | some _, some other => .error (.notIndexable step.text other.kind)

/-- The node that several steps lead to, one after the other. -/
def takeAll : List Step → Value → Except QueryError (Option Value)
  | [], value => .ok (some value)
  | step :: rest, value =>
    if value.isNull then .ok none
    else do
      match ← step.take value with
      | none => return none
      | some next => takeAll rest next

end Step

/-! ### Paths -/

/-- A dotted path, as written. -/
structure DotPath where
  /-- The text of the path. -/
  text : String
  deriving DecidableEq

namespace DotPath

/-- Whether the path stands for the value itself. -/
def isIdentity (path : DotPath) : Bool := path.text == "."

/-- The steps of a path; the first malformed one is the error. -/
def steps (path : DotPath) : Except QueryError (List Step) :=
  (Text.split '.' path.text.toList).mapM fun piece => Step.parse (String.ofList piece)

/-- The node that a path leads to from a value. -/
def resolve (path : DotPath) (value : Value) : Except QueryError (Option Value) :=
  if path.isIdentity then .ok (some value)
  else do Step.takeAll (← path.steps) value

end DotPath

namespace Value

/-- The node at a dotted path. -/
def deep? (value : Value) (path : String) : Except QueryError (Option Value) :=
  (DotPath.mk path).resolve value

/-- The node that a single step leads to: dots in it are part of the name. -/
def shallow? (value : Value) (step : String) : Except QueryError (Option Value) := do
  (← Step.parse step).take value

end Value

end RecordQuery
