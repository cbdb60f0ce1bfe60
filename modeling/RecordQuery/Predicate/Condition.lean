import RecordQuery.Predicate

/-!
# Conditions

The shapes in which a condition on an element can be stated: a predicate, a literal, a requirement
on one or several columns, or a requirement per field. `Condition.predicate` turns each into the one
predicate that queries run.

A requirement is a predicate or a literal. On several columns the two behave differently: a
predicate receives all values as one array, while a literal is compared with one value after the
other, stopping at the first that differs.
-/

namespace RecordQuery

variable {m : Type → Type}

/-- What is required of a value. -/
inductive Requirement (m : Type → Type)
  /-- It satisfies a predicate. -/
  | satisfies (predicate : Predicate m)
  /-- It strictly equals a literal. -/
  | equals (expected : Value)

/-- A condition on an element. -/
inductive Condition (m : Type → Type)
  /-- The element satisfies a predicate. -/
  | satisfies (predicate : Predicate m)
  /-- The element strictly equals a literal. -/
  | equals (expected : Value)
  /-- One column meets a requirement. -/
  | column (column : Column) (requirement : Requirement m)
  /-- Several columns meet a requirement. -/
  | columns (columns : List Column) (requirement : Requirement m)
  /-- The nodes at several paths meet a requirement each. -/
  | fields (specification : List (DotPath × Requirement m))

variable [Monad m]

/-- Whether a value at a position meets the requirement. -/
def Requirement.meets (requirement : Requirement m) (value : Value) (position : Nat) :
    Query m Bool :=
  match requirement with
  | .satisfies predicate => predicate.test value position
  | .equals expected => return value.equal expected

namespace Condition

/-- Whether all columns equal the literal; reading stops at the first that differs. -/
def testEqual (columns : List Column) (expected value : Value) (position : Nat) : Query m Bool :=
  columns.allM fun column =>
    return (← Query.ofExcept (column.read value position)).equal expected

/-- Whether the nodes at all paths meet their requirements, a node that is not there counting as
`null`; testing stops at the first that does not. -/
def testFields (specification : List (DotPath × Requirement m)) (value : Value) (position : Nat) :
    Query m Bool :=
  specification.allM fun (path, requirement) => do
    requirement.meets ((← Query.ofExcept (path.resolve value)).getD .null) position

/-- The predicate that a condition states. -/
def predicate : Condition m → Predicate m
  | .satisfies p => p
  | .equals expected => .ofBool (·.equal expected)
  | .column c requirement =>
    ⟨fun value position => do
      requirement.meets (← Query.ofExcept (c.read value position)) position⟩
  | .columns cs (.satisfies p) =>
    ⟨fun value position => do
      p.test (.arr (← Query.ofExcept (Column.readAll cs value position))) position⟩
  | .columns cs (.equals expected) => ⟨testEqual cs expected⟩
  | .fields specification => ⟨testFields specification⟩

omit [Monad m] in
/-- The condition that a value stands for: an object asks for each of its fields at the path that
its key spells, any other value for equality with itself. -/
def ofValue : Value → Condition m
  | .obj entries => .fields (entries.map fun (key, expected) => (⟨key⟩, .equals expected))
  | other => .equals other

end Condition

namespace Predicate

/-- All conditions hold. Testing stops at the first one that does not. -/
protected def and (conditions : List (Condition m)) : Predicate m :=
  ⟨fun value position => conditions.allM fun condition => condition.predicate.test value position⟩

/-- Some condition holds. Testing stops at the first one that does. -/
protected def or (conditions : List (Condition m)) : Predicate m :=
  ⟨fun value position => conditions.anyM fun condition => condition.predicate.test value position⟩

end Predicate

end RecordQuery
