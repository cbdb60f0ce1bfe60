import RecordQuery.Predicate.Condition
import RecordQuery.Proofs.Reading

/-!
# One condition in several shapes

The shapes of conditions overlap. A requirement per field could be stated as a conjunction of
requirements on columns, a literal for several columns as a conjunction as well, and a quantifier
over the values of several columns as a predicate on their array. This file says that these are the
same predicates. They are equal in every monad, so they do not only say the same: they ask the same
predicates about the same values in the same order, and stop at the same place.

## Reading first, or reading as one goes

What several columns are to be can be tested in two orders. A quantifier reads all columns and then
tests the values. A literal is compared with one value after the other, and columns behind the first
that differs are not read. If all columns can be read, nobody sees the difference. If one cannot,
the quantifier fails, while the comparison fails only if it comes that far: `testEqual_append` says
how far it comes.

## What is the same and what is not

A requirement per field reads a path and takes a node that is not there for `null`. So does a column
at that path. This is why the two agree on every value, also where the path is malformed, and why
they agree in what they ask (`Condition.test_path`).

An array of values is tested item by item at the positions of the items. When the values of several
columns are put into an array, their positions are those of the columns and not that of the element.
Predicates that look at positions can tell, and the shapes agree for them too, since a quantifier in
the condition and one in the predicate both number the columns.

## Implementation notes

Equations are between queries in an arbitrary lawful monad. A monad that records questions is one of
them: `Recorded` is used where it is worth showing which questions are asked.

Loops over lists of different things are compared by writing both as `List.allM` and mapping what
they run over (`allM_map`), so that what remains is an equation about one field or column. The only
induction on columns is that of `Condition.testEqual_append`, which follows the comparison past
those that can be read.

## Main results

* `Condition.test_path` — a requirement on a path is a requirement on the column at it
* `Condition.testEqual_append` — comparing several columns with a literal, up to any of them
* `Condition.fields_eq_and` — requirements per field are a conjunction
* `Condition.columns_agree` — the ways of stating a requirement on several columns
-/

namespace RecordQuery

variable {m : Type → Type} [Monad m]

/-- Queries that record which values, and at which positions, predicates are asked about. -/
abbrev Recorded := StateM (List (Value × Nat))

/-- Gives one answer to every question, and records the question. -/
def Predicate.recorded (answer : Bool) : Predicate Recorded :=
  ⟨fun value position => do
    modify (· ++ [(value, position)])
    return answer⟩

theorem allM_map {α β : Type} (f : α → β) (p : β → m Bool) (xs : List α) :
    (xs.map f).allM p = xs.allM fun x => p (f x) := by
  induction xs with
  | nil => rfl
  | cons x xs ih => rw [List.map_cons, List.allM_cons, List.allM_cons, ih]

theorem anyM_map {α β : Type} (f : α → β) (p : β → m Bool) (xs : List α) :
    (xs.map f).anyM p = xs.anyM fun x => p (f x) := by
  induction xs with
  | nil => rfl
  | cons x xs ih => rw [List.map_cons, List.anyM_cons, List.anyM_cons, ih]

/-- Several columns cannot be read if one cannot; those before it can. -/
theorem Column.readAll_eq_error_iff {columns : List Column} {value : Value} {position : Nat}
    {e : QueryError} :
    readAll columns value position = .error e
      ↔ ∃ before c after values, columns = before ++ c :: after
        ∧ readAll before value position = .ok values ∧ c.read value position = .error e := by
  rw [readAll, mapM_eq_error_iff]
  constructor
  · rintro ⟨before, c, after, hsplit, hbefore, hc⟩
    obtain ⟨values, hvalues⟩ := exists_mapM_eq_ok_iff.mpr hbefore
    exact ⟨before, c, after, values, hsplit, hvalues, hc⟩
  · rintro ⟨before, c, after, values, hsplit, hvalues, hc⟩
    exact ⟨before, c, after, hsplit, exists_mapM_eq_ok_iff.mp ⟨values, hvalues⟩, hc⟩

namespace Condition

variable {value : Value} {position : Nat}

theorem testEqual_eq_allM (columns : List Column) (expected : Value) :
    (testEqual columns expected value position : Query m Bool)
      = (columns.map fun c => column c (.equals expected)).allM
        fun c => c.predicate.test value position := by
  rw [allM_map]
  rfl

end Condition

variable [LawfulMonad m]

/-- Two steps without effects may be run one by one. -/
theorem Query.ofExcept_bind {α β : Type} (x : Except QueryError α)
    (f : α → Except QueryError β) :
    (Query.ofExcept (x >>= f) : Query m β)
      = Query.ofExcept x >>= fun a => Query.ofExcept (f a) := by
  cases x with
  | error e =>
    show (throw e : Query m β) = throw e >>= fun a => Query.ofExcept (f a)
    simp
  | ok a =>
    rw [Query.ofExcept_ok, pure_bind]
    rfl

theorem Predicate.testAll_eq (expected : Value) (items : List Value) :
    (Predicate.testAll (.eq expected) items : Query m Bool)
      = pure (items.all (·.equal expected)) := by
  have hfst : items.zipIdx.map Prod.fst = items := List.zipIdx_map_fst 0 _
  show items.zipIdx.allM (fun item => (pure (item.1.equal expected) : Query m Bool)) = _
  rw [List.allM_pure]
  conv_rhs => rw [← hfst, List.all_map]
  rfl

namespace Condition

variable {value : Value} {position : Nat}

/-! ### Fields -/

/-- **A requirement on a path is a requirement on the column at it**, whether the path is malformed,
leads to nothing or leads to a node. -/
theorem test_path (path : DotPath) (requirement : Requirement m) :
    (column (.path path) requirement).predicate.test value position
      = Query.ofExcept (path.resolve value) >>= fun found =>
        requirement.meets (found.getD .null) position := by
  show (Query.ofExcept (path.resolve value >>= fun found => pure (found.getD .null)) >>=
    fun found => requirement.meets found position) = _
  rw [Query.ofExcept_bind, bind_assoc]
  exact bind_congr fun found => pure_bind (found.getD Value.null) _

theorem testFields_eq_allM (specification : List (DotPath × Requirement m)) :
    testFields specification value position
      = (specification.map fun (path, requirement) => column (.path path) requirement).allM
        fun c => c.predicate.test value position := by
  rw [allM_map]
  exact congrArg (specification.allM ·) (funext fun field => (test_path field.1 field.2).symm)

/-- **Requirements per field are a conjunction** of requirements on the columns at their paths, made
and given up in the same order. So an object, as a condition, is the conjunction of its fields. -/
theorem fields_eq_and (specification : List (DotPath × Requirement m))
    (entries : Entries Value) (value : Value) (position : Nat) :
    (fields specification).predicate.test value position
        = (Predicate.and (specification.map fun (path, requirement) =>
          column (.path path) requirement)).test value position
      ∧ (ofValue (.obj entries) : Condition m).predicate.test value position
        = (Predicate.and (entries.map fun (key, expected) =>
          column (.dotted key) (.equals expected))).test value position := by
  refine ⟨testFields_eq_allM specification, ?_⟩
  show testFields (entries.map fun (key, expected) => (⟨key⟩, .equals expected)) value position = _
  rw [testFields_eq_allM, List.map_map]
  rfl

/-- Fields of both kinds and a malformed path: in either shape the first predicate is asked, and the
last one is not. -/
theorem fields_eq_and_malformed_path :
    let specification : List (DotPath × Requirement Recorded) :=
      [(⟨"a"⟩, .satisfies (.recorded true)), (⟨"b.c"⟩, .equals .null), (⟨"d[0"⟩, .equals (.int 1)),
        (⟨"a"⟩, .satisfies (.recorded false))]
    let entries : Entries Value := [("a", .int 5), ("d", .arr [.int 1])]
    let element : Value := .obj entries
    let failed : Except QueryError Bool × List (Value × Nat) :=
      (.error (.malformed "d[0"), [(.int 5, 3)])
    ((fields specification).predicate.test element 3).run [] = failed
      ∧ ((Predicate.and (specification.map fun (path, requirement) =>
          column (.path path) requirement)).test element 3).run [] = failed
      ∧ ((ofValue element : Condition Recorded).predicate.test element 3).run [] = (.ok true, [])
      ∧ ((Predicate.and (entries.map fun (key, expected) =>
          (column (.dotted key) (.equals expected) : Condition Recorded))).test element 3).run []
        = (.ok true, []) := by
  intro specification entries element failed
  obtain ⟨hfields, hobject⟩ := fields_eq_and specification entries element 3
  have hfailed : ((fields specification).predicate.test element 3).run [] = failed := rfl
  have hpassed : ((ofValue element : Condition Recorded).predicate.test element 3).run []
      = (.ok true, []) := rfl
  exact ⟨hfailed, hfields ▸ hfailed, hpassed, hobject ▸ hpassed⟩

/-! ### Several columns -/

/-- **Comparing several columns with a literal goes past the columns that can be read and are equal
to it**, and is decided by the first that is not. -/
theorem testEqual_append {before : List Column} {values : List Value}
    (h : Column.readAll before value position = .ok values) (after : List Column)
    (expected : Value) :
    (testEqual (before ++ after) expected value position : Query m Bool)
      = if values.all (·.equal expected) then testEqual after expected value position
        else pure false := by
  rw [Column.readAll, mapM_eq_ok_iff] at h
  induction h with
  | nil => rfl
  | @cons c found before values hc _ ih =>
    have hfirst : (Query.ofExcept (c.read value position) >>= fun found =>
        pure (found.equal expected) : Query m Bool) = pure (found.equal expected) := by
      rw [hc, Query.ofExcept_ok, pure_bind]
    rw [testEqual] at ih ⊢
    rw [List.cons_append, List.allM_cons, ih, hfirst, pure_bind, List.all_cons]
    cases found.equal expected <;> rfl

/-- A predicate on the values of several columns, as an array, gets these values. -/
theorem test_columns_bind_itemsOf (columns : List Column) (test : List Value → Query m Bool) :
    (Query.ofExcept (Column.readAll columns value position) >>= fun values =>
        Query.ofExcept (Predicate.itemsOf (.arr values)) >>= test)
      = Query.ofExcept (Column.readAll columns value position) >>= test :=
  bind_congr fun values => pure_bind values test

/-- **The ways of stating a requirement on several columns agree.** A quantifier may stand in the
condition or in the predicate. A literal makes a conjunction of columns. Where all columns can be
read, that is the quantified equality; where one cannot, the quantified equality fails, and the
conjunction does so unless a column before it differs. -/
theorem columns_agree (columns : List Column) (predicate : Predicate m) (expected value : Value)
    (position : Nat) :
    (Condition.columns columns (.satisfies predicate.all)).predicate.test value position
        = (Predicate.allOf columns predicate).test value position
      ∧ (Condition.columns columns (.satisfies predicate.one)).predicate.test value position
        = (Predicate.oneOf columns predicate).test value position
      ∧ (Condition.columns columns (.equals expected) : Condition m).predicate.test value position
        = (Predicate.and (columns.map fun c => column c (.equals expected))).test value position
      ∧ (∀ values, Column.readAll columns value position = .ok values →
        (Condition.columns columns (.equals expected) : Condition m).predicate.test value position
          = (Predicate.allOf columns (.eq expected)).test value position)
      ∧ ∀ e, Column.readAll columns value position = .error e →
        (Predicate.allOf columns (.eq expected) : Predicate m).test value position = throw e
        ∧ ∃ before c after values, columns = before ++ c :: after
          ∧ Column.readAll before value position = .ok values ∧ c.read value position = .error e
          ∧ (Condition.columns columns (.equals expected) : Condition m).predicate.test
              value position
            = if values.all (·.equal expected) then throw e else pure false := by
  have hall : (Predicate.allOf columns (.eq expected) : Predicate m).test value position
      = Query.ofExcept (Column.readAll columns value position) >>= fun values =>
        pure (values.all (·.equal expected)) :=
    bind_congr fun values => Predicate.testAll_eq expected values
  refine ⟨test_columns_bind_itemsOf columns _, test_columns_bind_itemsOf columns _,
    testEqual_eq_allM columns expected, fun values hvalues => ?_, fun e he => ⟨?_, ?_⟩⟩
  · have htest := testEqual_append (m := m) hvalues [] expected
    rw [List.append_nil] at htest
    rw [hall, hvalues, Query.ofExcept_ok, pure_bind]
    refine htest.trans ?_
    cases values.all (·.equal expected) <;> rfl
  · rw [hall, he, Query.ofExcept_error]
    simp
  · obtain ⟨before, c, after, values, rfl, hvalues, hc⟩ := Column.readAll_eq_error_iff.mp he
    refine ⟨before, c, after, values, rfl, hvalues, hc, (testEqual_append hvalues _ _).trans ?_⟩
    have hfirst : (testEqual (c :: after) expected value position : Query m Bool) = throw e := by
      rw [testEqual, List.allM_cons, hc, Query.ofExcept_error]
      simp
    rw [hfirst]

/-- A column that cannot be read, behind one that differs: the quantifier fails and the comparison
does not. Items are asked about at their own positions. -/
theorem columns_agree_unread_column :
    let columns : List Column := [.dotted "a", .dotted "b", .dotted "c[0]"]
    let sound : Value := .obj [("a", .int 1), ("b", .int 1), ("c", .arr [.int 1])]
    let broken : Value := .obj [("a", .int 1), ("b", .int 2), ("c", .int 3)]
    let equals : Condition Recorded := .columns columns (.equals (.int 1))
    let e : QueryError := .notIndexable "c[0]" .number
    Column.readAll columns sound 7 = .ok [.int 1, .int 1, .int 1]
      ∧ equals.predicate.test sound 7 = (Predicate.allOf columns (.eq (.int 1))).test sound 7
      ∧ Column.readAll columns broken 7 = .error e
      ∧ (Predicate.allOf columns (.eq (.int 1)) : Predicate Recorded).test broken 7 = throw e
      ∧ (equals.predicate.test broken 7).run [] = (.ok false, [])
      ∧ ((Predicate.and (columns.map fun c =>
          (column c (.equals (.int 1)) : Condition Recorded))).test broken 7).run []
        = (.ok false, [])
      ∧ ((Predicate.oneOf columns (.recorded false)).test sound 7).run []
        = (.ok false, [(.int 1, 0), (.int 1, 1), (.int 1, 2)])
      ∧ ((Condition.columns columns
          (.satisfies (Predicate.recorded false).one)).predicate.test sound 7).run []
        = (.ok false, [(.int 1, 0), (.int 1, 1), (.int 1, 2)]) := by
  intro columns sound broken equals e
  have hsound : Column.readAll columns sound 7 = .ok [.int 1, .int 1, .int 1] := rfl
  have hbroken : Column.readAll columns broken 7 = .error e := rfl
  have hone : ((Predicate.oneOf columns (.recorded false)).test sound 7).run []
      = (.ok false, [(.int 1, 0), (.int 1, 1), (.int 1, 2)]) := rfl
  have hdiffers : (equals.predicate.test broken 7).run [] = (.ok false, []) := rfl
  obtain ⟨-, hquantifier, -, hread, -⟩ :=
    columns_agree columns (.recorded false) (.int 1) sound 7
  obtain ⟨-, -, hand, -, hunread⟩ := columns_agree columns (.recorded false) (.int 1) broken 7
  exact ⟨hsound, hread _ hsound, hbroken, (hunread e hbroken).1, hdiffers, hand ▸ hdiffers, hone,
    hquantifier ▸ hone⟩

end Condition

end RecordQuery
