import RecordQuery.Proofs.Conditions.Shapes
import RecordQuery.Proofs.Conditions.Verdict

/-!
# Negation moves inside

Conjunction is dual to disjunction, and one quantifier to the other. For truth values alone this is
De Morgan's law. Here an operand may also fail, and asking it may have effects, so the law has to
hold of where evaluation stops as well: a conjunction gives up at the first operand that does not
hold, and that is the operand at which the disjunction of the negations is satisfied. A failure is
no answer, and negation lets it pass.

The two sides are equal as computations in every monad. So they do not only return the same: they
ask the same predicates about the same values in the same order.

## Where the duality comes from

All the laws are instances of one, which is about searches through a list: to test whether all pass
and to negate the answer is to test whether one passes the negation. `List.allM_eq_not_anyM_not`
says so of computations, and that negating twice does nothing gives it the other direction. The laws
for conditions and quantifiers follow by moving the negation of an answer into the operand
(`Predicate.test_not`).

What is tested is at the same position on both sides. This matters for the quantifiers, which test
each item at its position in the array, whatever the position of the element that the array is in.

## Reading comes first

Quantifiers read all items before they test any, from an array or from several columns. The laws
`Predicate.not_bind_testAll` and `Predicate.not_bind_testOne` take the reading as a parameter, so
that arrays and columns are two instances of them. If the items cannot be read, both sides fail with
the same error, and no test has been made.

## Implementation notes

Equality of predicates is equality of their tests, and that is an equation in `Query m` for any
lawful `m`. Nothing is assumed about what `m` can observe. Had the two sides made different tests,
or the same ones in another order, a state that records the questions would tell them apart; the
case below with a column that cannot be read is of this kind.

## Main results

* `not_allM`, `not_anyM` — the two searches through a list are dual
* `Predicate.not_bind_testAll`, `Predicate.not_bind_testOne` — the quantifiers are, however their
  items are read
* `Predicate.de_morgan` — the laws for conditions, for arrays and for columns
-/

namespace RecordQuery

variable {m : Type → Type} [Monad m] [LawfulMonad m]

theorem not_not_map (query : m Bool) : (!·) <$> (!·) <$> query = query := by
  simp

/-- Not everything passes a test exactly if something passes its negation, and both are known after
the same tests. -/
theorem not_allM {α : Type} (p : α → m Bool) (xs : List α) :
    (!·) <$> xs.allM p = xs.anyM fun x => (!·) <$> p x := by
  rw [List.allM_eq_not_anyM_not, not_not_map]

theorem not_anyM {α : Type} (p : α → m Bool) (xs : List α) :
    (!·) <$> xs.anyM p = xs.allM fun x => (!·) <$> p x := by
  rw [List.allM_eq_not_anyM_not]
  simp only [not_not_map]

namespace Predicate

omit [Monad m] [LawfulMonad m] in
theorem eq_of_test {p q : Predicate m}
    (h : ∀ value position, p.test value position = q.test value position) : p = q :=
  congrArg mk (funext fun value => funext fun position => h value position)

theorem test_not (predicate : Predicate m) (value : Value) (position : Nat) :
    predicate.not.test value position = (!·) <$> predicate.test value position :=
  bind_pure_comp _ _

theorem not_not (predicate : Predicate m) : predicate.not.not = predicate := by
  refine eq_of_test fun value position => ?_
  rw [test_not, test_not, not_not_map]

/-! ### Conjunction and disjunction -/

theorem not_and (conditions : List (Condition m)) :
    (Predicate.and conditions).not = Predicate.or (conditions.map Condition.negation) := by
  refine eq_of_test fun value position => ?_
  calc (Predicate.and conditions).not.test value position
    _ = (!·) <$> conditions.allM fun c => c.predicate.test value position := test_not _ _ _
    _ = conditions.anyM fun c => (!·) <$> c.predicate.test value position := not_allM _ _
    _ = conditions.anyM fun c => c.negation.predicate.test value position :=
      congrArg (conditions.anyM ·) (funext fun c => (test_not c.predicate value position).symm)
    _ = (conditions.map Condition.negation).anyM fun c => c.predicate.test value position :=
      (anyM_map Condition.negation (fun c => c.predicate.test value position) conditions).symm

theorem not_or (conditions : List (Condition m)) :
    (Predicate.or conditions).not = Predicate.and (conditions.map Condition.negation) := by
  refine eq_of_test fun value position => ?_
  calc (Predicate.or conditions).not.test value position
    _ = (!·) <$> conditions.anyM fun c => c.predicate.test value position := test_not _ _ _
    _ = conditions.allM fun c => (!·) <$> c.predicate.test value position := not_anyM _ _
    _ = conditions.allM fun c => c.negation.predicate.test value position :=
      congrArg (conditions.allM ·) (funext fun c => (test_not c.predicate value position).symm)
    _ = (conditions.map Condition.negation).allM fun c => c.predicate.test value position :=
      (allM_map Condition.negation (fun c => c.predicate.test value position) conditions).symm

/-! ### Quantifiers -/

theorem not_testAll (predicate : Predicate m) (items : List Value) :
    (!·) <$> predicate.testAll items = predicate.not.testOne items := by
  rw [testAll, not_allM, testOne]
  exact congrArg (items.zipIdx.anyM ·)
    (funext fun entry => (test_not predicate entry.1 entry.2).symm)

theorem not_testOne (predicate : Predicate m) (items : List Value) :
    (!·) <$> predicate.testOne items = predicate.not.testAll items := by
  rw [testOne, not_anyM, testAll]
  exact congrArg (items.zipIdx.allM ·)
    (funext fun entry => (test_not predicate entry.1 entry.2).symm)

/-- Not all items satisfy a predicate exactly if one satisfies its negation, wherever the items are
read from. If they cannot be read, both fail before the first test. -/
theorem not_bind_testAll (predicate : Predicate m) (items : Query m (List Value)) :
    (!·) <$> (items >>= predicate.testAll) = items >>= predicate.not.testOne := by
  rw [map_bind]
  exact bind_congr (not_testAll predicate)

theorem not_bind_testOne (predicate : Predicate m) (items : Query m (List Value)) :
    (!·) <$> (items >>= predicate.testOne) = items >>= predicate.not.testAll := by
  rw [map_bind]
  exact bind_congr (not_testOne predicate)

/-! ### De Morgan's laws -/

/-- **De Morgan's laws hold with failures and effects.** Both sides of each law stop at the same
operand, after the same tests, and fail with the same error. -/
theorem de_morgan (conditions : List (Condition m)) (columns : List Column)
    (predicate : Predicate m) :
    (Predicate.and conditions).not = Predicate.or (conditions.map Condition.negation)
      ∧ (Predicate.or conditions).not = Predicate.and (conditions.map Condition.negation)
      ∧ predicate.all.not = predicate.not.one
      ∧ predicate.one.not = predicate.not.all
      ∧ (allOf columns predicate).not = oneOf columns predicate.not
      ∧ (oneOf columns predicate).not = allOf columns predicate.not
      ∧ predicate.not.not = predicate := by
  refine ⟨not_and conditions, not_or conditions, ?_, ?_, ?_, ?_, not_not predicate⟩
  · exact eq_of_test fun _ _ => (test_not _ _ _).trans (not_bind_testAll predicate _)
  · exact eq_of_test fun _ _ => (test_not _ _ _).trans (not_bind_testOne predicate _)
  · exact eq_of_test fun _ _ => (test_not _ _ _).trans (not_bind_testAll predicate _)
  · exact eq_of_test fun _ _ => (test_not _ _ _).trans (not_bind_testOne predicate _)

/-- A column that cannot be read, behind the operand that decides and before it, and a quantifier
that is decided by its first item: the two sides ask the same questions. -/
theorem de_morgan_unread_column :
    let element : Value := .obj [("a", .int 5), ("b", .int 6)]
    let yes : Condition Recorded := .satisfies (.recorded true)
    let no : Condition Recorded := .satisfies (.recorded false)
    let unread : Condition Recorded := .column (.dotted "a[0]") (.equals (.int 1))
    let decided := [yes, no, unread]
    let failing := [yes, unread, no]
    let columns : List Column := [.dotted "a", .dotted "b"]
    let asked : Value × Nat := (element, 3)
    let e : QueryError := .notIndexable "a[0]" .number
    ((Predicate.and decided).not.test element 3).run [] = (.ok true, [asked, asked])
      ∧ ((Predicate.or (decided.map Condition.negation)).test element 3).run []
        = (.ok true, [asked, asked])
      ∧ ((Predicate.and failing).not.test element 3).run [] = (.error e, [asked])
      ∧ ((Predicate.or (failing.map Condition.negation)).test element 3).run []
        = (.error e, [asked])
      ∧ ((allOf columns (.recorded false)).not.test element 3).run [] = (.ok true, [(.int 5, 0)])
      ∧ ((oneOf columns (Predicate.recorded false).not).test element 3).run []
        = (.ok true, [(.int 5, 0)]) := by
  intro element yes no unread decided failing columns asked e
  have hdecided : ((Predicate.and decided).not.test element 3).run []
      = (.ok true, [asked, asked]) := rfl
  have hfailing : ((Predicate.and failing).not.test element 3).run [] = (.error e, [asked]) := rfl
  have hcolumns : ((allOf columns (.recorded false)).not.test element 3).run []
      = (.ok true, [(.int 5, 0)]) := rfl
  obtain ⟨hand, -, -, -, hallOf, -, -⟩ := de_morgan decided columns (.recorded false)
  obtain ⟨hand', -⟩ := de_morgan failing columns (.recorded false)
  exact ⟨hdecided, hand ▸ hdecided, hfailing, hand' ▸ hfailing, hcolumns, hallOf ▸ hcolumns⟩

end Predicate

end RecordQuery
