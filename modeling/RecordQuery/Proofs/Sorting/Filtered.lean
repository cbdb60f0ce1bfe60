import RecordQuery.Proofs.Conditions.Fusion
import RecordQuery.Proofs.Sorting.Cascade

/-!
# Filtering and sorting commute

Whether records are sorted and then filtered, or filtered and then sorted, the same elements are
left. That they come in the same order is stability once more. Sorting arranges the elements so
that each precedes the next, by the criteria or in a tie by its position, and dropping some of them
leaves the others in this arrangement. Filtering first changes the positions, but not which of two
elements comes first, so the sort that follows has the same arrangement to find, and there is only
one.

With an unstable sort the two could differ in their ties, and with a condition that looks at
positions they would not even have to keep the same elements.

## What is assumed

Neither the criteria nor the condition may look at positions, since filtering changes them. The
condition must not fail on any element; otherwise sorting first could bring another failure to the
front. And the criteria have to suit all the records. Then they suit those that are left, but not
the other way round: dropping elements can leave a column readable that was not, and then filtering
first succeeds where sorting first fails.

## Implementation notes

The statement about lists is that two arrangements of the same positions are equal because there is
only one. Neither of the two sorts is unfolded. `filter_sortedPositions` needs to know only that a
sublist of an ordered list is ordered, and that both lists have the same members.

`filter_mergeSort` asks for a comparison that is transitive on what stands in the list. It is stated
through the positions of the list, as `Std.TransCmp` of the comparison at two positions, because the
library's sorting lemmas ask for a comparison that is transitive on a whole type.

## Main results

* `filter_sortedPositions` — sorted positions that are kept are the kept positions, sorted
* `filter_mergeSort` — filtering what is sorted is sorting what is filtered
* `Records.filter_sortOn` — the same for records, conditions and criteria
-/

namespace RecordQuery

/-! ### Lists -/

/-- **Sorted positions that are kept are the kept positions, sorted.** In both lists each position
precedes all later ones, by the comparison or in a tie. -/
theorem filter_sortedPositions {n : ℕ} (cmp : Fin n → Fin n → Ordering) [Std.TransCmp cmp]
    (keep : Fin n → Bool) :
    (sortedPositions cmp).filter keep
      = ((List.finRange n).filter keep).mergeSort fun p q => (cmp p q).isLE := by
  have hsorted : ((sortedPositions cmp).filter keep).Pairwise
      fun p q => compareLex cmp compare p q = .lt := (sortedPositions_pairwise cmp).filter keep
  have hkept : (((List.finRange n).filter keep).mergeSort fun p q => (cmp p q).isLE).Pairwise
      fun p q => cmp p q = .lt ∨ cmp p q = .eq ∧ p < q :=
    pairwise_mergeSort_tie ((List.pairwise_lt_finRange n).filter keep)
  have hperm : ((sortedPositions cmp).filter keep).Perm
      (((List.finRange n).filter keep).mergeSort fun p q => (cmp p q).isLE) :=
    ((sortedPositions_perm cmp).filter keep).trans (List.mergeSort_perm _ _).symm
  -- with ties broken by position no two are level, so only one arrangement is sorted
  refine List.Perm.eq_of_pairwise (fun p q _ _ hpq hqp => ?_) hsorted
    (hkept.imp fun {p q} h => ?_) hperm
  · exact absurd hqp (Std.OrientedCmp.not_lt_of_lt hpq)
  · exact Ordering.then_eq_lt.mpr (h.imp_right fun ⟨heq, hlt⟩ => ⟨heq, Nat.compare_eq_lt.mpr hlt⟩)

/-- **Filtering what is sorted is sorting what is filtered**, if the comparison is transitive on
what stands in the list. -/
theorem filter_mergeSort {α : Type} {cmp : α → α → Ordering} {xs : List α}
    (h : Std.TransCmp fun i j : Fin xs.length => cmp (xs.get i) (xs.get j)) (keep : α → Bool) :
    (xs.mergeSort fun a b => (cmp a b).isLE).filter keep
      = (xs.filter keep).mergeSort fun a b => (cmp a b).isLE := by
  calc (xs.mergeSort fun a b => (cmp a b).isLE).filter keep
    _ = ((sortedPositions fun i j => cmp (xs.get i) (xs.get j)).filter
        fun i => keep (xs.get i)).map xs.get := by
      rw [mergeSort_eq_map_sortedPositions, List.filter_map]
      rfl
    _ = (((List.finRange xs.length).filter fun i => keep (xs.get i)).map xs.get).mergeSort
        fun a b => (cmp a b).isLE := by
      rw [filter_sortedPositions,
        List.map_mergeSort (s := fun a b => (cmp a b).isLE) fun _ _ _ _ => rfl]
    _ = (xs.filter keep).mergeSort fun a b => (cmp a b).isLE := by
      conv_rhs => rw [← List.map_get_finRange xs, List.filter_map]
      rfl

/-! ### Records -/

namespace Records

variable {records : Records} {criteria : List Criterion} {c : Condition Id}

/-- The columns of criteria that suit records are read in any records with elements from there. -/
theorem exists_column_of_sortable {other : Records} (h : other.toList ⊆ records.toList)
    (hpositionless : Criterion.Positionless criteria) (hsortable : records.Sortable criteria) :
    ∀ criterion ∈ criteria, ∃ values, other.column criterion.column = .ok values := by
  intro criterion hcriterion
  obtain ⟨values, hvalues, -⟩ := hsortable criterion hcriterion
  exact exists_column_of_subset h (hpositionless criterion hcriterion) ⟨values, hvalues⟩

theorem filter_of_forall (hc : c.Positionless)
    (h : ∀ element ∈ records.toList, ∃ holds, c.verdict (element, 0) = .ok holds) :
    (records.filter c).outcome
      = .ok ⟨records.toList.filter fun element => c.accepts (element, 0)⟩ :=
  (filter_eq_ok_iff_of_positionless hc).mpr ⟨h, rfl⟩

/-- **Filtering and sorting commute.** If a condition fails on no element and criteria suit the
records, neither of them looking at positions, then both ways succeed and end with the same
records. -/
theorem filter_sortOn (records : Records) (criteria : List Criterion) (c : Condition Id)
    (hne : criteria ≠ []) (hpositionless : Criterion.Positionless criteria)
    (hsortable : records.Sortable criteria) (hc : c.Positionless) (hanswered : records.Answered c) :
    ∃ sorted kept outcome, records.sortOn criteria = .ok sorted
      ∧ (records.filter c).outcome = .ok kept
      ∧ (sorted.filter c).outcome = .ok outcome
      ∧ kept.sortOn criteria = .ok outcome := by
  have hanswers := (answered_iff_of_positionless hc).mp hanswered
  have htrans := transCmp_compareAt hsortable
  have hcompare : records.compareAt criteria = fun p q => Criterion.compareElements criteria
      (records.toList.get p) (records.toList.get q) :=
    funext fun p => funext fun q => compareAt_eq_compareElements hpositionless p q
  rw [hcompare] at htrans
  have hsorted := sortOn_eq_mergeSort hne hpositionless
    (exists_column_of_sortable (List.Subset.refl _) hpositionless hsortable)
  have hkept := filter_of_forall hc hanswers
  refine ⟨_, _, _, hsorted, hkept, filter_of_forall hc fun element helement => ?_, ?_⟩
  · exact hanswers element (List.mem_mergeSort.mp helement)
  · rw [sortOn_eq_mergeSort hne hpositionless
      (exists_column_of_sortable List.filter_sublist.subset hpositionless hsortable),
      filter_mergeSort htrans]

/-- Three ties, the second of which is dropped, behind an element that the sort moves to the end. -/
theorem filter_sortOn_dropped_tie :
    let row (n : Int) (id : Int) (valid : Bool) : Value :=
      .obj [("id", .int id), ("n", .int n), ("valid", .bool valid)]
    let records : Records := ⟨[row 2 0 true, row 1 1 true, row 1 2 false, row 1 3 true]⟩
    let criteria : List Criterion := [.on (.dotted "n") .ascending]
    let c : Condition Id := .column (.dotted "valid") (.equals (.bool true))
    criteria ≠ [] ∧ Criterion.Positionless criteria ∧ records.Sortable criteria ∧ c.Positionless
      ∧ records.Answered c
      ∧ (records.filter c).outcome = .ok ⟨[row 2 0 true, row 1 1 true, row 1 3 true]⟩
      ∧ Records.sortOn ⟨[row 2 0 true, row 1 1 true, row 1 3 true]⟩ criteria
        = .ok ⟨[row 1 1 true, row 1 3 true, row 2 0 true]⟩ := by
  intro row records criteria c
  have hne : criteria ≠ [] := List.cons_ne_nil _ _
  have hpositionless : Criterion.Positionless criteria :=
    List.forall_mem_singleton.mpr (Column.positionless_path _)
  have hnumbers : Uniform [.int 2, .int 1, .int 1, .int 1] :=
    .inr (.inr (.inl (by simp [Value.int, Num.exactBound])))
  have hsortable : records.Sortable criteria :=
    List.forall_mem_singleton.mpr ⟨_, rfl, totalPreorderOn_nativeOrder hnumbers⟩
  have hc : c.Positionless := fun _ _ _ => rfl
  have hkept : (records.filter c).outcome
      = .ok ⟨[row 2 0 true, row 1 1 true, row 1 3 true]⟩ := rfl
  have hanswered : records.Answered c := (filter_eq_ok_iff.mp hkept).1
  have htrans := transCmp_compareAt hsortable
  have horder : ([1, 2, 3, 0] : List (Fin 4)) = sortedPositions (records.compareAt criteria) := by
    refine (perm_isChain_iff (records.compareAt criteria)).mp ⟨?_, ?_⟩
    · show List.Perm ([1, 2, 3, 0] : List (Fin 4)) (List.finRange 4)
      decide
    · exact .cons_cons rfl (.cons_cons rfl (.cons_cons rfl (.singleton _)))
  have hsorted : records.sortOn criteria
      = .ok ⟨[row 1 1 true, row 1 2 false, row 1 3 true, row 2 0 true]⟩ := by
    rw [sortOn_eq_arranged hne (List.forall_mem_singleton.mpr ⟨_, rfl⟩), ← horder]
    rfl
  obtain ⟨sorted, kept, outcome, hsort, hfilter, hafter, hbefore⟩ :=
    filter_sortOn records criteria c hne hpositionless hsortable hc hanswered
  rw [hsorted] at hsort
  cases hsort
  rw [hkept] at hfilter
  cases hfilter
  cases hafter
  exact ⟨hne, hpositionless, hsortable, hc, hanswered, hkept, hbefore⟩

end Records

end RecordQuery
