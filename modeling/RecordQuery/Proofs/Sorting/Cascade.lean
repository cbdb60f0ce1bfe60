import RecordQuery.Proofs.Sorting.Elements

/-!
# A sort by several criteria is a cascade of sorts

To sort by several criteria one can sort by each of them alone, beginning with the last. What makes
this work is stability: sorting by one comparison what another has sorted orders by the first and
leaves ties in the order of the second. On positions that order is strict, so there is only one
arrangement with it, and the lexicographic sort finds the same one.

A descending criterion flips its comparison and leaves ties alone. If it reversed the outcome
instead, ties would come out backwards, and each later sort of a cascade would undo the one before.

The two ways fail on the same records, although not always with the same error: a sort by several
criteria reads the first column first, and a cascade the last.

## What each sort of a cascade sees

The first sort of a cascade is by the last criterion and sees the records as they are. Each later
one sees them rearranged. Three things have to survive this: that a column can be read, what its
values are, and that its comparison is a total preorder on them. Columns that ignore positions have
all three, since the values of a rearrangement are the rearranged values
(`RecordQuery.Proofs.Sorting.Elements`). With a column that looks at positions a cascade sorts by
values that the single sort never sees.

## Implementation notes

One step says that sorting by one criterion what the criteria behind it have sorted is sorting by
all of them (`Records.sortOn_sortOn`). The cascade follows by induction on the criteria, from the
last one on. The step is a statement about merge sort and comparisons alone,
`mergeSort_sortedPositions`, carried over to records.

That statement is about positions, where the comparison followed by the position is a strict order.
On elements it would be none, since equal elements may stand at several positions.

The equivalence is about success with an outcome. It does not speak of the errors, and could not:
where two columns cannot be read, the two ways report different ones.

## Main results

* `pairwise_mergeSort_tie` — sorting keeps the order of ties
* `mergeSort_sortedPositions` — sorting positions twice sorts them lexicographically
* `Records.sortOn_eq_cascade` — a sort by criteria is a cascade of sorts by one criterion each
-/

namespace RecordQuery

/-! ### Sorting twice -/

section Twice

variable {α : Type}

/-- A list is sorted by sorting the positions in it, where a tie goes to the earlier position. -/
theorem mergeSort_eq_map_sortedPositions (cmp : α → α → Ordering) (xs : List α) :
    (xs.mergeSort fun a b => (cmp a b).isLE)
      = (sortedPositions fun i j => cmp (xs.get i) (xs.get j)).map xs.get := by
  rw [sortedPositions, List.map_mergeSort (s := fun a b => (cmp a b).isLE) fun _ _ _ _ => rfl,
    List.map_get_finRange]

/-- **Sorting keeps the order of ties.** What stands before something else in the outcome is less,
or equal and related to it as before. -/
theorem pairwise_mergeSort_tie {cmp : α → α → Ordering} [Std.TransCmp cmp] {R : α → α → Prop}
    {xs : List α} (h : xs.Pairwise R) :
    (xs.mergeSort fun a b => (cmp a b).isLE).Pairwise
      fun a b => cmp a b = .lt ∨ cmp a b = .eq ∧ R a b := by
  have hcmp : Std.TransCmp fun i j => cmp (xs.get i) (xs.get j) :=
    { eq_swap := Std.OrientedCmp.eq_swap, isLE_trans := Std.TransCmp.isLE_trans }
  rw [mergeSort_eq_map_sortedPositions, List.pairwise_map]
  refine (sortedPositions_pairwise _).imp fun {i j} hij => ?_
  rcases Ordering.then_eq_lt.mp hij with hlt | ⟨heq, hlt⟩
  · exact .inl hlt
  · exact .inr ⟨heq, List.pairwise_iff_get.mp h i j (Nat.compare_eq_lt.mp hlt)⟩

variable {n : ℕ} (first second : Fin n → Fin n → Ordering)

/-- **Sorting positions twice sorts them lexicographically**, by the later comparison first. -/
theorem mergeSort_sortedPositions [Std.TransCmp first] [Std.TransCmp second] :
    ((sortedPositions second).mergeSort fun p q => (first p q).isLE)
      = sortedPositions (compareLex first second) := by
  have htie : ((sortedPositions second).mergeSort fun p q => (first p q).isLE).Pairwise
      fun p q => first p q = .lt ∨ first p q = .eq ∧ compareLex second compare p q = .lt :=
    pairwise_mergeSort_tie (sortedPositions_pairwise second)
  refine (perm_isChain_iff _).mp ⟨?_, (htie.imp fun {p q} h => ?_).isChain⟩
  · exact (List.mergeSort_perm _ _).trans (sortedPositions_perm second)
  · show ((first p q).then (second p q)).then (compare p q) = .lt
    rw [Ordering.then_assoc]
    exact Ordering.then_eq_lt.mpr h

end Twice

/-! ### Cascades -/

namespace Records

variable {records : Records} {criterion : Criterion} {rest : List Criterion}

/-- Sorts by each criterion alone, the last one first. -/
def cascade (criteria : List Criterion) (records : Records) : Except QueryError Records :=
  criteria.foldrM (fun criterion sorted => sorted.sortOn [criterion]) records

theorem cascade_singleton : cascade [criterion] records = records.sortOn [criterion] := by
  rw [cascade, List.foldrM_cons]
  rfl

theorem cascade_cons :
    cascade (criterion :: rest) records
      = cascade rest records >>= fun sorted => sorted.sortOn [criterion] :=
  List.foldrM_cons

theorem compareAt_cons_eq_compareLex :
    records.compareAt (criterion :: rest)
      = compareLex (records.compareAt [criterion]) (records.compareAt rest) := by
  have hfirst : records.compareAt [criterion] = fun p q => criterion.compare
      (records.valueAt criterion.column p) (records.valueAt criterion.column q) := by
    funext p q
    exact Ordering.then_eq
  rw [hfirst, compareAt_cons]

theorem perm_of_sortOn {criteria : List Criterion} (hne : criteria ≠ []) {sorted : Records}
    (h : records.sortOn criteria = .ok sorted) : sorted.toList.Perm records.toList := by
  rw [sortOn_eq_arranged hne ((exists_sortOn_iff hne).mp ⟨sorted, h⟩)] at h
  cases h
  exact arranged_perm (sortedPositions_perm _)

/-- **One step of a cascade.** Sorting by one more criterion what the criteria behind it have sorted
sorts by all of them. -/
theorem sortOn_sortOn (hrest : rest ≠ [])
    (hpositionless : Criterion.Positionless (criterion :: rest))
    (hcomparable : records.Comparable (criterion :: rest))
    (hread : ∀ other ∈ criterion :: rest, ∃ values, records.column other.column = .ok values)
    {sorted : Records} (hsorted : records.sortOn rest = .ok sorted) :
    sorted.sortOn [criterion] = records.sortOn (criterion :: rest) := by
  have hfirst : Criterion.Positionless [criterion] :=
    List.forall_mem_singleton.mpr (hpositionless criterion List.mem_cons_self)
  have hsortedRead : ∀ other ∈ [criterion], ∃ values, sorted.column other.column = .ok values := by
    rw [List.forall_mem_singleton, exists_column_iff_of_perm (perm_of_sortOn hrest hsorted)
      (hfirst criterion List.mem_cons_self)]
    exact hread criterion List.mem_cons_self
  have hsortable := sortable_of_comparable hcomparable hread
  obtain ⟨hhead, htail⟩ := List.forall_mem_cons.mp hsortable
  have htransFirst := transCmp_compareAt (List.forall_mem_singleton.mpr hhead)
  have htransRest := transCmp_compareAt htail
  rw [sortOn_eq_arranged hrest (List.forall_mem_cons.mp hread).2] at hsorted
  cases hsorted
  rw [sortOn_eq_mergeSort (List.cons_ne_nil _ _) hfirst hsortedRead,
    sortOn_eq_arranged (List.cons_ne_nil _ _) hread, compareAt_cons_eq_compareLex,
    ← mergeSort_sortedPositions]
  show Except.ok (Records.mk (List.mergeSort (List.map _ _) _)) = _
  rw [← List.map_mergeSort fun p _ q _ =>
    congrArg Ordering.isLE (compareAt_eq_compareElements hfirst p q)]
  rfl

/-- The columns of a cascade are read in the records that it begins with. -/
theorem exists_column_of_sortOn (hrest : rest ≠ [])
    (hpositionless : Criterion.Positionless (criterion :: rest)) {inner sorted : Records}
    (hinner : records.sortOn rest = .ok inner) (hsorted : inner.sortOn [criterion] = .ok sorted) :
    ∀ other ∈ criterion :: rest, ∃ values, records.column other.column = .ok values := by
  have hlast := (exists_sortOn_iff (List.cons_ne_nil _ _)).mp ⟨sorted, hsorted⟩
  rw [List.forall_mem_singleton, exists_column_iff_of_perm (perm_of_sortOn hrest hinner)
    (hpositionless criterion List.mem_cons_self)] at hlast
  exact List.forall_mem_cons.mpr ⟨hlast, (exists_sortOn_iff hrest).mp ⟨inner, hinner⟩⟩

/-- **A sort by several criteria is a cascade of sorts by one**, the last criterion first: one
succeeds exactly if the other does, and then with the same outcome. -/
theorem sortOn_eq_cascade (records : Records) (criteria : List Criterion) (hne : criteria ≠ [])
    (hpositionless : Criterion.Positionless criteria) (hcomparable : records.Comparable criteria)
    (sorted : Records) :
    records.sortOn criteria = .ok sorted ↔ cascade criteria records = .ok sorted := by
  induction criteria generalizing sorted with
  | nil => exact absurd rfl hne
  | cons criterion rest ih =>
    obtain rfl | hrest := eq_or_ne rest []
    · rw [cascade_singleton]
    · have hinner := ih hrest (List.forall_mem_cons.mp hpositionless).2
        (List.forall_mem_cons.mp hcomparable).2
      rw [cascade_cons, bind_eq_ok_iff]
      simp only [← hinner]
      constructor
      · intro h
        have hread := (exists_sortOn_iff hne).mp ⟨sorted, h⟩
        obtain ⟨inner, hsorted⟩ :=
          (exists_sortOn_iff hrest).mpr (List.forall_mem_cons.mp hread).2
        refine ⟨inner, hsorted, ?_⟩
        rw [sortOn_sortOn hrest hpositionless hcomparable hread hsorted, h]
      · rintro ⟨inner, hsorted, h⟩
        have hread := exists_column_of_sortOn hrest hpositionless hsorted h
        rw [← sortOn_sortOn hrest hpositionless hcomparable hread hsorted, h]

/-- Ties at the first criterion, one of them also at the second, which is descending. -/
theorem sortOn_eq_cascade_descending_tie :
    let row (n : Int) (s : String) (id : Int) : Value :=
      .obj [("id", .int id), ("n", .int n), ("s", .str s)]
    let records : Records := ⟨[row 2 "a" 0, row 1 "a" 1, row 1 "b" 2, row 1 "a" 3]⟩
    let criteria : List Criterion :=
      [.on (.dotted "n") .ascending, .on (.dotted "s") .descending]
    criteria ≠ [] ∧ Criterion.Positionless criteria ∧ records.Comparable criteria
      ∧ cascade criteria records = .ok ⟨[row 1 "b" 2, row 1 "a" 1, row 1 "a" 3, row 2 "a" 0]⟩ := by
  intro row records criteria
  have hpositionless : Criterion.Positionless criteria := List.forall_mem_cons.mpr
    ⟨Column.positionless_path _, List.forall_mem_singleton.mpr (Column.positionless_path _)⟩
  have hnumbers : Uniform [.int 2, .int 1, .int 1, .int 1] :=
    .inr (.inr (.inl (by simp [Value.int, Num.exactBound])))
  have hstrings : Uniform [.str "a", .str "a", .str "b", .str "a"] := .inl (by simp)
  have hcomparable : records.Comparable criteria := by
    refine List.forall_mem_cons.mpr ⟨?_, List.forall_mem_singleton.mpr ?_⟩
    · rintro _ ⟨⟩
      exact totalPreorderOn_nativeOrder hnumbers
    · rintro _ ⟨⟩
      exact totalPreorderOn_nativeOrder hstrings
  have hread : ∀ criterion ∈ criteria, ∃ values, records.column criterion.column = .ok values :=
    List.forall_mem_cons.mpr ⟨⟨_, rfl⟩, List.forall_mem_singleton.mpr ⟨_, rfl⟩⟩
  have htrans := transCmp_compareAt (sortable_of_comparable hcomparable hread)
  have horder : ([2, 1, 3, 0] : List (Fin 4)) = sortedPositions (records.compareAt criteria) := by
    refine (perm_isChain_iff (records.compareAt criteria)).mp ⟨?_, ?_⟩
    · show List.Perm ([2, 1, 3, 0] : List (Fin 4)) (List.finRange 4)
      decide
    · exact .cons_cons rfl (.cons_cons rfl (.cons_cons rfl (.singleton _)))
  have hne : criteria ≠ [] := List.cons_ne_nil _ _
  have hsorted : records.sortOn criteria
      = .ok ⟨[row 1 "b" 2, row 1 "a" 1, row 1 "a" 3, row 2 "a" 0]⟩ := by
    rw [sortOn_eq_arranged hne hread, ← horder]
    rfl
  exact ⟨hne, hpositionless, hcomparable,
    (sortOn_eq_cascade records criteria hne hpositionless hcomparable _).mp hsorted⟩

end Records

end RecordQuery
