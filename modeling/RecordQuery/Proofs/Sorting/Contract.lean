import RecordQuery.Proofs.Sorting.Stable

/-!
# The sorting contract

What a library promises of a stable sort depends on the comparison. If it is a total preorder on
what is sorted, the sort ends, and there is only one list that it can return. If it is not, the
elements may come back in any order, and the sort may also break off without returning at all.
Which of the two happens depends on the number of elements, on how runs are merged and on where the
inconsistent pairs stand, and nothing of this is promised.

The native order is such a comparison. Values of different kinds have no order and count as equal,
and this is not transitive: `1` ties with `"x"`, `"x"` ties with `0`, and `1` comes after `0`. So a
sort can break off on a column of mixed kinds, although every element of the column can be read.

## Merge sort and the other sorts

`Records.sortOn` sorts by `List.mergeSort`, which returns a list for every comparison. Where the
contract determines the result, this is the result. Elsewhere merge sort is one choice among many,
and that it ends says nothing about a sort that is free to do otherwise. Statements are therefore
made in one of two ways:

* a statement about the order of the result asks for `TotalPreorderOn` and is about
  `Records.sortOn`, since under this condition every stable sort returns the same list;
* a statement about whether there is a result is about `Records.sortOn?` and is made for every
  `StableSort`, so that it cannot rest on how merge sort behaves outside the contract.

That the condition is needed and not merely convenient is `Records.forall_sortOn?_isSome_iff`. The
sort that shows it is `StableSort.wary`, which breaks off whenever it may.

## Implementation notes

The contract names merge sort where one might expect a sorted permutation that keeps ties in order.
By a total preorder there is only one such permutation (`perm_isChain_iff`), so nothing is lost, and
two sorts are compared by rewriting.

The condition is about the list that is sorted, and not about its type. A comparison of values is
hardly ever a total preorder on all values, but often on the values of a column. What is sorted are
the elements together with their rows, so a `StableSort` sorts lists of any type, and
`TotalPreorderOn.map_iff` leads from the pairs back to the column.

## Main definitions

* `StableSort` — a stable sort, by what it can be relied on for
* `Records.sortOn?` — sorting by criteria with a sort of one's choice

## Main results

* `Records.sortOn?_merge` — with merge sort it is `Records.sortOn`
* `Records.sortOn?_of_sortable` — criteria that suit the records leave a sort no choice
* `Records.forall_sortOn?_isSome_iff` — every stable sort ends on a column exactly if the native
  order is a total preorder there
-/

namespace RecordQuery

instance {α : Type} {comparison : α → α → Ordering} {values : List α} :
    Decidable (TotalPreorderOn comparison values) :=
  decidable_of_iff
    ((∀ a ∈ values, ∀ b ∈ values, comparison b a = (comparison a b).swap)
      ∧ ∀ a ∈ values, ∀ b ∈ values, ∀ c ∈ values,
        (comparison a b).isLE → (comparison b c).isLE → (comparison a c).isLE)
    ⟨fun h => ⟨h.1, h.2⟩, fun h => ⟨h.swap, h.trans⟩⟩

namespace TotalPreorderOn

variable {ι α : Type} {comparison : α → α → Ordering}

theorem of_transCmp (comparison : α → α → Ordering) [Std.TransCmp comparison] (list : List α) :
    TotalPreorderOn comparison list where
  swap _ _ _ _ := Std.OrientedCmp.eq_swap
  trans _ _ _ _ _ _ := Std.TransCmp.isLE_trans

/-- Values are ordered as what they are the values of. -/
theorem map_iff {f : ι → α} {list : List ι} :
    TotalPreorderOn comparison (list.map f)
      ↔ TotalPreorderOn (fun i j => comparison (f i) (f j)) list := by
  constructor
  · intro h
    exact ⟨fun i hi j hj => h.swap _ (List.mem_map_of_mem hi) _ (List.mem_map_of_mem hj),
      fun i hi j hj k hk => h.trans _ (List.mem_map_of_mem hi) _ (List.mem_map_of_mem hj) _
        (List.mem_map_of_mem hk)⟩
  · intro h
    refine ⟨?_, ?_⟩
    · simp only [List.forall_mem_map]
      exact h.swap
    · simp only [List.forall_mem_map]
      exact h.trans

end TotalPreorderOn

/-- A stable sort, by what it can be relied on for, whatever the comparison. -/
structure StableSort where
  /-- Sorts a list by a comparison, or breaks off. -/
  sort? {α : Type} (comparison : α → α → Ordering) (list : List α) : Option (List α)
  /-- By a total preorder it sorts, and ties keep their order. -/
  sort?_eq {α : Type} {comparison : α → α → Ordering} {list : List α}
    (h : TotalPreorderOn comparison list) :
    sort? comparison list = some (list.mergeSort fun a b => (comparison a b).isLE)

namespace StableSort

/-- Merge sort, which never breaks off. -/
def merge : StableSort where
  sort? comparison list := some (list.mergeSort fun a b => (comparison a b).isLE)
  sort?_eq _ := rfl

/-- A sort that breaks off whenever it may. -/
def wary : StableSort where
  sort? comparison list :=
    if TotalPreorderOn comparison list then
      some (list.mergeSort fun a b => (comparison a b).isLE)
    else none
  sort?_eq h := if_pos h

theorem isSome_wary {α : Type} {comparison : α → α → Ordering} {list : List α} :
    (wary.sort? comparison list).isSome ↔ TotalPreorderOn comparison list := by
  by_cases h : TotalPreorderOn comparison list <;> simp [wary, h]

end StableSort

namespace Records

variable {records : Records} {criteria : List Criterion}

/-- The elements sorted by criteria with a sort of one's choice: nothing if the sort breaks off. -/
def sortOn? (sort : StableSort) (records : Records) (criteria : List Criterion) :
    Option (Except QueryError Records) :=
  if criteria.isEmpty then
    (sort.sort? Value.nativeOrder records.toList).map fun sorted => .ok ⟨sorted⟩
  else
    match criteria.mapM fun criterion => records.column criterion.column with
    | .error e => some (.error e)
    | .ok columns =>
      let pairs := (rows records.size columns).zip records.toList
      (sort.sort? (fun a b => Criterion.compareRows criteria a.1 b.1) pairs).map fun sorted =>
        .ok ⟨sorted.map Prod.snd⟩

/-- With merge sort it is the sort by criteria. -/
theorem sortOn?_merge (records : Records) (criteria : List Criterion) :
    records.sortOn? .merge criteria = some (records.sortOn criteria) := by
  rw [sortOn?, sortOn]
  split
  · rfl
  · cases criteria.mapM fun criterion => records.column criterion.column <;> rfl

/-- Columns that are read leave the elements with their rows to be sorted. -/
theorem sortOn?_of_read (sort : StableSort) (hne : criteria ≠ [])
    (hread : ∀ criterion ∈ criteria, ∃ values, records.column criterion.column = .ok values) :
    records.sortOn? sort criteria
      = (sort.sort? (fun a b => Criterion.compareRows criteria a.1 b.1)
          ((List.finRange records.size).map fun p => (records.rowAt criteria p, records.get p))).map
        fun sorted => .ok ⟨sorted.map Prod.snd⟩ := by
  have hempty : criteria.isEmpty = false := List.isEmpty_eq_false_iff.mpr hne
  rw [sortOn?, hempty, mapM_column hread]
  simp only [zip_rows, Bool.false_eq_true, if_false]

/-- **Criteria that suit the records leave no choice**: every stable sort ends, and as merge sort
does. -/
theorem sortOn?_of_sortable (sort : StableSort) (hne : criteria ≠ [])
    (h : records.Sortable criteria) :
    records.sortOn? sort criteria = some (records.sortOn criteria) := by
  have hread : ∀ criterion ∈ criteria, ∃ values, records.column criterion.column = .ok values := by
    intro criterion hcriterion
    obtain ⟨values, hvalues, _⟩ := h criterion hcriterion
    exact ⟨values, hvalues⟩
  have htrans := transCmp_compareAt h
  have hpairs : TotalPreorderOn (fun a b => Criterion.compareRows criteria a.1 b.1)
      ((List.finRange records.size).map fun p => (records.rowAt criteria p, records.get p)) :=
    TotalPreorderOn.map_iff.mpr (.of_transCmp (records.compareAt criteria) _)
  rw [← sortOn?_merge, sortOn?_of_read sort hne hread, sortOn?_of_read .merge hne hread,
    sort.sort?_eq hpairs, StableSort.merge.sort?_eq hpairs]

/-- **The order is not too much to ask.** If every stable sort ends on a column, the native order is
a total preorder on its values. -/
theorem forall_sortOn?_isSome_iff {c : Column} {values : List Value}
    (h : records.column c = .ok values) :
    (∀ sort : StableSort, (records.sortOn? sort [.on c .ascending]).isSome)
      ↔ TotalPreorderOn Value.nativeOrder values := by
  have hread : ∀ criterion ∈ [Criterion.on c .ascending],
      ∃ values, records.column criterion.column = .ok values :=
    List.forall_mem_singleton.mpr ⟨values, h⟩
  have hcompare : (fun p q => Value.nativeOrder (records.valueAt c p) (records.valueAt c q))
      = records.compareAt [.on c .ascending] := by
    funext p q
    exact Ordering.then_eq.symm
  constructor
  · intro hends
    have hwary := hends .wary
    rw [sortOn?_of_read .wary (List.cons_ne_nil _ _) hread, Option.isSome_map] at hwary
    have hpairs := TotalPreorderOn.map_iff.mp (StableSort.isSome_wary.mp hwary)
    rw [column_eq_map_valueAt h, TotalPreorderOn.map_iff, hcompare]
    exact hpairs
  · intro horder sort
    have hsortable : records.Sortable [.on c .ascending] :=
      List.forall_mem_singleton.mpr ⟨values, h, horder⟩
    rw [sortOn?_of_sortable sort (List.cons_ne_nil _ _) hsortable]
    rfl

example : ¬TotalPreorderOn Value.nativeOrder [.int 1, .str "x", .int 0] := by decide

/-- Whatever the sort, an outcome is made of the values of the column. -/
theorem exists_map_of_mem_sortOn? {sort : StableSort} {criterion : Criterion}
    {outcome : Except QueryError Records} (h : outcome ∈ records.sortOn? sort [criterion]) :
    ∃ sorted : List Value → Records,
      outcome = (records.column criterion.column).map sorted := by
  rw [sortOn?, List.isEmpty_cons, List.mapM_cons, List.mapM_nil] at h
  cases hcolumn : records.column criterion.column with
  | error e =>
    rw [hcolumn] at h
    obtain rfl := Option.some.inj h
    exact ⟨Records.mk, rfl⟩
  | ok values =>
    rw [hcolumn] at h
    obtain ⟨sorted, -, rfl⟩ := Option.map_eq_some_iff.mp h
    exact ⟨fun _ => ⟨sorted.map Prod.snd⟩, rfl⟩

end Records

end RecordQuery
