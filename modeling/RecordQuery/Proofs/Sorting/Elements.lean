import RecordQuery.Proofs.Sorting.Stable

/-!
# Sorting by columns that ignore positions

In general a sort compares positions, because a column may look at the position of an element. If no
column does, every element has a row of values of its own, and a sort by criteria is a merge sort of
the elements by their rows. Whether the columns can be read is then a question about single elements
too, so rearranging records changes neither the question nor the rows.

## Reading an element by itself

A column that ignores positions reads an element as if it came first, so the value of a column in an
element is a function of the element (`Column.valueIn`). Two orders of one list of elements then
have the same values, in two orders, and a property of the values that does not depend on their
order holds of both. That a comparison is a total preorder on them is such a property.

For a part of the elements only one direction is left: what can be read in all elements can be read
in some of them, and a total preorder on all values is one on some.

## Implementation notes

`Records.Comparable` is weaker than `Records.Sortable`. It says nothing of columns that cannot be
read, so it can be assumed where it is still open whether a sort succeeds. Where all columns are
read the two are the same (`Records.sortable_of_comparable`).

`Records.exists_sortOn_iff` is about `Records.sortOn`, which does not break off. Whether another
stable sort ends takes `Records.Sortable`, see `RecordQuery.Proofs.Sorting.Contract`.

## Main definitions

* `Criterion.compareElements` — how criteria order two elements
* `Records.Comparable` — the comparisons of criteria are total preorders on what their columns hold

## Main results

* `Records.exists_sortOn_iff` — `Records.sortOn` succeeds exactly if its columns are read
* `Records.exists_column_iff_of_perm` — whether a column is read does not depend on the order
* `Records.sortOn_eq_mergeSort` — a sort by criteria is a merge sort of the elements
-/

namespace RecordQuery

/-! ### Elements and their rows -/

/-- The value of a column in an element, `null` if it cannot be read there, read as if the element
came first. -/
def Column.valueIn (c : Column) (element : Value) : Value :=
  (c.read element 0).toOption.getD .null

namespace Criterion

/-- How criteria order two elements: by the values of their columns in them. -/
def compareElements (criteria : List Criterion) (a b : Value) : Ordering :=
  compareRows criteria (criteria.map fun criterion => criterion.column.valueIn a)
    (criteria.map fun criterion => criterion.column.valueIn b)

/-- No column looks at positions. -/
def Positionless (criteria : List Criterion) : Prop :=
  ∀ criterion ∈ criteria, criterion.column.Positionless

end Criterion

namespace Records

variable {records : Records}

/-- Comparisons are total preorders on the values of their columns, as far as these are read. -/
def Comparable (records : Records) (criteria : List Criterion) : Prop :=
  ∀ criterion ∈ criteria, ∀ values, records.column criterion.column = .ok values →
    TotalPreorderOn (criterion.comparison.getD Value.nativeOrder) values

/-! ### When columns are read -/

/-- **`sortOn` succeeds exactly if its columns are read.** -/
theorem exists_sortOn_iff {criteria : List Criterion} (hne : criteria ≠ []) :
    (∃ sorted, records.sortOn criteria = .ok sorted)
      ↔ ∀ criterion ∈ criteria, ∃ values, records.column criterion.column = .ok values := by
  constructor
  · rintro ⟨sorted, h⟩
    rw [sortOn, if_neg (by simpa using hne), bind_eq_ok_iff] at h
    obtain ⟨columns, hcolumns, -⟩ := h
    exact exists_mapM_eq_ok_iff.mp ⟨columns, hcolumns⟩
  · intro h
    exact ⟨_, sortOn_eq_arranged hne h⟩

theorem sortable_of_comparable {criteria : List Criterion} (h : records.Comparable criteria)
    (hread : ∀ criterion ∈ criteria, ∃ values, records.column criterion.column = .ok values) :
    records.Sortable criteria := by
  intro criterion hcriterion
  obtain ⟨values, hvalues⟩ := hread criterion hcriterion
  exact ⟨values, hvalues, h criterion hcriterion values hvalues⟩

/-- A column that is read in records is read in any that have their elements from there. -/
theorem exists_column_of_subset {other : Records} (h : other.toList ⊆ records.toList)
    {c : Column} (hc : c.Positionless) (hread : ∃ values, records.column c = .ok values) :
    ∃ values, other.column c = .ok values := by
  rw [exists_column_iff hc] at hread ⊢
  intro element helement
  exact hread element (h helement)

/-- **Whether a column is read does not depend on the order** of the elements. -/
theorem exists_column_iff_of_perm {other : Records} (h : other.toList.Perm records.toList)
    {c : Column} (hc : c.Positionless) :
    (∃ values, other.column c = .ok values) ↔ ∃ values, records.column c = .ok values :=
  ⟨exists_column_of_subset h.symm.subset hc, exists_column_of_subset h.subset hc⟩

/-! ### Sorting elements -/

theorem arranged_perm {order : List (Fin records.size)}
    (h : order.Perm (List.finRange records.size)) :
    (records.arranged order).toList.Perm records.toList := by
  have helements := h.map records.get
  rw [← toList_eq_map_get] at helements
  exact helements

/-- Positions are ordered by the elements that stand there. -/
theorem compareAt_eq_compareElements {criteria : List Criterion}
    (h : Criterion.Positionless criteria) (p q : Fin records.size) :
    records.compareAt criteria p q
      = Criterion.compareElements criteria (records.get p) (records.get q) := by
  have hrow : ∀ p : Fin records.size, records.rowAt criteria p
      = criteria.map fun criterion => criterion.column.valueIn (records.get p) := by
    intro p
    refine List.map_congr_left fun criterion hcriterion => ?_
    rw [valueAt, Column.valueIn, h criterion hcriterion _ p.val 0]
  rw [compareAt, hrow, hrow, Criterion.compareElements]

/-- **A sort by criteria is a merge sort of the elements** if no column looks at positions. -/
theorem sortOn_eq_mergeSort {criteria : List Criterion} (hne : criteria ≠ [])
    (hpositionless : Criterion.Positionless criteria)
    (hread : ∀ criterion ∈ criteria, ∃ values, records.column criterion.column = .ok values) :
    records.sortOn criteria = .ok ⟨records.toList.mergeSort fun a b =>
      (Criterion.compareElements criteria a b).isLE⟩ := by
  rw [sortOn_eq_arranged hne hread, toList_eq_map_get, ← List.map_mergeSort fun p _ q _ =>
    congrArg Ordering.isLE (compareAt_eq_compareElements hpositionless p q)]
  rfl

end Records

end RecordQuery
