import RecordQuery.Proofs.Sorting.Preorder
import Mathlib.Data.List.FinRange
import Mathlib.Data.List.Sort

/-!
# Sorting is stable and lexicographic

Sorting by criteria is a sort of positions. All columns are read first, at the original positions,
and a position precedes another if the first criterion that tells their values apart says so, or if
no criterion does and it comes first. There is only one way to arrange all positions so that each
precedes the next, and `Records.sortOn` returns the elements in that arrangement.

Ties need no comparison of their own: a merge sort by the criteria alone is a merge sort by the
criteria followed by the position (`sortedPositions_eq_compareLex`), and that is a strict order.

## Why positions

A column may look at the position of an element, so two equal elements may have different values,
and the order of two elements is not a relation between elements. Between positions it is one.
Elements are recovered from positions in the end (`Records.arranged`), and equal elements at
different positions stay distinguishable until then. That ties keep their order can only be said of
something that can be told apart.

The specification does not mention sorting. `Records.Precedes` is about two positions: the first
criterion that does not find their values equal finds the first of them less, or no criterion tells
them apart and the first one comes first. `Records.SortedInto` asks for an arrangement of all
positions in which each precedes the next, and for it to be the only one.

## Implementation notes

A list is sorted if each entry precedes the next. Together with transitivity this is the same as
that each precedes all later ones, and that form is used in proofs, while the weaker one is easier
to check and stands in the specification (`perm_isChain_iff`).

Rows that cannot be read have `null` in the place of the value (`Records.valueAt`), so that what
criteria compare at a position is a function. Nothing is stated about a sort whose columns cannot be
read except that it fails, so the choice of `null` is not visible.

All comparisons are assumed to be total preorders on the values of their columns
(`Records.Sortable`). By any other comparison a sort may return anything, see
`RecordQuery.Proofs.Sorting.Contract`.

## Main results

* `perm_isChain_iff` — the only arrangement of positions in which each precedes the next
* `Records.sortOn_eq_arranged` — a sort by criteria arranges positions
* `Records.sort_stable` — what all three sorts return
-/

namespace RecordQuery

/-! ### Arranging positions -/

section Positions

variable {n : ℕ} (cmp : Fin n → Fin n → Ordering)

/-- The positions in the order of a comparison. Positions that compare as equal keep their order. -/
def sortedPositions : List (Fin n) := (List.finRange n).mergeSort fun p q => (cmp p q).isLE

theorem sortedPositions_perm : (sortedPositions cmp).Perm (List.finRange n) :=
  List.mergeSort_perm _ _

variable [Std.TransCmp cmp]

/-- Sorting positions by a comparison breaks ties by the positions themselves. -/
theorem sortedPositions_eq_compareLex :
    sortedPositions cmp = sortedPositions (compareLex cmp compare) := by
  -- stability is a fact about elements paired with their indices, and a position is its own index
  have hzip : (List.finRange n).zipIdx = (List.finRange n).map fun p => (p, p.val) :=
    List.ext_getElem (by simp) fun i _ _ => by simp
  have htie : ∀ p q : Fin n, (compareLex cmp compare p q).isLE
      = List.zipIdxLE (fun p q => (cmp p q).isLE) (p, p.val) (q, q.val) := by
    intro p q
    have hswap : cmp q p = (cmp p q).swap := Std.OrientedCmp.eq_swap
    rw [compareLex, List.zipIdxLE, hswap]
    cases cmp p q with
    | lt => rfl
    | eq => exact Bool.eq_iff_iff.mpr (Nat.isLE_compare.trans decide_eq_true_iff.symm)
    | gt => rfl
  rw [sortedPositions, ← List.mergeSort_zipIdx, hzip,
    ← List.map_mergeSort fun p _ q _ => htie p q, List.map_map]
  exact List.map_id _

/-- No position comes after a later one. -/
theorem sortedPositions_pairwise_isLE :
    (sortedPositions cmp).Pairwise fun p q => (cmp p q).isLE := by
  refine @List.pairwise_mergeSort _ (fun p q => (cmp p q).isLE)
    (fun _ _ _ => Std.TransCmp.isLE_trans) (fun p q => ?_) _
  have hswap : cmp q p = (cmp p q).swap := Std.OrientedCmp.eq_swap
  rw [hswap]
  cases cmp p q <;> rfl

/-- Each position precedes all later ones, by the comparison or in a tie. -/
theorem sortedPositions_pairwise :
    (sortedPositions cmp).Pairwise fun p q => compareLex cmp compare p q = .lt := by
  have hsorted := sortedPositions_pairwise_isLE (compareLex cmp compare)
  rw [← sortedPositions_eq_compareLex] at hsorted
  have hdistinct : (sortedPositions cmp).Nodup :=
    (sortedPositions_perm cmp).nodup_iff.mpr (List.nodup_finRange n)
  refine List.Pairwise.imp₂ (fun p q hle hne => ?_) hsorted hdistinct
  rcases Ordering.isLE_iff_eq_lt_or_eq_eq.mp hle with hlt | heq
  · exact hlt
  · exact absurd (Std.LawfulEqCmp.eq_of_compare (compareLex_eq_eq.mp heq).2) hne

/-- **There is one arrangement of all positions in which each precedes the next**, and sorting finds
it. -/
theorem perm_isChain_iff {order : List (Fin n)} :
    order.Perm (List.finRange n) ∧ order.IsChain (fun p q => compareLex cmp compare p q = .lt)
      ↔ order = sortedPositions cmp := by
  have htrans : Trans (fun p q => compareLex cmp compare p q = .lt)
      (fun p q => compareLex cmp compare p q = .lt)
      (fun p q => compareLex cmp compare p q = .lt) := ⟨Std.TransCmp.lt_trans⟩
  constructor
  · rintro ⟨horder, hchain⟩
    refine List.Perm.eq_of_pairwise (fun p q _ _ hpq hqp => ?_)
      (List.isChain_iff_pairwise.mp hchain) (sortedPositions_pairwise cmp)
      (horder.trans (sortedPositions_perm cmp).symm)
    exact absurd hqp (Std.OrientedCmp.not_lt_of_lt hpq)
  · rintro rfl
    exact ⟨sortedPositions_perm cmp, (sortedPositions_pairwise cmp).isChain⟩

end Positions

namespace Records

variable (records : Records)

/-- The element at a position. -/
def get (p : Fin records.size) : Value := records.toList.get p

/-- What a criterion says about two positions: how it orders the values that its column has
there. -/
def verdict (criterion : Criterion) (p q : Fin records.size) : Except QueryError Ordering := do
  let a ← criterion.column.read (records.get p) p
  let b ← criterion.column.read (records.get q) q
  return criterion.compare a b

/-- One position precedes another: the first criterion that does not find them equal finds it less,
or all criteria find them equal and it comes first. -/
def Precedes (criteria : List Criterion) (p q : Fin records.size) : Prop :=
  (∃ earlier decisive later, criteria = earlier ++ decisive :: later
      ∧ (∀ criterion ∈ earlier, records.verdict criterion p q = .ok .eq)
      ∧ records.verdict decisive p q = .ok .lt)
    ∨ (∀ criterion ∈ criteria, records.verdict criterion p q = .ok .eq) ∧ p < q

/-- Criteria suit the records: their columns are read, and their comparisons are total preorders on
the values read. -/
def Sortable (criteria : List Criterion) : Prop :=
  ∀ criterion ∈ criteria, ∃ values, records.column criterion.column = .ok values
    ∧ TotalPreorderOn (criterion.comparison.getD Value.nativeOrder) values

/-- The elements in the order of some positions. -/
def arranged (order : List (Fin records.size)) : Records := ⟨order.map records.get⟩

/-- The records are sorted by criteria: they are arranged in the only order of all positions in
which each precedes the next. -/
def SortedInto (criteria : List Criterion) (sorted : Records) : Prop :=
  ∃ order : List (Fin records.size), sorted = records.arranged order
    ∧ ∀ other : List (Fin records.size),
      other.Perm (List.finRange records.size) ∧ other.IsChain (records.Precedes criteria)
        ↔ other = order

variable {records}

/-! ### Rows of values -/

/-- The value of a column at a position, `null` if the column cannot be read there. -/
def valueAt (records : Records) (c : Column) (p : Fin records.size) : Value :=
  (c.read (records.get p) p).toOption.getD .null

/-- The values that criteria compare at a position. -/
def rowAt (records : Records) (criteria : List Criterion) (p : Fin records.size) : List Value :=
  criteria.map fun criterion => records.valueAt criterion.column p

/-- How criteria order two positions: by their rows. -/
def compareAt (records : Records) (criteria : List Criterion) (p q : Fin records.size) : Ordering :=
  Criterion.compareRows criteria (records.rowAt criteria p) (records.rowAt criteria q)

theorem compareAt_cons (criterion : Criterion) (rest : List Criterion) :
    records.compareAt (criterion :: rest) = compareLex
      (fun p q => criterion.compare (records.valueAt criterion.column p)
        (records.valueAt criterion.column q))
      (records.compareAt rest) := rfl

theorem toList_eq_map_get : records.toList = (List.finRange records.size).map records.get :=
  (List.map_get_finRange records.toList).symm

theorem indexed_eq_map_get :
    records.indexed = (List.finRange records.size).map fun p => (records.get p, p.val) := by
  refine List.ext_getElem (by simp [indexed, size]) fun i hi _ => ?_
  have hpair : records.indexed[i] = (records.toList.get ⟨i, by simpa [indexed] using hi⟩, i) := by
    simp [indexed]
  rw [hpair, List.getElem_map, List.getElem_finRange]
  rfl

/-- A column that is read has its values at the positions. -/
theorem forall₂_of_column {c : Column} {values : List Value} (h : records.column c = .ok values) :
    List.Forall₂ (fun p value => c.read (records.get p) p.val = .ok value)
      (List.finRange records.size) values := by
  have hread := column_eq_ok_iff.mp h
  rw [indexed_eq_map_get, List.forall₂_map_left_iff] at hread
  exact hread

theorem column_eq_map_valueAt {c : Column} {values : List Value}
    (h : records.column c = .ok values) :
    values = (List.finRange records.size).map (records.valueAt c) := by
  have hvalues : List.Forall₂ (fun p value => records.valueAt c p = value)
      (List.finRange records.size) values := by
    refine (forall₂_of_column h).imp fun p value hread => ?_
    rw [valueAt, hread]
    rfl
  rw [← List.forall₂_map_left_iff, List.forall₂_eq_eq_eq] at hvalues
  exact hvalues.symm

/-- In a column that is read, every position is. -/
theorem read_of_column {c : Column} {values : List Value} (h : records.column c = .ok values)
    (p : Fin records.size) : c.read (records.get p) p.val = .ok (records.valueAt c p) := by
  have hread := forall₂_of_column h
  rw [column_eq_map_valueAt h, List.forall₂_map_right_iff, List.forall₂_same] at hread
  exact hread p (List.mem_finRange p)

/-- The columns of criteria have their values at the positions. -/
theorem mapM_column {criteria : List Criterion}
    (h : ∀ criterion ∈ criteria, ∃ values, records.column criterion.column = .ok values) :
    (criteria.mapM fun criterion => records.column criterion.column)
      = .ok (criteria.map fun criterion =>
        (List.finRange records.size).map (records.valueAt criterion.column)) := by
  rw [mapM_eq_ok_iff, List.forall₂_map_right_iff, List.forall₂_same]
  intro criterion hcriterion
  obtain ⟨values, hvalues⟩ := h criterion hcriterion
  rw [hvalues, column_eq_map_valueAt hvalues]

theorem rows_eq_map_rowAt (criteria : List Criterion) :
    rows records.size (criteria.map fun criterion =>
        (List.finRange records.size).map (records.valueAt criterion.column))
      = (List.finRange records.size).map (records.rowAt criteria) := by
  induction criteria with
  | nil =>
    show List.replicate records.size [] = (List.finRange records.size).map fun _ => []
    rw [List.map_const', List.length_finRange]
  | cons criterion rest ih =>
    show List.zipWith List.cons _ (rows records.size _) = _
    rw [ih, List.zipWith_map, List.zipWith_self]
    rfl

/-- What is sorted by criteria: each position's row, with the element there. -/
theorem zip_rows (criteria : List Criterion) :
    (rows records.size (criteria.map fun criterion =>
        (List.finRange records.size).map (records.valueAt criterion.column))).zip records.toList
      = (List.finRange records.size).map fun p => (records.rowAt criteria p, records.get p) := by
  rw [rows_eq_map_rowAt, toList_eq_map_get, List.zip_map']

/-- **A sort by criteria arranges positions** by comparing their rows. -/
theorem sortOn_eq_arranged {criteria : List Criterion} (hne : criteria ≠ [])
    (h : ∀ criterion ∈ criteria, ∃ values, records.column criterion.column = .ok values) :
    records.sortOn criteria
      = .ok (records.arranged (sortedPositions (records.compareAt criteria))) := by
  have hempty : criteria.isEmpty = false := by
    rw [List.isEmpty_eq_false_iff]
    exact hne
  rw [sortOn, hempty, mapM_column h]
  show Except.ok (Records.mk (List.map Prod.snd (List.mergeSort (List.zip _ _) _))) = _
  rw [zip_rows, ← List.map_mergeSort (r := fun p q => (records.compareAt criteria p q).isLE)
    fun _ _ _ _ => rfl, List.map_map]
  rfl

/-! ### The order of the rows -/

theorem precedes_nil {p q : Fin records.size} : records.Precedes [] p q ↔ p < q := by
  constructor
  · rintro (⟨earlier, decisive, later, h, _⟩ | ⟨_, h⟩)
    · exact absurd h.symm (by simp)
    · exact h
  · exact fun h => .inr ⟨by rintro _ ⟨⟩, h⟩

theorem precedes_cons {criterion : Criterion} {rest : List Criterion} {p q : Fin records.size} :
    records.Precedes (criterion :: rest) p q
      ↔ records.verdict criterion p q = .ok .lt
        ∨ records.verdict criterion p q = .ok .eq ∧ records.Precedes rest p q := by
  constructor
  · rintro (⟨_ | ⟨first, earlier⟩, decisive, later, h, htie, hlt⟩ | ⟨htie, hlt⟩)
    · cases h
      exact .inl hlt
    · cases h
      rw [List.forall_mem_cons] at htie
      exact .inr ⟨htie.1, .inl ⟨earlier, decisive, later, rfl, htie.2, hlt⟩⟩
    · rw [List.forall_mem_cons] at htie
      exact .inr ⟨htie.1, .inr ⟨htie.2, hlt⟩⟩
  · rintro (hlt | ⟨heq, ⟨earlier, decisive, later, rfl, htie, hlt⟩ | ⟨htie, hlt⟩⟩)
    · exact .inl ⟨[], criterion, rest, rfl, by rintro _ ⟨⟩, hlt⟩
    · exact .inl ⟨criterion :: earlier, decisive, later, rfl,
        List.forall_mem_cons.mpr ⟨heq, htie⟩, hlt⟩
    · exact .inr ⟨List.forall_mem_cons.mpr ⟨heq, htie⟩, hlt⟩

/-- A position precedes another if its row comes first, or if the rows tie and it comes first. -/
theorem precedes_iff {criteria : List Criterion}
    (h : ∀ criterion ∈ criteria, ∃ values, records.column criterion.column = .ok values)
    {p q : Fin records.size} :
    records.Precedes criteria p q
      ↔ compareLex (records.compareAt criteria) compare p q = .lt := by
  induction criteria with
  | nil =>
    rw [precedes_nil]
    exact Nat.compare_eq_lt.symm
  | cons criterion rest ih =>
    rw [List.forall_mem_cons] at h
    obtain ⟨⟨values, hvalues⟩, hrest⟩ := h
    have hverdict : records.verdict criterion p q
        = .ok (criterion.compare (records.valueAt criterion.column p)
          (records.valueAt criterion.column q)) := by
      rw [verdict, read_of_column hvalues, read_of_column hvalues]
      rfl
    rw [precedes_cons, hverdict, ih hrest, compareAt_cons]
    simp only [compareLex, Ordering.then_assoc, Ordering.then_eq_lt, Except.ok.injEq]

/-- Rows are compared transitively if the values of each column are. -/
theorem transCmp_compareAt {criteria : List Criterion} (h : records.Sortable criteria) :
    Std.TransCmp (records.compareAt criteria) := by
  induction criteria with
  | nil => exact { eq_swap := rfl, isLE_trans := fun _ _ => rfl }
  | cons criterion rest ih =>
    obtain ⟨⟨values, hvalues, hpreorder⟩, hrest⟩ := List.forall_mem_cons.mp h
    have hmem : ∀ p, records.valueAt criterion.column p ∈ values := by
      intro p
      rw [column_eq_map_valueAt hvalues]
      exact List.mem_map_of_mem (List.mem_finRange p)
    have hbase := hpreorder.transCmp hmem
    have hcompare : Std.TransCmp fun p q => criterion.compare
        (records.valueAt criterion.column p) (records.valueAt criterion.column q) :=
      criterion.direction.transCmp_apply _
    have hlater := ih hrest
    rw [compareAt_cons]
    infer_instance

/-! ### The sorts -/

theorem column_itself : records.column .itself = .ok records.toList := by
  rw [column_eq_ok_iff, indexed_eq_map_get, toList_eq_map_get, List.forall₂_map_left_iff,
    List.forall₂_map_right_iff, List.forall₂_same]
  exact fun _ _ => rfl

/-- Sorting by a comparison is sorting by one criterion, which compares the elements themselves. -/
theorem sortOn_itself (comparison : Option (Value → Value → Ordering)) :
    records.sortOn [⟨.itself, comparison, .ascending⟩]
      = .ok (records.sortWith (comparison.getD Value.nativeOrder)) := by
  have hcompare : ∀ p q : Fin records.size,
      records.compareAt [⟨.itself, comparison, .ascending⟩] p q
        = (comparison.getD Value.nativeOrder) (records.get p) (records.get q) :=
    fun _ _ => Ordering.then_eq
  rw [sortOn_eq_arranged (List.cons_ne_nil _ _)
    (List.forall_mem_singleton.mpr ⟨_, column_itself⟩), sortWith, toList_eq_map_get,
    ← List.map_mergeSort fun p _ q _ => congrArg Ordering.isLE (hcompare p q)]
  rfl

theorem sortOn_sortedInto {criteria : List Criterion} (hne : criteria ≠ [])
    (h : records.Sortable criteria) :
    ∃ sorted, records.sortOn criteria = .ok sorted ∧ records.SortedInto criteria sorted := by
  have hread : ∀ criterion ∈ criteria, ∃ values, records.column criterion.column = .ok values := by
    intro criterion hcriterion
    obtain ⟨values, hvalues, _⟩ := h criterion hcriterion
    exact ⟨values, hvalues⟩
  have htrans := transCmp_compareAt h
  have hprecedes : records.Precedes criteria
      = fun p q => compareLex (records.compareAt criteria) compare p q = .lt := by
    funext p q
    exact propext (precedes_iff hread)
  refine ⟨_, sortOn_eq_arranged hne hread, _, rfl, fun other => ?_⟩
  rw [hprecedes]
  exact perm_isChain_iff (records.compareAt criteria)

/-- Sorting by a comparison sorts by it, if it is a total preorder on the elements. -/
theorem sortWith_sortedInto (comparison : Option (Value → Value → Ordering))
    (h : TotalPreorderOn (comparison.getD Value.nativeOrder) records.toList) :
    records.SortedInto [⟨.itself, comparison, .ascending⟩]
      (records.sortWith (comparison.getD Value.nativeOrder)) := by
  have hsortable : records.Sortable [⟨.itself, comparison, .ascending⟩] :=
    List.forall_mem_singleton.mpr ⟨records.toList, column_itself, h⟩
  obtain ⟨sorted, hsorted, hinto⟩ := sortOn_sortedInto (List.cons_ne_nil _ _) hsortable
  rw [sortOn_itself] at hsorted
  cases hsorted
  exact hinto

/-- **Sorting is the stable lexicographic sort.** A sort by criteria that suit the records returns
the elements in the only order of their positions in which each precedes the next. The sorts without
criteria compare the elements themselves, as given or in the native order, which suits all values of
one kind, `null` among them or not. -/
theorem sort_stable (records : Records) :
    (∀ criteria : List Criterion, criteria ≠ [] → records.Sortable criteria →
      ∃ sorted, records.sortOn criteria = .ok sorted ∧ records.SortedInto criteria sorted)
    ∧ (∀ comparison, TotalPreorderOn comparison records.toList →
      records.SortedInto [⟨.itself, some comparison, .ascending⟩] (records.sortWith comparison))
    ∧ (TotalPreorderOn Value.nativeOrder records.toList →
      records.SortedInto [.on .itself .ascending] records.sort)
    ∧ ∀ values, Uniform values → TotalPreorderOn Value.nativeOrder values :=
  ⟨fun _ => sortOn_sortedInto, fun comparison => sortWith_sortedInto (some comparison),
    sortWith_sortedInto none, fun _ => totalPreorderOn_nativeOrder⟩

/-- Each way to precede occurs: by the first criterion, by the second, and by position. -/
theorem sort_stable_by_two_columns :
    let row (n : Int) (s : String) : Value := .obj [("n", .int n), ("s", .str s)]
    let records : Records := ⟨[row 1 "b", row 2 "a", row 1 "a", row 1 "a"]⟩
    let criteria : List Criterion :=
      [.on (.dotted "n") .descending, .on (.dotted "s") .ascending]
    let texts : Records := ⟨[.str "b", .null, .str "a"]⟩
    criteria ≠ [] ∧ records.Sortable criteria
      ∧ records.sortOn criteria = .ok ⟨[row 2 "a", row 1 "a", row 1 "a", row 1 "b"]⟩
      ∧ TotalPreorderOn Value.nativeOrder texts.toList
      ∧ texts.SortedInto [.on .itself .ascending] texts.sort
      ∧ texts.SortedInto [⟨.itself, some Value.nativeOrder, .ascending⟩]
        (texts.sortWith Value.nativeOrder) := by
  intro row records criteria texts
  obtain ⟨hon, -, -, huniform⟩ := sort_stable records
  have hnumbers : Uniform [.int 1, .int 2, .int 1, .int 1] :=
    .inr (.inr (.inl (by simp [Value.int, Num.exactBound])))
  have hstrings : Uniform [.str "b", .str "a", .str "a", .str "a"] := .inl (by simp)
  have hsortable : records.Sortable criteria := List.forall_mem_cons.mpr
    ⟨⟨_, rfl, huniform _ hnumbers⟩, List.forall_mem_singleton.mpr ⟨_, rfl, huniform _ hstrings⟩⟩
  have hne : criteria ≠ [] := List.cons_ne_nil _ _
  obtain ⟨sorted, hsorted, order, rfl, honly⟩ := hon criteria hne hsortable
  have horder : ([1, 2, 3, 0] : List (Fin 4)) = order := by
    refine (honly _).mp ⟨?_, ?_⟩
    · show List.Perm ([1, 2, 3, 0] : List (Fin 4)) (List.finRange 4)
      decide
    · have hfirst : records.Precedes criteria (1 : Fin 4) (2 : Fin 4) :=
        .inl ⟨[], _, _, rfl, List.forall_mem_nil _, rfl⟩
      have htie : records.Precedes criteria (2 : Fin 4) (3 : Fin 4) :=
        .inr ⟨List.forall_mem_cons.mpr ⟨rfl, List.forall_mem_singleton.mpr rfl⟩, by decide⟩
      have hsecond : records.Precedes criteria (3 : Fin 4) (0 : Fin 4) :=
        .inl ⟨[_], _, _, rfl, List.forall_mem_singleton.mpr rfl, rfl⟩
      exact .cons_cons hfirst (.cons_cons htie (.cons_cons hsecond (.singleton _)))
  have htexts := huniform texts.toList (.inl (by simp [texts]))
  obtain ⟨-, hwith, hsort, -⟩ := sort_stable texts
  refine ⟨hne, hsortable, ?_, htexts, hsort htexts, hwith _ htexts⟩
  rw [hsorted, ← horder]
  rfl

end Records

end RecordQuery
