import RecordQuery.Proofs.Sorting.Filtered

/-!
# Descending sorts

A descending criterion flips its comparison. That is not the same as reversing the outcome of an
ascending sort, which would turn ties around as well. Turned around twice, before the sort and after
it, ties stand as they did: a descending sort is an ascending one seen in a mirror, where what is
sorted lies in the mirror too.

In both directions a sort leaves the elements that are level with one another in the order in which
they came.

## Why the mirror is on both sides

Reversing what an ascending sort returns puts the greatest first, but it also puts the last of
several ties first. If the records are reversed before the sort, the last of the ties comes first
there, and reversing the outcome brings the first one back to the front. So the two reversals cancel
where nothing decides, and only the comparison is turned around.

Both sorts are specified by the same condition, since a comparison is a total preorder exactly if it
is one the other way round. No condition on ties is needed: there may be any number of them.

## What is level

That a sort leaves ties in order is said for each element by itself: those that are level with it
are the same list before and after the sort. An element is level with itself, so this covers all
elements, and the classes need no names. It is the form in which stability is used by someone who
looks at one group of equal rows and does not care about the others.

## Implementation notes

Both laws are proved for positions, where they are statements about the one arrangement, and carried
to elements by `mergeSort_eq_map_sortedPositions`. The comparison may be the native order or one
that is given from outside.

## Main results

* `sortedPositions_swap`, `mergeSort_swap` — sorting by a flipped comparison, in a mirror
* `filter_mergeSort_level` — sorting does not touch the order of what is level
* `Records.sortOn_descending` — descending sorts of records
-/

namespace RecordQuery

/-- What is level is so in both directions. -/
theorem Direction.apply_beq_eq (direction : Direction) (order : Ordering) :
    (direction.apply order == .eq) = (order == .eq) := by
  cases direction <;> cases order <;> rfl

/-! ### Lists -/

/-- **Sorting positions by a flipped comparison is sorting them in a mirror.** The mirror gives ties
to the later position, and turned around this is the earlier one. -/
theorem sortedPositions_swap {n : ℕ} (cmp : Fin n → Fin n → Ordering) [Std.TransCmp cmp] :
    sortedPositions (fun p q => (cmp p q).swap)
      = ((List.finRange n).reverse.mergeSort fun p q => (cmp p q).isLE).reverse := by
  have hflipped : Std.TransCmp fun p q => (cmp p q).swap :=
    Direction.descending.transCmp_apply cmp
  have hdown : (List.finRange n).reverse.Pairwise fun p q => q < p :=
    List.pairwise_reverse.mpr (List.pairwise_lt_finRange n)
  have hsorted : ((List.finRange n).reverse.mergeSort fun p q => (cmp p q).isLE).Pairwise
      fun p q => compareLex (fun p q => (cmp p q).swap) compare q p = .lt := by
    refine (pairwise_mergeSort_tie hdown).imp fun {p q} h => ?_
    have hswap : (cmp q p).swap = cmp p q := Std.OrientedCmp.eq_swap.symm
    show (cmp q p).swap.then (compare q p) = .lt
    rw [hswap, Ordering.then_eq_lt]
    exact h.imp_right fun ⟨heq, hlt⟩ => ⟨heq, Nat.compare_eq_lt.mpr hlt⟩
  refine ((perm_isChain_iff _).mp ⟨?_, (List.pairwise_reverse.mpr hsorted).isChain⟩).symm
  calc ((List.finRange n).reverse.mergeSort fun p q => (cmp p q).isLE).reverse
    _ |>.Perm ((List.finRange n).reverse.mergeSort fun p q => (cmp p q).isLE) :=
      List.reverse_perm _
    _ |>.Perm (List.finRange n).reverse := List.mergeSort_perm _ _
    _ |>.Perm (List.finRange n) := List.reverse_perm _

section

variable {α : Type} {cmp : α → α → Ordering} {xs : List α}

theorem mergeSort_swap (h : Std.TransCmp fun i j : Fin xs.length => cmp (xs.get i) (xs.get j)) :
    (xs.mergeSort fun a b => (cmp a b).swap.isLE)
      = (xs.reverse.mergeSort fun a b => (cmp a b).isLE).reverse := by
  calc (xs.mergeSort fun a b => (cmp a b).swap.isLE)
    _ = ((((List.finRange xs.length).reverse).mergeSort
        fun i j => (cmp (xs.get i) (xs.get j)).isLE).reverse).map xs.get := by
      rw [mergeSort_eq_map_sortedPositions fun a b => (cmp a b).swap, sortedPositions_swap]
    _ = (xs.reverse.mergeSort fun a b => (cmp a b).isLE).reverse := by
      rw [List.map_reverse, List.map_mergeSort (s := fun a b => (cmp a b).isLE) fun _ _ _ _ => rfl,
        List.map_reverse, List.map_get_finRange]

theorem pairwise_mergeSort_isLE
    (h : Std.TransCmp fun i j : Fin xs.length => cmp (xs.get i) (xs.get j)) :
    (xs.mergeSort fun a b => (cmp a b).isLE).Pairwise fun a b => (cmp a b).isLE = true := by
  rw [mergeSort_eq_map_sortedPositions]
  exact List.pairwise_map.mpr (sortedPositions_pairwise_isLE _)

/-- What is level with a third element is level with one another. -/
theorem level_of_level (h : Std.TransCmp fun i j : Fin xs.length => cmp (xs.get i) (xs.get j))
    {a b element : α} (ha : a ∈ xs) (hb : b ∈ xs) (helement : element ∈ xs)
    (hlevelA : cmp a element = .eq) (hlevelB : cmp b element = .eq) : cmp a b = .eq := by
  obtain ⟨i, rfl⟩ := List.mem_iff_get.mp ha
  obtain ⟨j, rfl⟩ := List.mem_iff_get.mp hb
  obtain ⟨k, rfl⟩ := List.mem_iff_get.mp helement
  have hback : cmp (xs.get k) (xs.get j) = .eq :=
    @Std.OrientedCmp.eq_symm _ _ h.toOrientedCmp j k hlevelB
  exact @Std.TransCmp.eq_trans _ _ h i k j hlevelA hback

/-- **Sorting does not touch the order of what is level.** -/
theorem filter_mergeSort_level
    (h : Std.TransCmp fun i j : Fin xs.length => cmp (xs.get i) (xs.get j)) {element : α}
    (helement : element ∈ xs) :
    ((xs.mergeSort fun a b => (cmp a b).isLE).filter fun a => cmp a element == .eq)
      = xs.filter fun a => cmp a element == .eq := by
  have hsorted : (xs.filter fun a => cmp a element == .eq).Pairwise
      fun a b => (cmp a b).isLE = true := by
    refine List.pairwise_of_forall_mem_list fun a ha b hb => ?_
    obtain ⟨hamem, halevel⟩ := List.mem_filter.mp ha
    obtain ⟨hbmem, hblevel⟩ := List.mem_filter.mp hb
    rw [level_of_level h hamem hbmem helement (beq_iff_eq.mp halevel) (beq_iff_eq.mp hblevel)]
    rfl
  rw [filter_mergeSort h, List.mergeSort_of_pairwise hsorted]

end

/-! ### Records -/

namespace Records

variable {records : Records} {c : Column} {comparison : Option (Value → Value → Ordering)}

/-- How a comparison orders two elements by a column. -/
def compareBy (c : Column) (comparison : Option (Value → Value → Ordering)) (a b : Value) :
    Ordering :=
  (comparison.getD Value.nativeOrder) (c.valueIn a) (c.valueIn b)

theorem compareElements_one (direction : Direction) :
    Criterion.compareElements [⟨c, comparison, direction⟩]
      = fun a b => direction.apply (compareBy c comparison a b) :=
  funext fun _ => funext fun _ => Ordering.then_eq

/-- Elements are ordered by a column transitively if its values are. -/
theorem transCmp_compareBy (hc : c.Positionless) {values : List Value}
    (hvalues : records.column c = .ok values)
    (hpreorder : TotalPreorderOn (comparison.getD Value.nativeOrder) values) :
    Std.TransCmp fun i j : Fin records.toList.length =>
      compareBy c comparison (records.toList.get i) (records.toList.get j) := by
  have htrans : Std.TransCmp (records.compareAt [⟨c, comparison, .ascending⟩]) :=
    transCmp_compareAt (List.forall_mem_singleton.mpr ⟨values, hvalues, hpreorder⟩)
  have hcompare : records.compareAt [⟨c, comparison, .ascending⟩]
      = fun i j => compareBy c comparison (records.toList.get i) (records.toList.get j) := by
    funext i j
    rw [compareAt_eq_compareElements (List.forall_mem_singleton.mpr hc), compareElements_one]
    rfl
  rwa [hcompare] at htrans

theorem sortOn_one_eq_mergeSort (hc : c.Positionless)
    (hread : ∃ values, records.column c = .ok values) (direction : Direction) :
    records.sortOn [⟨c, comparison, direction⟩] = .ok ⟨records.toList.mergeSort fun a b =>
      (direction.apply (compareBy c comparison a b)).isLE⟩ := by
  rw [sortOn_eq_mergeSort (List.cons_ne_nil _ _) (List.forall_mem_singleton.mpr hc)
    (List.forall_mem_singleton.mpr hread), compareElements_one]

/-- **A descending sort is an ascending one in a mirror**: the records are turned around before it
and after it. In both directions the elements are sorted, and those that are level with one another
stay in order. -/
theorem sortOn_descending (records : Records) (c : Column)
    (comparison : Option (Value → Value → Ordering)) (hc : c.Positionless) {values : List Value}
    (hvalues : records.column c = .ok values)
    (hpreorder : TotalPreorderOn (comparison.getD Value.nativeOrder) values) :
    (∃ mirrored, records.reverse.sortOn [⟨c, comparison, .ascending⟩] = .ok mirrored
        ∧ records.sortOn [⟨c, comparison, .descending⟩] = .ok mirrored.reverse)
      ∧ ∀ direction, ∃ sorted, records.sortOn [⟨c, comparison, direction⟩] = .ok sorted
        ∧ sorted.toList.Perm records.toList
        ∧ sorted.toList.Pairwise
          (fun a b => (direction.apply (compareBy c comparison a b)).isLE = true)
        ∧ ∀ element ∈ records.toList,
          let level : Value → Bool := fun other => compareBy c comparison other element == .eq
          sorted.toList.filter level = records.toList.filter level := by
  have htrans := transCmp_compareBy hc hvalues hpreorder
  have hperm : records.reverse.toList.Perm records.toList := List.reverse_perm _
  have hmirror := (exists_column_iff_of_perm hperm hc).mpr ⟨values, hvalues⟩
  refine ⟨⟨_, sortOn_one_eq_mergeSort hc hmirror .ascending, ?_⟩, fun direction => ?_⟩
  · rw [sortOn_one_eq_mergeSort hc ⟨values, hvalues⟩]
    exact congrArg (fun elements => Except.ok (Records.mk elements)) (mergeSort_swap htrans)
  · let directed : Value → Value → Ordering := fun a b =>
      direction.apply (compareBy c comparison a b)
    have hdirected : Std.TransCmp fun i j : Fin records.toList.length =>
        directed (records.toList.get i) (records.toList.get j) := direction.transCmp_apply _
    refine ⟨_, sortOn_one_eq_mergeSort hc ⟨values, hvalues⟩ direction, List.mergeSort_perm _ _,
      pairwise_mergeSort_isLE hdirected, fun element helement => ?_⟩
    intro level
    have hlevel : level = fun other => directed other element == .eq :=
      funext fun other => (Direction.apply_beq_eq direction _).symm
    rw [hlevel]
    exact filter_mergeSort_level hdirected helement

/-- The first and the last of three records tie. Sorted descending they stay in order, which
reversing the ascending outcome would not give. -/
theorem sortOn_descending_tie :
    let row (n : Int) (id : Int) : Value := .obj [("id", .int id), ("n", .int n)]
    let records : Records := ⟨[row 1 0, row 2 1, row 1 2]⟩
    let c : Column := .dotted "n"
    c.Positionless ∧ records.column c = .ok [.int 1, .int 2, .int 1]
      ∧ TotalPreorderOn Value.nativeOrder [.int 1, .int 2, .int 1]
      ∧ records.sortOn [.on c .descending] = .ok ⟨[row 2 1, row 1 0, row 1 2]⟩ := by
  intro row records c
  have hc : c.Positionless := Column.positionless_path _
  have hpreorder : TotalPreorderOn Value.nativeOrder [.int 1, .int 2, .int 1] :=
    totalPreorderOn_nativeOrder (.inr (.inr (.inl (by simp [Value.int, Num.exactBound]))))
  have hreversed : TotalPreorderOn Value.nativeOrder
      ([.int 1, .int 2, .int 1] : List Value).reverse := hpreorder
  have hcolumn : records.reverse.column c = .ok ([.int 1, .int 2, .int 1] : List Value).reverse :=
    rfl
  have htrans : Std.TransCmp (records.reverse.compareAt [.on c .ascending]) :=
    transCmp_compareAt (List.forall_mem_singleton.mpr ⟨_, hcolumn, hreversed⟩)
  have horder : ([0, 2, 1] : List (Fin 3))
      = sortedPositions (records.reverse.compareAt [.on c .ascending]) := by
    refine (perm_isChain_iff (records.reverse.compareAt [.on c .ascending])).mp ⟨?_, ?_⟩
    · show List.Perm ([0, 2, 1] : List (Fin 3)) (List.finRange 3)
      decide
    · exact .cons_cons rfl (.cons_cons rfl (.singleton _))
  have hascending : records.reverse.sortOn [.on c .ascending]
      = .ok ⟨[row 1 2, row 1 0, row 2 1]⟩ := by
    rw [sortOn_eq_arranged (List.cons_ne_nil _ _) (List.forall_mem_singleton.mpr ⟨_, hcolumn⟩),
      ← horder]
    rfl
  obtain ⟨⟨mirrored, hmirrored, hdescending⟩, -⟩ :=
    sortOn_descending records c none hc rfl hpreorder
  cases hascending.symm.trans hmirrored
  exact ⟨hc, rfl, hpreorder, hdescending⟩

end Records

end RecordQuery
