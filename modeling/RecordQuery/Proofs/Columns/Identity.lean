import RecordQuery.Proofs.Columns.Outcome
import RecordQuery.Proofs.Sorting.Stable

/-!
# Columns that return the elements

Two columns return every element as it is: the one that is called so, and the path that is a single
dot. An operation on such a column does what the operation without a column does. The two are
written apart: one works on the elements, the other reads a column first, which might fail, and it
sorts pairs of rows and elements instead of elements.

## What decides it

All operations but two are functions of the values of the column, and these are the elements. An
intersection reads the column of the other records as well, and there, too, the values are the
elements. For sorting the values do not decide it at once, since a sort by criteria compares rows.
There it is the specification that decides: both sorts return the only arrangement in which each
position precedes the next, and what precedes what depends on the values alone. This takes the
native order to be a total preorder on the elements. On others, nothing specifies a sort.

## Why they are written apart

An operation without a column cannot fail, and it returns its result where the other returns an
outcome. That the two agree is therefore an equation between an outcome and a result: on such a
column the outcome is `.ok` of the result. For actions it is an equation between computations in
every lawful monad, with the action lifted, so that the calls and their order are part of it.

## Implementation notes

`Column.isIdentity` is a truth value, and the lemmas about single operations take it as their
hypothesis. Which columns have it is said once (`Column.isIdentity_iff`). It asks what a column is
and not what it returns: a function that returns every element as it is does not have it, although
all that is shown here would hold of it, too.

## Main results

* `Column.read_of_isIdentity` — the columns that return the elements
* `Records.SortedInto.unique` — there is one way to be sorted
* `Records.operations_on_identity` — each operation on such a column is the one without a column
-/

namespace RecordQuery

namespace Column

variable {c : Column}

theorem isIdentity_iff : c.isIdentity = true ↔ c = .itself ∨ c = .dotted "." := by
  constructor
  · intro h
    cases c with
    | itself => exact .inl rfl
    | path p =>
      have htext : p.text = "." := by simpa [isIdentity, DotPath.isIdentity] using h
      exact .inr (congrArg dotted htext)
    | computed f => cases h
  · rintro (rfl | rfl) <;> rfl

/-- **A column that returns the elements can be read in all of them.** -/
theorem read_of_isIdentity (h : c.isIdentity = true) (element : Value) (position : Nat) :
    c.read element position = .ok element := by
  rcases isIdentity_iff.mp h with rfl | rfl <;> rfl

end Column

namespace Records

variable {records : Records} {c : Column}

theorem column_of_isIdentity (records : Records) (h : c.isIdentity = true) :
    records.column c = .ok records.toList := by
  have hread : (fun (entry : Value × Nat) => c.read entry.1 entry.2)
      = fun entry => Column.itself.read entry.1 entry.2 := by
    funext entry
    exact Column.read_of_isIdentity h entry.1 entry.2
  rw [← column_itself]
  exact congrArg records.indexed.mapM hread

theorem keysOn_of_isIdentity (records : Records) (h : c.isIdentity = true) :
    records.keysOn c = .ok records.keys := by
  rw [keysOn_eq_map, column_of_isIdentity records h]
  rfl

theorem toEntriesOn_of_isIdentity (records : Records) (h : c.isIdentity = true) :
    records.toEntriesOn c = .ok records.toEntries := by
  rw [toEntriesOn, keysOn_of_isIdentity records h]
  rfl

/-- All operands of an intersection are read, and none of them fails. -/
theorem commonOn_of_isIdentity (records : Records) (h : c.isIdentity = true)
    (others : List Records) : records.commonOn c others = .ok (records.common others) := by
  have hstep : (fun (entries : Entries Value) (other : Records) =>
        (do return restrict entries (← other.keysOn c) : Except QueryError (Entries Value)))
      = fun entries other => pure (restrict entries other.keys) := by
    funext entries other
    rw [keysOn_of_isIdentity other h]
    rfl
  rw [commonOn, toEntriesOn_of_isIdentity records h, hstep]
  show (others.foldlM _ _ >>= fun kept => Except.ok (Records.mk (Entries.values kept))) = _
  rw [List.foldlM_pure]
  rfl

/-! ### Sorting -/

theorem SortedInto.unique {criteria : List Criterion} {sorted sorted' : Records}
    (h : records.SortedInto criteria sorted) (h' : records.SortedInto criteria sorted') :
    sorted = sorted' := by
  obtain ⟨order, rfl, honly⟩ := h
  obtain ⟨order', rfl, honly'⟩ := h'
  rw [(honly' order).mp ((honly order).mpr rfl)]

theorem verdict_of_isIdentity (h : c.isIdentity = true) (direction : Direction)
    (p q : Fin records.size) :
    records.verdict (.on c direction) p q
      = .ok (direction.apply (Value.nativeOrder (records.get p) (records.get q))) := by
  have hread := fun p : Fin records.size => Column.read_of_isIdentity h (records.get p) p
  rw [verdict, Criterion.on, hread p, hread q]
  rfl

/-- What precedes what depends on the values that are compared, and on the column for nothing
else. -/
theorem precedes_of_isIdentity (h : c.isIdentity = true) (direction : Direction) :
    records.Precedes [.on c direction] = records.Precedes [.on .itself direction] := by
  funext p q
  rw [eq_iff_iff, precedes_cons, precedes_cons, verdict_of_isIdentity h, verdict_of_isIdentity rfl]

/-- A sort by the elements themselves is the sort without criteria, if sorting is specified. -/
theorem sortOn_of_isIdentity (h : c.isIdentity = true)
    (horder : TotalPreorderOn Value.nativeOrder records.toList) :
    records.sortOn [.on c .ascending] = .ok records.sort := by
  have hsortable : records.Sortable [.on c .ascending] :=
    List.forall_mem_singleton.mpr ⟨records.toList, column_of_isIdentity records h, horder⟩
  obtain ⟨sorted, hsorted, hinto⟩ := sortOn_sortedInto (List.cons_ne_nil _ _) hsortable
  have hsort : records.SortedInto [.on c .ascending] records.sort := by
    rw [SortedInto, precedes_of_isIdentity h]
    exact sortWith_sortedInto none horder
  rw [hsorted, hinto.unique hsort]

/-! ### All operations -/

/-- **An operation on a column that returns the elements is the operation without a column.** None
fails. Means and sums have the same bits, and an action is run on the same values. -/
theorem operations_on_identity (hc : c = .itself ∨ c = .dotted ".") (records : Records) :
    records.dedupOn c = .ok records.dedup
    ∧ records.toEntriesOn c = .ok records.toEntries
    ∧ (∀ others, records.commonOn c others = .ok (records.common others))
    ∧ records.sumOn c = .ok records.sum
    ∧ records.meanOn c = .ok records.mean
    ∧ (∀ {β : Type} (step : β → Value → β) (initial : β),
      records.foldlOn c step initial = .ok (records.foldl step initial))
    ∧ (∀ {m : Type → Type} [Monad m] [LawfulMonad m] (action : Value → Nat → m Unit),
      records.forEachOn c action = ExceptT.lift (records.forEach action))
    ∧ (TotalPreorderOn Value.nativeOrder records.toList →
      records.sortOn [] = .ok records.sort
        ∧ records.sortOn [.on c .ascending] = .ok records.sort) := by
  have h := Column.isIdentity_iff.mpr hc
  have hcolumn := column_of_isIdentity records h
  refine ⟨?_, toEntriesOn_of_isIdentity records h, commonOn_of_isIdentity records h, ?_, ?_, ?_,
    fun action => ?_, fun horder => ⟨rfl, sortOn_of_isIdentity h horder⟩⟩
  · rw [dedupOn, toEntriesOn_of_isIdentity records h]
    rfl
  · rw [sumOn_eq_map, hcolumn]
    rfl
  · rw [meanOn_eq_map, hcolumn]
    rfl
  · intro β step initial
    rw [foldlOn_eq_map, hcolumn]
    rfl
  · have hrun := run_forEachOn_of_column hcolumn action
    rw [← map_eq_pure_bind] at hrun
    exact hrun

/-- Texts with a repetition and a `null` among them, by the dot. -/
theorem operations_on_identity_texts :
    let records : Records := ⟨[.str "b", .null, .str "a", .str "b"]⟩
    let others : List Records := [⟨[.str "a", .int 1, .null]⟩]
    let log (value : Value) (position : Nat) : StateM (List (Value × Nat)) Unit :=
      modify (· ++ [(value, position)])
    (Column.dotted "." = .itself ∨ Column.dotted "." = .dotted ".")
      ∧ records.dedupOn (.dotted ".") = .ok ⟨[.str "b", .null, .str "a"]⟩
      ∧ records.commonOn (.dotted ".") others = .ok ⟨[.null, .str "a"]⟩
      ∧ records.foldlOn (.dotted ".") (fun count _ => count + 1) 0 = .ok 4
      ∧ (records.forEachOn (.dotted ".") log).run.run []
        = (.ok (), [(.str "b", 0), (.null, 1), (.str "a", 2), (.str "b", 3)])
      ∧ TotalPreorderOn Value.nativeOrder records.toList
      ∧ records.sortOn [.on (.dotted ".") .ascending] = .ok records.sort := by
  intro records others log
  have hdot : Column.dotted "." = .itself ∨ Column.dotted "." = .dotted "." := .inr rfl
  obtain ⟨hdedup, -, hcommon, -, -, hfold, heach, hsort⟩ := operations_on_identity hdot records
  have horder : TotalPreorderOn Value.nativeOrder records.toList :=
    totalPreorderOn_nativeOrder (.inl (by simp [records]))
  refine ⟨hdot, hdedup.trans rfl, (hcommon others).trans rfl, hfold _ _, ?_, horder,
    (hsort horder).2⟩
  rw [heach log]
  rfl

end Records

end RecordQuery
