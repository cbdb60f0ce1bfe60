import RecordQuery.Proofs.Conditions.Shapes

/-!
# The operand that decides

Conjunctions, disjunctions, requirements per field, literals for several columns, quantifiers and
searches through records go through a list of operands and ask each of them a question. They differ
in what an operand is, in what is asked, and in which answer lets them go on. They agree in the
rest: the first operand that does not give this answer decides, because it gives the other one or
because it fails, and no operand behind it is asked anything.

To say that something is not asked, a query has to leave traces. Here its predicates may read and
change a state of any type. An operand is asked in the state that the operands before it leave, and
the run ends in the state that the deciding one leaves. Nothing behind it can have had a part in
that, whatever the state keeps: a record of all questions is one such state.

All of this follows from what a loop does in one step (`Stepwise`): without operands it is done, and
a first operand is asked and then either decides or leaves the others to the rest of the loop.

## Why the loop is a parameter

The loops are written with different functions on lists, some with positions and some without, and
some process the outcome of another loop. Nine inductions on operands would prove one fact nine
times. `Stepwise` names what the functions have in common, and the induction is made once, in
`Stepwise.stopsAtDecider`. What is left for each loop is to unfold one step, and for those that
process an outcome to carry the statement over (`StopsAtDecider.map`).

The position of the first operand is a parameter as well. What is left of a loop after one step asks
its operands at positions that do not begin at zero, so the induction is about loops begun anywhere.

## Implementation notes

The first field of `StopsAtDecider` is about the operands alone: either all of them let a loop go
on, or there is a first one that does not. With it the other two fields say what the loop does on
every list and in every state, and not only in two cases that might never occur.

The deciding operand is one whose answer is anything but the one on which the loop goes on. So a
failure decides, and the loop ends with it; this needs no case of its own.

## Main definitions

* `Query.runFrom` — what a query returns from a state, and the state it leaves
* `Passes` — all operands give the answer that lets a loop go on
* `Stepwise` — what a loop does with its first operand
* `StopsAtDecider` — what a loop does with all its operands

## Main results

* `Stepwise.stopsAtDecider` — a loop that asks one operand at a time stops at the deciding one
* `loops_stop_at_decider` — the loops in conditions, quantifiers and searches
-/

namespace RecordQuery

variable {σ ι α β : Type}

/-! ### Runs -/

namespace Query

/-- What a query returns when it begins in a state, and the state that it leaves. -/
def runFrom (query : Query (StateM σ) α) (s : σ) : Except QueryError α × σ :=
  (ExceptT.run query).run s

variable {query : Query (StateM σ) α} {s t : σ}

/-- After a first step that succeeds, the second begins in the state it leaves. -/
theorem runFrom_bind_of_ok {a : α} (h : query.runFrom s = (.ok a, t))
    (next : α → Query (StateM σ) β) : (query >>= next).runFrom s = (next a).runFrom t := by
  have hrun : (ExceptT.run query).run s = (.ok a, t) := h
  rw [runFrom, ExceptT.run_bind, StateT.run_bind, hrun]
  rfl

/-- After a first step that fails, there is no second. -/
theorem runFrom_bind_of_error {e : QueryError} (h : query.runFrom s = (.error e, t))
    (next : α → Query (StateM σ) β) : (query >>= next).runFrom s = (.error e, t) := by
  have hrun : (ExceptT.run query).run s = (.error e, t) := h
  rw [runFrom, ExceptT.run_bind, StateT.run_bind, hrun]
  rfl

/-- What is done with the outcome does not change the state. -/
theorem runFrom_map {outcome : Except QueryError α} (h : query.runFrom s = (outcome, t))
    (f : α → β) : (f <$> query).runFrom s = (f <$> outcome, t) := by
  rw [map_eq_pure_bind]
  cases outcome with
  | ok a => exact runFrom_bind_of_ok h _
  | error e => exact runFrom_bind_of_error h _

end Query

/-! ### Loops over operands -/

section Loops

variable (ask : ι → Nat → Query (StateM σ) Bool) (go : Bool)

/-- Asked one after the other, all operands give the answer on which a loop goes on. This leads from
one state to another. The first operand is at position `start`. -/
inductive Passes : Nat → List ι → σ → σ → Prop
  | nil {start : Nat} {s : σ} : Passes start [] s s
  | cons {start : Nat} {x : ι} {rest : List ι} {s t u : σ} :
    (ask x start).runFrom s = (.ok go, t) → Passes (start + 1) rest t u →
      Passes start (x :: rest) s u

/-- A loop asks one operand at a time. Begun at any position, it has its outcome if there are no
operands, and otherwise the first one decides or lets it go on with the others. -/
structure Stepwise (passed : α) (decided : ι → α) (loop : Nat → List ι → Query (StateM σ) α) :
    Prop where
  /-- Without operands the loop is done. -/
  nil : ∀ start, loop start [] = pure passed
  /-- The first operand is asked before all others. -/
  cons : ∀ start x rest, loop start (x :: rest) = ask x start >>= fun holds =>
    if holds = go then loop (start + 1) rest else pure (decided x)

/-- A loop asks its operands in order, up to and including the first that does not give the answer
on which it goes on. That operand decides. -/
structure StopsAtDecider (passed : α) (decided : ι → α)
    (loop : List ι → Query (StateM σ) α) : Prop where
  /-- Either all operands let the loop go on, or there is a first one that does not. -/
  total : ∀ (operands : List ι) (s : σ), (∃ t, Passes ask go 0 operands s t)
    ∨ ∃ before decider after t, operands = before ++ decider :: after
      ∧ Passes ask go 0 before s t ∧ ((ask decider before.length).runFrom t).1 ≠ .ok go
  /-- If all operands let the loop go on, it ends when all have been asked. -/
  passes : ∀ {operands : List ι} {s t : σ}, Passes ask go 0 operands s t →
    (loop operands).runFrom s = (.ok passed, t)
  /-- Otherwise it ends with the answer of the deciding operand and in the state that this one
  leaves, whatever is behind it. -/
  decides : ∀ {before : List ι} {decider : ι} {s t u : σ} {answer : Except QueryError Bool},
    Passes ask go 0 before s t → (ask decider before.length).runFrom t = (answer, u) →
    answer ≠ .ok go → ∀ after : List ι,
    (loop (before ++ decider :: after)).runFrom s = ((fun _ => decided decider) <$> answer, u)

end Loops

/-- Going through operands in order, one gets past all of them or comes to one that decides. -/
theorem passes_or_decides (ask : ι → Nat → Query (StateM σ) Bool) (go : Bool) (start : Nat)
    (operands : List ι) (s : σ) :
    (∃ t, Passes ask go start operands s t)
      ∨ ∃ before decider after t, operands = before ++ decider :: after
        ∧ Passes ask go start before s t
        ∧ ((ask decider (start + before.length)).runFrom t).1 ≠ .ok go := by
  induction operands generalizing start s with
  | nil => exact .inl ⟨s, .nil⟩
  | cons x rest ih =>
    by_cases hx : ((ask x start).runFrom s).1 = .ok go
    · have hpass : (ask x start).runFrom s = (.ok go, ((ask x start).runFrom s).2) :=
        Prod.ext hx rfl
      rcases ih (start + 1) ((ask x start).runFrom s).2 with
        ⟨t, hrest⟩ | ⟨before, decider, after, t, rfl, hbefore, hdecider⟩
      · exact .inl ⟨t, .cons hpass hrest⟩
      · -- the deciding operand is one further behind `start` than behind its successor
        refine .inr ⟨x :: before, decider, after, t, rfl, .cons hpass hbefore, ?_⟩
        rw [List.length_cons, ← Nat.add_assoc, Nat.add_right_comm]
        exact hdecider
    · exact .inr ⟨[], x, rest, s, rfl, .nil, hx⟩

variable {ask : ι → Nat → Query (StateM σ) Bool} {go : Bool}

namespace Stepwise

variable {passed : α} {decided : ι → α} {loop : Nat → List ι → Query (StateM σ) α}

/-- Operands that let a loop go on leave the rest of it to be run from the state they lead to. -/
theorem runFrom_append (hloop : Stepwise ask go passed decided loop) {start : Nat}
    {before : List ι} {s t : σ} (h : Passes ask go start before s t) (after : List ι) :
    (loop start (before ++ after)).runFrom s
      = (loop (start + before.length) after).runFrom t := by
  induction h with
  | nil => rfl
  | @cons start x rest s t u hx _ ih =>
    rw [List.cons_append, hloop.cons, Query.runFrom_bind_of_ok hx, if_pos rfl, ih,
      List.length_cons, ← Nat.add_assoc, Nat.add_right_comm]

/-- **A loop that asks one operand at a time stops at the one that decides.** -/
theorem stopsAtDecider (hloop : Stepwise ask go passed decided loop) :
    StopsAtDecider ask go passed decided (loop 0) where
  total operands s := by
    have htotal := passes_or_decides ask go 0 operands s
    simp only [Nat.zero_add] at htotal
    exact htotal
  passes {operands s t} h := by
    have hend := hloop.runFrom_append h []
    rw [List.append_nil, hloop.nil] at hend
    exact hend
  decides {before decider s t u answer} h hdecider hanswer after := by
    rw [hloop.runFrom_append h, Nat.zero_add, hloop.cons]
    cases answer with
    | error e =>
      rw [Query.runFrom_bind_of_error hdecider]
      rfl
    | ok holds =>
      have hholds : ¬holds = go := fun heq => hanswer (congrArg Except.ok heq)
      rw [Query.runFrom_bind_of_ok hdecider, if_neg hholds]
      rfl

end Stepwise

theorem StopsAtDecider.map {passed : α} {decided : ι → α} {loop : List ι → Query (StateM σ) α}
    (h : StopsAtDecider ask go passed decided loop) (f : α → β) :
    StopsAtDecider ask go (f passed) (fun x => f (decided x)) (fun xs => f <$> loop xs) where
  total := h.total
  passes hpasses := Query.runFrom_map (h.passes hpasses) f
  decides {before decider s t u answer} hbefore hdecider hanswer after := by
    rw [Query.runFrom_map (h.decides hbefore hdecider hanswer after) f]
    cases answer <;> rfl

/-! ### Searches through lists -/

theorem stepwise_allM (ask : ι → Query (StateM σ) Bool) :
    Stepwise (fun x _ => ask x) true true (fun _ => false) fun _ => List.allM ask where
  nil _ := List.allM_nil
  cons _ _ _ := List.allM_cons

theorem stepwise_anyM (ask : ι → Query (StateM σ) Bool) :
    Stepwise (fun x _ => ask x) false false (fun _ => true) fun _ => List.anyM ask where
  nil _ := List.anyM_nil
  cons _ x rest := by
    rw [List.anyM_cons]
    exact bind_congr fun holds => by cases holds <;> rfl

variable (ask : ι → Nat → Query (StateM σ) Bool)

theorem stepwise_allM_zipIdx : Stepwise ask true true (fun _ => false)
    fun start xs => (xs.zipIdx start).allM fun entry => ask entry.1 entry.2 where
  nil _ := List.allM_nil
  cons start x rest := by rw [List.zipIdx_cons, List.allM_cons]

theorem stepwise_anyM_zipIdx : Stepwise ask false false (fun _ => true)
    fun start xs => (xs.zipIdx start).anyM fun entry => ask entry.1 entry.2 where
  nil _ := List.anyM_nil
  cons start x rest := by
    rw [List.zipIdx_cons, List.anyM_cons]
    exact bind_congr fun holds => by cases holds <;> rfl

/-- Searching goes on as long as nothing is found. -/
theorem stepwise_findM?_zipIdx : Stepwise ask false none some fun start xs =>
    Option.map Prod.fst <$> (xs.zipIdx start).findM? fun entry => ask entry.1 entry.2 where
  nil _ := map_pure _ _
  cons start x rest := by
    rw [List.zipIdx_cons, List.findM?, map_bind]
    refine bind_congr fun holds => ?_
    cases holds with
    | false => rfl
    | true => exact map_pure _ _

/-! ### The loops -/

/-- **Evaluation stops at the operand that decides**: in a conjunction and a disjunction of
conditions, in requirements per field, in a literal for several columns, in the quantifiers over the
items of an array, which over columns follow after all of them have been read, and in the searches
through records. What stands behind that operand has no part in the outcome, nor in the effects. -/
theorem loops_stop_at_decider (c : Condition (StateM σ)) (predicate : Predicate (StateM σ))
    (columns : List Column) (expected value : Value) (position : Nat) :
    StopsAtDecider (fun (c : Condition (StateM σ)) _ => c.predicate.test value position)
        true true (fun _ => false)
        (fun conditions => (Predicate.and conditions).test value position)
      ∧ StopsAtDecider (fun (c : Condition (StateM σ)) _ => c.predicate.test value position)
        false false (fun _ => true)
        (fun conditions => (Predicate.or conditions).test value position)
      ∧ StopsAtDecider
        (fun (field : DotPath × Requirement (StateM σ)) _ => do
          field.2.meets ((← Query.ofExcept (field.1.resolve value)).getD .null) position)
        true true (fun _ => false)
        (fun specification => (Condition.fields specification).predicate.test value position)
      ∧ StopsAtDecider
        (fun (column : Column) _ =>
          (return (← Query.ofExcept (column.read value position)).equal expected :
            Query (StateM σ) Bool))
        true true (fun _ => false)
        (fun columns => (Condition.columns columns (.equals expected)).predicate.test
          value position)
      ∧ StopsAtDecider predicate.test true true (fun _ => false)
        (fun items => predicate.all.test (.arr items) position)
      ∧ StopsAtDecider predicate.test false false (fun _ => true)
        (fun items => predicate.one.test (.arr items) position)
      ∧ (Predicate.allOf columns predicate).test value position
        = Query.ofExcept (Column.readAll columns value position) >>= (fun items =>
          predicate.all.test (.arr items) position)
      ∧ (Predicate.oneOf columns predicate).test value position
        = Query.ofExcept (Column.readAll columns value position) >>= (fun items =>
          predicate.one.test (.arr items) position)
      ∧ StopsAtDecider c.predicate.test false none some
        (fun elements => (Records.mk elements).find? c)
      ∧ StopsAtDecider c.predicate.test false false (fun _ => true)
        (fun elements => (Records.mk elements).any c)
      ∧ StopsAtDecider c.predicate.test true true (fun _ => false)
        (fun elements => (Records.mk elements).all c) := by
  have hfind : StopsAtDecider c.predicate.test false none some
      (fun elements => (Records.mk elements).find? c) :=
    (stepwise_findM?_zipIdx c.predicate.test).stopsAtDecider
  exact ⟨(stepwise_allM _).stopsAtDecider, (stepwise_anyM _).stopsAtDecider,
    (stepwise_allM _).stopsAtDecider, (stepwise_allM _).stopsAtDecider,
    (stepwise_allM_zipIdx predicate.test).stopsAtDecider,
    (stepwise_anyM_zipIdx predicate.test).stopsAtDecider, rfl, rfl, hfind,
    hfind.map Option.isSome, (stepwise_allM_zipIdx c.predicate.test).stopsAtDecider⟩

/-- A conjunction decided by its second operand, in front of one that fails, and a search that fails
at its second element, in front of one that it could ask about. With nothing behind the operand that
decides, the outcome and the questions asked are the same. -/
theorem loops_stop_at_decider_unread_column :
    let sound : Value := .obj [("a", .arr [.int 1])]
    let broken : Value := .obj [("a", .int 5)]
    let yes : Condition Recorded := .satisfies (.recorded true)
    let no : Condition Recorded := .satisfies (.recorded false)
    let unread : Condition Recorded := .column (.dotted "a[0]") (.equals (.int 1))
    let quiet : Condition Recorded := .column (.dotted "a[0]") (.satisfies (.recorded false))
    let asked : Value × Nat := (broken, 3)
    let e : QueryError := .notIndexable "a[0]" .number
    (unread.predicate.test broken 3).runFrom [] = (.error e, [])
      ∧ ((Predicate.and [yes, no, unread]).test broken 3).runFrom [] = (.ok false, [asked, asked])
      ∧ ((Predicate.and [yes, no]).test broken 3).runFrom [] = (.ok false, [asked, asked])
      ∧ ((Records.mk [sound, broken, sound]).find? quiet).runFrom [] = (.error e, [(.int 1, 0)])
      ∧ ((Records.mk [sound, broken]).find? quiet).runFrom [] = (.error e, [(.int 1, 0)]) := by
  intro sound broken yes no unread quiet asked e
  obtain ⟨hand, -, -, -, -, -, -, -, hfind, -, -⟩ :=
    loops_stop_at_decider quiet (.recorded true) [] .null broken 3
  have hyes : Passes (fun (c : Condition Recorded) _ => c.predicate.test broken 3) true 0 [yes] []
      [asked] := .cons rfl .nil
  have hsound : Passes quiet.predicate.test false 0 [sound] [] [(.int 1, 0)] := .cons rfl .nil
  have hno : (no.predicate.test broken 3).runFrom [asked] = (.ok false, [asked, asked]) := rfl
  have hbroken : (quiet.predicate.test broken 1).runFrom [(.int 1, 0)]
      = (.error e, [(.int 1, 0)]) := rfl
  have hfalse : (.ok false : Except QueryError Bool) ≠ .ok true := fun h => by cases h
  have herror : (.error e : Except QueryError Bool) ≠ .ok false := fun h => by cases h
  exact ⟨rfl, hand.decides hyes hno hfalse [unread], hand.decides hyes hno hfalse [],
    hfind.decides hsound hbroken herror [sound], hfind.decides hsound hbroken herror []⟩

end RecordQuery
