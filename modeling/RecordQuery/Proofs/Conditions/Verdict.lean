import RecordQuery.Proofs.Reading

/-!
# Verdicts

A condition without effects says one of three things about an element at a position: yes, no, or
that it fails. That is its *verdict*. Every query by condition is a way to go through the verdicts,
and what comes out depends on nothing else.

The queries differ in where they stop. Selecting goes through all verdicts and stops at a failure
only; searching stops at the first yes as well. Both are described by what they do to a stretch of
elements about which the condition does not fail, with anything behind it. Asking whether all
elements satisfy a condition is no third way: it is a search for one that does not, effect by
effect (`Records.all_eq_any_not`).

## Why verdicts and not predicates

A predicate is a function from values and positions to computations. In `Id` such a computation is
an outcome, and the loops over it become functions on lists: selecting is `List.mapM` of the
verdicts, with a filter afterwards, and searching is `List.find?` as long as nothing fails. The
functions on lists have their lemmas in the library, and the loops as they are written do not.

`Condition.accepts` forgets the difference between no and a failure. It is used where it is known
that nothing fails, and there it determines the verdict (`Condition.accepts_of_verdict`).

## Implementation notes

The lemma on selecting is about a loop begun at any position, since the loop counts positions as it
goes and the induction is on what is left of the list. The lemma on searching is about a stretch of
elements with anything behind it. Behind the stretch there may be a failure, the end of the list, or
elements of which it does not matter whether they fail; all uses are instances of the one lemma.

The negation of a condition is a condition, so that every query by condition can be asked for it.
Its verdict is the negated verdict, and it fails where the condition fails.

## Main definitions

* `Query.outcome` — what a query without effects returns
* `Condition.verdict`, `Condition.accepts` — what a condition says about an element
* `Condition.negation` — the condition that holds where another does not

## Main results

* `Predicate.outcome_selectFrom` — selecting asks for all verdicts and keeps what is accepted
* `Condition.outcome_findM?_append` — searching stops at the first element that is accepted
* `Records.all_eq_any_not` — all satisfy a condition unless some satisfies its negation
-/

namespace RecordQuery

variable {α β : Type}

/-! ### Outcomes -/

/-- What a query without effects returns. -/
def Query.outcome (query : Query Id α) : Except QueryError α := query.run

namespace Query

theorem outcome_bind (query : Query Id α) (next : α → Query Id β) :
    (query >>= next).outcome = query.outcome >>= fun a => (next a).outcome := by
  show (ExceptT.bindCont next query.outcome : Except QueryError β) = _
  cases query.outcome <;> rfl

theorem outcome_pure (a : α) : (pure a : Query Id α).outcome = .ok a := rfl

theorem outcome_ofExcept (outcome : Except QueryError α) :
    (Query.ofExcept outcome : Query Id α).outcome = outcome := rfl

theorem outcome_map (f : α → β) (query : Query Id α) :
    (f <$> query).outcome = f <$> query.outcome := by
  rw [map_eq_pure_bind, outcome_bind]
  cases query.outcome <;> rfl

end Query

/-! ### What a condition says -/

namespace Condition

/-- What the condition says about an element at a position. -/
def verdict (c : Condition Id) (entry : Value × Nat) : Except QueryError Bool :=
  (c.predicate.test entry.1 entry.2).outcome

/-- The condition says yes. -/
def accepts (c : Condition Id) (entry : Value × Nat) : Bool :=
  c.verdict entry matches .ok true

/-- The condition that holds where the given one does not, and fails where it fails. -/
def negation {m : Type → Type} [Monad m] (c : Condition m) : Condition m :=
  .satisfies c.predicate.not

variable {c : Condition Id} {entry : Value × Nat}

theorem accepts_of_verdict {holds : Bool} (h : c.verdict entry = .ok holds) :
    c.accepts entry = holds := by
  rw [accepts, h]
  cases holds <;> rfl

theorem accepts_iff : c.accepts entry = true ↔ c.verdict entry = .ok true := by
  cases h : c.verdict entry with
  | error e => simp [accepts, h]
  | ok holds => rw [accepts_of_verdict h, Except.ok.injEq]

theorem verdict_negation (c : Condition Id) (entry : Value × Nat) :
    c.negation.verdict entry = (!·) <$> c.verdict entry := by
  show (c.predicate.test entry.1 entry.2 >>= fun holds => pure !holds : Query Id Bool).outcome = _
  rw [Query.outcome_bind, verdict]
  cases (c.predicate.test entry.1 entry.2).outcome <;> rfl

theorem accepts_negation (h : ∃ holds, c.verdict entry = .ok holds) :
    c.negation.accepts entry = !c.accepts entry := by
  obtain ⟨holds, h⟩ := h
  rw [accepts_of_verdict h]
  refine accepts_of_verdict ?_
  rw [verdict_negation, h]
  rfl

theorem verdict_negation_eq_ok_iff {holds : Bool} :
    c.negation.verdict entry = .ok holds ↔ c.verdict entry = .ok !holds := by
  rw [verdict_negation]
  cases c.verdict entry with
  | error e => exact ⟨nofun, nofun⟩
  | ok other => cases other <;> cases holds <;> decide

/-- The negation fails nowhere else. -/
theorem answers_negation (h : ∃ holds, c.verdict entry = .ok holds) :
    ∃ holds, c.negation.verdict entry = .ok holds := by
  obtain ⟨holds, h⟩ := h
  exact ⟨!holds, verdict_negation_eq_ok_iff.mpr (by rw [h, Bool.not_not])⟩

theorem verdict_negation_eq_error_iff {e : QueryError} :
    c.negation.verdict entry = .error e ↔ c.verdict entry = .error e := by
  rw [verdict_negation]
  cases c.verdict entry with
  | error e' => exact Iff.rfl
  | ok other => exact ⟨nofun, nofun⟩

end Condition

/-! ### Selecting -/

/-- **Selecting asks for the verdict on every element**, and keeps those that are accepted. -/
theorem Predicate.outcome_selectFrom (c : Condition Id) (start : Nat) (values : List Value) :
    (c.predicate.selectFrom start values).outcome
      = (fun _ => ((values.zipIdx start).filter c.accepts).map Prod.fst)
        <$> (values.zipIdx start).mapM c.verdict := by
  induction values generalizing start with
  | nil => rfl
  | cons value rest ih =>
    rw [List.zipIdx_cons, List.mapM_cons, Predicate.selectFrom, Query.outcome_bind]
    cases h : c.verdict (value, start) with
    | error e =>
      have htest : (c.predicate.test value start).outcome = .error e := h
      rw [htest]
      rfl
    | ok holds =>
      have htest : (c.predicate.test value start).outcome = .ok holds := h
      rw [htest]
      show (c.predicate.selectFrom (start + 1) rest >>= fun kept =>
        pure (if holds then value :: kept else kept) : Query Id (List Value)).outcome = _
      rw [Query.outcome_bind, ih, List.filter_cons, Condition.accepts_of_verdict h]
      cases (rest.zipIdx (start + 1)).mapM c.verdict <;> cases holds <;> rfl

/-! ### Searching -/

/-- **Searching goes past elements that are not accepted** and stops at the first one that is,
whatever comes behind it. -/
theorem Condition.outcome_findM?_append {c : Condition Id} {before : List (Value × Nat)}
    (h : ∀ entry ∈ before, ∃ holds, c.verdict entry = .ok holds) (after : List (Value × Nat)) :
    ((before ++ after).findM? fun (value, position) => c.predicate.test value position).outcome
      = match before.find? c.accepts with
        | some found => .ok (some found)
        | none => (after.findM? fun (value, position) =>
          c.predicate.test value position).outcome := by
  induction before with
  | nil => rfl
  | cons entry before ih =>
    obtain ⟨⟨holds, hentry⟩, hbefore⟩ := List.forall_mem_cons.mp h
    have htest : (c.predicate.test entry.1 entry.2).outcome = .ok holds := hentry
    rw [List.cons_append, List.findM?, Query.outcome_bind, htest, List.find?_cons,
      accepts_of_verdict hentry]
    cases holds with
    | true => rfl
    | false => exact ih hbefore

section

variable {m : Type → Type} [Monad m] [LawfulMonad m]

/-- To test whether all entries satisfy a condition is to search for one that satisfies its
negation: the two make the same tests in the same order. -/
theorem Condition.allM_eq_findM?_negation (c : Condition m) (entries : List (Value × Nat)) :
    (entries.allM fun entry => c.predicate.test entry.1 entry.2)
      = (fun found => !Option.isSome found) <$> entries.findM? fun entry =>
        c.negation.predicate.test entry.1 entry.2 := by
  induction entries with
  | nil => simp [List.allM, List.findM?]
  | cons entry entries ih =>
    rw [List.allM, List.findM?, ih]
    show _ = (fun found => !Option.isSome found) <$>
      ((c.predicate.test entry.1 entry.2 >>= fun holds => pure !holds) >>= _)
    rw [bind_assoc, map_bind]
    refine bind_congr fun holds => ?_
    cases holds <;> simp

/-- **All elements satisfy a condition unless some satisfies its negation.** -/
theorem Records.all_eq_any_not (records : Records) (c : Condition m) :
    records.all c = (!·) <$> records.any c.negation := by
  have hfind : records.find? c.negation = Option.map Prod.fst <$>
      records.indexed.findM? fun entry => c.negation.predicate.test entry.1 entry.2 :=
    bind_pure_comp _ _
  rw [Records.any, hfind]
  refine (c.allM_eq_findM?_negation records.indexed).trans ?_
  simp

end

end RecordQuery
