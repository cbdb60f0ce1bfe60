import RecordQuery.Proofs.Conditions.Agreement

/-!
# Filtering by several conditions

To filter by a conjunction one can filter by its conditions one after the other. The conjunction
goes through the elements and asks about each as many conditions as it takes; the chain goes
through the conditions and asks each about as many elements as are left. Both are the same table,
read by rows or by columns: a condition is asked about an element exactly if all conditions before
it accept the element. So one of the two succeeds exactly if the other does, although they may come
upon different failures first.

This needs conditions that do not look at positions. In a chain, elements move up when others before
them are dropped.

## Why the failures may differ

On an element, both ways ask the conditions in order and stop at the first that does not accept it.
So they make the same tests, and they differ in the order in which they make them: a conjunction
finishes with one element before it turns to the next, and a chain finishes with one condition. If
there are two failures in the table, the first of them by rows need not be the first by columns. The
statement is therefore about success. What is the same in both ways is whether there is a failure at
all, and without one what is kept.

A failure need not count at all. A condition may fail on an element that a condition before it has
dropped, and then neither of the two ways comes upon the failure. The example at the end is of this
kind, where the second condition alone does fail.

## Implementation notes

The induction is on the conditions. One step (`Records.filter_conjunction_cons_eq_ok_iff`) splits
the first condition off the conjunction and puts a filter by it in front, and the chain is unfolded
in the same way. Since the conditions ignore positions, what they say about an element is what they
say about it at position zero, and this is the form in which both sides are compared.

## Main definitions

* `Condition.Positionless` — what the condition says about an element does not depend on where it is
* `Condition.conjunction` — the condition that all given ones hold
* `Records.filterInTurn` — filters by several conditions, one after the other

## Main results

* `Records.filter_eq_ok_iff_of_positionless` — filtering is a matter of single elements
* `Records.filter_conjunction` — filtering by a conjunction is filtering in turn
-/

namespace RecordQuery

/-! ### Conditions that ignore positions -/

namespace Condition

/-- The condition says the same about an element wherever the element stands. -/
def Positionless (c : Condition Id) : Prop := ∀ value i j, c.verdict (value, i) = c.verdict (value, j)

end Condition

namespace Records

variable {records : Records} {c : Condition Id}

/-- Whether a condition fails on no element is a question about single elements. -/
theorem answered_iff_of_positionless (hc : c.Positionless) :
    records.Answered c
      ↔ ∀ element ∈ records.toList, ∃ holds, c.verdict (element, 0) = .ok holds := by
  rw [Answered, ← map_fst_indexed, List.forall_mem_map]
  refine forall₂_congr fun entry _ => ?_
  rw [hc entry.1 0 entry.2]

theorem accepted_of_positionless (hc : c.Positionless) :
    records.accepted c = records.toList.filter fun element => c.accepts (element, 0) := by
  have haccepts : ∀ entry : Value × Nat, c.accepts entry = c.accepts (entry.1, 0) := by
    intro entry
    rw [Condition.accepts, Condition.accepts, hc entry.1 0 entry.2]
  rw [accepted, ← map_fst_indexed, List.filter_map, List.filter_congr fun entry _ => haccepts entry]
  rfl

/-- **Filtering is a matter of single elements** if the condition ignores positions. -/
theorem filter_eq_ok_iff_of_positionless (hc : c.Positionless) {kept : Records} :
    (records.filter c).outcome = .ok kept
      ↔ (∀ element ∈ records.toList, ∃ holds, c.verdict (element, 0) = .ok holds)
        ∧ kept = ⟨records.toList.filter fun element => c.accepts (element, 0)⟩ := by
  rw [filter_eq_ok_iff, answered_iff_of_positionless hc, accepted_of_positionless hc]

end Records

/-! ### Conjunctions -/

namespace Condition

/-- The condition that all of the given ones hold, asked in order until one does not. -/
def conjunction {m : Type → Type} [Monad m] (conditions : List (Condition m)) : Condition m :=
  .satisfies (.and conditions)

variable {c : Condition Id} {rest : List (Condition Id)} {entry : Value × Nat}

theorem verdict_conjunction_nil : (conjunction []).verdict entry = .ok true := rfl

theorem verdict_conjunction_cons :
    (conjunction (c :: rest)).verdict entry = c.verdict entry >>= fun holds =>
      if holds then (conjunction rest).verdict entry else .ok false := by
  show (List.allM (fun other => other.predicate.test entry.1 entry.2) (c :: rest) :
    Query Id Bool).outcome = _
  rw [List.allM_cons, Query.outcome_bind]
  refine bind_congr fun holds => ?_
  cases holds <;> rfl

theorem Positionless.conjunction {conditions : List (Condition Id)}
    (h : ∀ c ∈ conditions, c.Positionless) : (conjunction conditions).Positionless := by
  induction conditions with
  | nil => exact fun _ _ _ => rfl
  | cons c rest ih =>
    obtain ⟨hc, hrest⟩ := List.forall_mem_cons.mp h
    intro value i j
    rw [verdict_conjunction_cons, verdict_conjunction_cons, hc value i j, ih hrest value i j]

/-- A conjunction does not fail on an element if its first condition does not, and the others do not
in case that the first accepts the element. -/
theorem answers_conjunction_cons_iff :
    (∃ holds, (conjunction (c :: rest)).verdict entry = .ok holds)
      ↔ (∃ holds, c.verdict entry = .ok holds)
        ∧ (c.accepts entry = true → ∃ holds, (conjunction rest).verdict entry = .ok holds) := by
  rw [verdict_conjunction_cons]
  cases h : c.verdict entry with
  | error e =>
    constructor
    · rintro ⟨holds, ⟨⟩⟩
    · rintro ⟨⟨holds, ⟨⟩⟩, -⟩
  | ok holds =>
    rw [accepts_of_verdict h]
    cases holds with
    | true => exact ⟨fun hrest => ⟨⟨true, rfl⟩, fun _ => hrest⟩, fun hrest => hrest.2 rfl⟩
    | false =>
      refine ⟨fun _ => ⟨⟨false, rfl⟩, fun hfalse => ?_⟩, fun _ => ⟨false, rfl⟩⟩
      cases hfalse

theorem accepts_conjunction_cons :
    (conjunction (c :: rest)).accepts entry
      = (c.accepts entry && (conjunction rest).accepts entry) := by
  rw [accepts, verdict_conjunction_cons]
  cases h : c.verdict entry with
  | error e => rw [accepts, h]; rfl
  | ok holds =>
    rw [accepts_of_verdict h]
    cases holds <;> rfl

end Condition

/-! ### Chains of filters -/

namespace Records

/-- Filters by several conditions, one after the other. -/
def filterInTurn {m : Type → Type} [Monad m] (conditions : List (Condition m)) (records : Records) :
    Query m Records :=
  conditions.foldlM (fun stage c => stage.filter c) records

variable {records kept : Records} {c : Condition Id} {rest : List (Condition Id)}

theorem filterInTurn_cons_eq_ok_iff :
    (filterInTurn (c :: rest) records).outcome = .ok kept
      ↔ ∃ stage, (records.filter c).outcome = .ok stage
        ∧ (filterInTurn rest stage).outcome = .ok kept := by
  rw [filterInTurn, List.foldlM_cons, Query.outcome_bind, bind_eq_ok_iff]
  rfl

/-- **One step of a chain.** Filtering by a conjunction is filtering by its first condition, and
what is left by the others. -/
theorem filter_conjunction_cons_eq_ok_iff (h : ∀ other ∈ c :: rest, other.Positionless) :
    (records.filter (.conjunction (c :: rest))).outcome = .ok kept
      ↔ ∃ stage, (records.filter c).outcome = .ok stage
        ∧ (stage.filter (.conjunction rest)).outcome = .ok kept := by
  obtain ⟨hc, hrest⟩ := List.forall_mem_cons.mp h
  have hconjunction := Condition.Positionless.conjunction hrest
  simp only [filter_eq_ok_iff_of_positionless (Condition.Positionless.conjunction h),
    filter_eq_ok_iff_of_positionless hc, filter_eq_ok_iff_of_positionless hconjunction,
    Condition.answers_conjunction_cons_iff, Condition.accepts_conjunction_cons]
  have htwice : (records.toList.filter fun element => c.accepts (element, 0)).filter
        (fun element => (Condition.conjunction rest).accepts (element, 0))
      = records.toList.filter fun element =>
        c.accepts (element, 0) && (Condition.conjunction rest).accepts (element, 0) := by
    rw [List.filter_filter]
    exact List.filter_congr fun _ _ => Bool.and_comm _ _
  constructor
  · rintro ⟨hanswers, rfl⟩
    refine ⟨_, ⟨fun element helement => (hanswers element helement).1, rfl⟩, ?_, ?_⟩
    · -- the others are asked only about what the first condition accepts, in both ways
      intro element helement
      obtain ⟨hmem, haccepts⟩ := List.mem_filter.mp helement
      exact (hanswers element hmem).2 haccepts
    · rw [htwice]
  · rintro ⟨_, ⟨hfirst, rfl⟩, hothers, rfl⟩
    refine ⟨fun element helement => ⟨hfirst element helement, fun haccepts => ?_⟩, ?_⟩
    · exact hothers element (List.mem_filter.mpr ⟨helement, haccepts⟩)
    · rw [htwice]

theorem filter_conjunction_nil : (records.filter (.conjunction [])).outcome = .ok records := by
  have haccepts : ∀ element ∈ records.toList,
      (Condition.conjunction []).accepts (element, 0) = true := fun _ _ =>
    Condition.accepts_of_verdict Condition.verdict_conjunction_nil
  rw [filter_eq_ok_iff_of_positionless (.conjunction (List.forall_mem_nil _)),
    List.filter_eq_self.mpr haccepts]
  exact ⟨fun _ _ => ⟨true, Condition.verdict_conjunction_nil⟩, rfl⟩

/-- Filtering twice by one condition is filtering once. -/
theorem outcome_filter_filter (hc : c.Positionless) :
    (records.filter c >>= fun kept => kept.filter c).outcome = (records.filter c).outcome := by
  rw [Query.outcome_bind]
  cases hkept : (records.filter c).outcome with
  | error e => rfl
  | ok kept =>
    obtain ⟨hanswers, rfl⟩ := (filter_eq_ok_iff_of_positionless hc).mp hkept
    refine (filter_eq_ok_iff_of_positionless hc).mpr ⟨fun element helement => ?_, ?_⟩
    · exact hanswers element (List.mem_filter.mp helement).1
    · rw [List.filter_filter]
      simp only [Bool.and_self]

/-- **Filtering by a conjunction is filtering by its conditions in turn**: one succeeds exactly if
the other does at every stage, and then with the same outcome. In particular, a second filter by the
same condition changes nothing. -/
theorem filter_conjunction (records : Records) (conditions : List (Condition Id))
    (h : ∀ c ∈ conditions, c.Positionless) :
    (∀ kept, (records.filter (.conjunction conditions)).outcome = .ok kept
        ↔ (filterInTurn conditions records).outcome = .ok kept)
      ∧ ∀ c ∈ conditions,
        (records.filter c >>= fun kept => kept.filter c).outcome = (records.filter c).outcome := by
  refine ⟨?_, fun c hmem => outcome_filter_filter (h c hmem)⟩
  induction conditions generalizing records with
  | nil =>
    intro kept
    rw [filter_conjunction_nil]
    rfl
  | cons c rest ih =>
    intro kept
    rw [filter_conjunction_cons_eq_ok_iff h, filterInTurn_cons_eq_ok_iff]
    exact exists_congr fun stage =>
      and_congr_right fun _ => ih stage (List.forall_mem_cons.mp h).2 kept

/-- A condition that fails on an element which the condition before it drops: alone it fails, and
behind the other one it does not, in either way. -/
theorem filter_conjunction_failure_dropped :
    let listed : Value := .obj [("a", .arr [.int 1]), ("kind", .str "list")]
    let single : Value := .obj [("a", .int 5), ("kind", .str "number")]
    let records : Records := ⟨[single, listed]⟩
    let isList : Condition Id := .column (.dotted "kind") (.equals (.str "list"))
    let startsWithOne : Condition Id := .column (.dotted "a[0]") (.equals (.int 1))
    let conditions := [isList, startsWithOne]
    (∀ c ∈ conditions, c.Positionless)
      ∧ (records.filter startsWithOne).outcome = .error (.notIndexable "a[0]" .number)
      ∧ (records.filter (.conjunction conditions)).outcome = .ok ⟨[listed]⟩
      ∧ (filterInTurn conditions records).outcome = .ok ⟨[listed]⟩ := by
  intro listed single records isList startsWithOne conditions
  have hpositionless : ∀ c ∈ conditions, c.Positionless :=
    List.forall_mem_cons.mpr ⟨fun _ _ _ => rfl, List.forall_mem_singleton.mpr fun _ _ _ => rfl⟩
  have hkept : (records.filter (.conjunction conditions)).outcome = .ok ⟨[listed]⟩ := rfl
  obtain ⟨hfilter, -⟩ := filter_conjunction records conditions hpositionless
  exact ⟨hpositionless, rfl, hkept, (hfilter _).mp hkept⟩

end Records

end RecordQuery
