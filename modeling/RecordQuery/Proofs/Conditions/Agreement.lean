import RecordQuery.Proofs.Conditions.Verdict

/-!
# Queries by condition agree

Filtering, counting, searching, asking for the only match and asking about some or all elements are
separate runs over the records, and they stop at different places. They agree because each of them
is a function of the verdicts. If the condition fails on no element, all of them can be read off
the elements that are kept. If it fails, there is a first element on which it does, and the
queries that stop early succeed exactly if they are decided before it.

## What failures change

Without failures the queries are all read off the elements that are kept: their number, the first of
them, whether there is one, whether there is exactly one, and whether none is missing. With a
failure there is nothing to read off, since filtering returns the failure and no elements. Then the
queries fall into two classes.

* Counting and asking for the only match go through everything, as filtering does. They fail with
  it.
* Searching and asking about some or all elements stop early. They fail only if what they look for
  does not stand in front of the failing element, and what stands behind it never matters.

Both are described by the elements in front of the first failure, on which the condition says yes or
no (`Records.FirstFailure`). Asking about all elements looks for one that is not accepted. This is
the search for one that the negation accepts, and the negation fails on the same elements.

## Implementation notes

A condition may look at positions, so the parts into which it splits the records are parts of the
list of elements with their positions. `Records.SplitBy` speaks of two subsequences that make up a
permutation of the whole, and of what is said about their members. It does not mention filtering, so
it says what the parts are without saying how they were found.

Conditions without effects are those in `Id`. For them the order of the tests cannot be observed,
except by which failure comes first, and that is what is said here. Which tests are made at all is
told in `RecordQuery.Proofs.Conditions.Deciding`, where conditions have effects.

## Main definitions

* `Records.Answered` — the condition fails on no element
* `Records.FirstFailure` — the first element on which the condition fails
* `Records.SplitBy` — the elements that are accepted and those that are not, as two subsequences

## Main results

* `Records.filter_eq_ok_iff`, `Records.filter_eq_error_iff` — when filtering succeeds
* `Records.queries_agree` — what all queries return, whether or not filtering succeeds
-/

namespace RecordQuery

namespace Records

/-- The condition fails on no element. -/
def Answered (records : Records) (c : Condition Id) : Prop :=
  ∀ entry ∈ records.indexed, ∃ holds, c.verdict entry = .ok holds

/-- The condition fails on an element, and on none of those before it. -/
structure FirstFailure (records : Records) (c : Condition Id) (e : QueryError)
    (before : List (Value × Nat)) : Prop where
  /-- The element fails with the error. -/
  split : ∃ failing after, records.indexed = before ++ failing :: after
    ∧ c.verdict failing = .error e
  /-- The elements before it do not fail. -/
  answered : ∀ entry ∈ before, ∃ holds, c.verdict entry = .ok holds

/-- The elements that are accepted. -/
def accepted (records : Records) (c : Condition Id) : List Value :=
  (records.indexed.filter c.accepts).map Prod.fst

/-- All elements with their positions are distributed, in order, over those that the condition
accepts and those that it does not. -/
def SplitBy (records : Records) (c : Condition Id) (kept dropped : Records) : Prop :=
  ∃ yes no : List (Value × Nat),
    yes.Sublist records.indexed ∧ no.Sublist records.indexed ∧ (yes ++ no).Perm records.indexed
    ∧ (∀ entry ∈ yes, c.verdict entry = .ok true) ∧ (∀ entry ∈ no, c.verdict entry = .ok false)
    ∧ kept.toList = yes.map Prod.fst ∧ dropped.toList = no.map Prod.fst

variable {records : Records} {c : Condition Id} {e : QueryError} {before : List (Value × Nat)}

/-! ### The negation -/

theorem Answered.negation (h : records.Answered c) : records.Answered c.negation :=
  fun entry hentry => Condition.answers_negation (h entry hentry)

theorem FirstFailure.negation (h : records.FirstFailure c e before) :
    records.FirstFailure c.negation e before where
  split := by
    obtain ⟨failing, after, hsplit, hfail⟩ := h.split
    exact ⟨failing, after, hsplit, Condition.verdict_negation_eq_error_iff.mpr hfail⟩
  answered := fun entry hentry => Condition.answers_negation (h.answered entry hentry)

/-! ### Filtering -/

theorem outcome_select :
    (c.predicate.select records.toList).outcome
      = (fun _ => records.accepted c) <$> records.indexed.mapM c.verdict :=
  Predicate.outcome_selectFrom c 0 records.toList

theorem outcome_filter :
    (records.filter c).outcome = mk <$> (c.predicate.select records.toList).outcome :=
  Query.outcome_map mk _

theorem outcome_count :
    (records.count c).outcome = List.length <$> (c.predicate.select records.toList).outcome :=
  Query.outcome_map List.length _

theorem select_of_answered (h : records.Answered c) :
    (c.predicate.select records.toList).outcome = .ok (records.accepted c) := by
  obtain ⟨flags, hflags⟩ := exists_mapM_eq_ok_iff.mpr h
  rw [outcome_select, hflags]
  rfl

theorem select_of_firstFailure (h : records.FirstFailure c e before) :
    (c.predicate.select records.toList).outcome = .error e := by
  obtain ⟨failing, after, hsplit, hfail⟩ := h.split
  rw [outcome_select, mapM_eq_error_iff.mpr ⟨before, failing, after, hsplit, h.answered, hfail⟩]
  rfl

/-- **Filtering succeeds if the condition fails on no element**, and keeps what it accepts. -/
theorem filter_eq_ok_iff {kept : Records} :
    (records.filter c).outcome = .ok kept
      ↔ records.Answered c ∧ kept = ⟨records.accepted c⟩ := by
  constructor
  · intro h
    have hanswered : records.Answered c := by
      rw [Answered, ← exists_mapM_eq_ok_iff]
      cases hflags : records.indexed.mapM c.verdict with
      | ok flags => exact ⟨flags, rfl⟩
      | error e =>
        rw [outcome_filter, outcome_select, hflags] at h
        cases h
    rw [outcome_filter, select_of_answered hanswered] at h
    exact ⟨hanswered, (Except.ok.inj h).symm⟩
  · rintro ⟨hanswered, rfl⟩
    rw [outcome_filter, select_of_answered hanswered]
    rfl

/-- **Filtering fails with the first failure of the condition.** -/
theorem filter_eq_error_iff :
    (records.filter c).outcome = .error e ↔ ∃ before, records.FirstFailure c e before := by
  constructor
  · intro h
    have hfail : records.indexed.mapM c.verdict = .error e := by
      rw [outcome_filter, outcome_select] at h
      cases hflags : records.indexed.mapM c.verdict with
      | ok flags =>
        rw [hflags] at h
        cases h
      | error e' =>
        rw [hflags] at h
        cases h
        rfl
    obtain ⟨before, failing, after, hsplit, hbefore, hfail⟩ := mapM_eq_error_iff.mp hfail
    exact ⟨before, ⟨failing, after, hsplit, hfail⟩, hbefore⟩
  · rintro ⟨before, hfail⟩
    rw [outcome_filter, select_of_firstFailure hfail]
    rfl

/-! ### Searching -/

theorem outcome_find? :
    (records.find? c).outcome = (Option.map Prod.fst)
      <$> (records.indexed.findM? fun (value, position) =>
        c.predicate.test value position).outcome :=
  Query.outcome_map (Option.map Prod.fst) _

theorem outcome_any :
    (records.any c).outcome = Option.isSome <$> (records.find? c).outcome :=
  Query.outcome_map Option.isSome _

theorem outcome_all :
    (records.all c).outcome = (!·) <$> (records.any c.negation).outcome := by
  rw [all_eq_any_not, Query.outcome_map]

theorem find?_of_answered (h : records.Answered c) :
    (records.find? c).outcome = .ok (records.accepted c).head? := by
  have hsearch := Condition.outcome_findM?_append h []
  rw [List.append_nil] at hsearch
  rw [outcome_find?, hsearch, accepted, List.head?_map, List.head?_filter]
  cases records.indexed.find? c.accepts <;> rfl

/-- With a failure, an element is found if one before it is accepted. -/
theorem find?_of_firstFailure (h : records.FirstFailure c e before) :
    (records.find? c).outcome
      = if ∃ entry ∈ before, c.verdict entry = .ok true
        then .ok ((before.find? c.accepts).map Prod.fst) else .error e := by
  obtain ⟨failing, after, hsplit, hfail⟩ := h.split
  have hafter : ((failing :: after).findM? fun (value, position) =>
      c.predicate.test value position).outcome = .error e := by
    have htest : (c.predicate.test failing.1 failing.2).outcome = .error e := hfail
    rw [List.findM?, Query.outcome_bind, htest]
    rfl
  rw [outcome_find?, hsplit, Condition.outcome_findM?_append h.answered, hafter]
  cases hfind : before.find? c.accepts with
  | none =>
    rw [if_neg]
    · rfl
    · rintro ⟨entry, hentry, hyes⟩
      exact List.find?_eq_none.mp hfind entry hentry (Condition.accepts_iff.mpr hyes)
  | some found =>
    rw [if_pos ⟨found, List.mem_of_find?_eq_some hfind,
      Condition.accepts_iff.mp (List.find?_some hfind)⟩]
    rfl

theorem any_of_firstFailure (h : records.FirstFailure c e before) :
    (records.any c).outcome
      = if ∃ entry ∈ before, c.verdict entry = .ok true then .ok true else .error e := by
  rw [outcome_any, find?_of_firstFailure h]
  split
  · next hyes =>
    obtain ⟨entry, hentry, hyes⟩ := hyes
    have hfound : (before.find? c.accepts).isSome = true :=
      List.find?_isSome.mpr ⟨entry, hentry, Condition.accepts_iff.mpr hyes⟩
    show Except.ok ((before.find? c.accepts).map Prod.fst).isSome = _
    rw [Option.isSome_map, hfound]
  · rfl

theorem all_of_firstFailure (h : records.FirstFailure c e before) :
    (records.all c).outcome
      = if ∃ entry ∈ before, c.verdict entry = .ok false then .ok false else .error e := by
  rw [outcome_all, any_of_firstFailure h.negation]
  simp only [Condition.verdict_negation_eq_ok_iff, Bool.not_true]
  split <;> rfl

/-! ### The two parts -/

theorem splitBy_of_answered (h : records.Answered c) :
    records.SplitBy c ⟨records.accepted c⟩ ⟨records.accepted c.negation⟩ := by
  have hfilter : records.indexed.filter c.negation.accepts
      = records.indexed.filter fun entry => !c.accepts entry :=
    List.filter_congr fun entry hentry => Condition.accepts_negation (h entry hentry)
  refine ⟨_, _, List.filter_sublist, List.filter_sublist, ?_, ?_, ?_, rfl, rfl⟩
  · rw [hfilter]
    exact List.filter_append_perm c.accepts records.indexed
  · intro entry hentry
    exact Condition.accepts_iff.mp (List.mem_filter.mp hentry).2
  · intro entry hentry
    exact Condition.verdict_negation_eq_ok_iff.mp
      (Condition.accepts_iff.mp (List.mem_filter.mp hentry).2)

theorem length_accepted_add (h : records.Answered c) :
    (records.accepted c).length + (records.accepted c.negation).length = records.size := by
  obtain ⟨yes, no, -, -, hperm, -, -, hyes, hno⟩ := splitBy_of_answered h
  have hkept : (records.accepted c).length = yes.length := by
    show (Records.mk (records.accepted c)).toList.length = _
    rw [hyes, List.length_map]
  have hdropped : (records.accepted c.negation).length = no.length := by
    show (Records.mk (records.accepted c.negation)).toList.length = _
    rw [hno, List.length_map]
  have htotal : yes.length + no.length = records.size := by
    rw [← List.length_append, hperm.length_eq, indexed, List.length_zipIdx, size]
  omega

/-- Without failures, all elements satisfy the condition if all are kept. -/
theorem all_of_answered (h : records.Answered c) :
    (records.all c).outcome = .ok (decide ((records.accepted c).length = records.size)) := by
  have hsize := length_accepted_add h
  have hnone : (!(records.accepted c.negation).head?.isSome)
      = decide ((records.accepted c).length = records.size) := by
    cases hdropped : records.accepted c.negation with
    | nil =>
      rw [hdropped, List.length_nil] at hsize
      simp only [List.head?_nil, Option.isSome_none, Bool.not_false]
      exact (decide_eq_true (by omega)).symm
    | cons first rest =>
      rw [hdropped, List.length_cons] at hsize
      exact (decide_eq_false (by omega)).symm
  rw [outcome_all, outcome_any, find?_of_answered h.negation, ← hnone]
  rfl

/-! ### All queries -/

/-- Asking for the only match returns it, fails if there are more, and fails with the condition. -/
theorem outcome_unique? :
    (records.unique? c).outcome = (c.predicate.select records.toList).outcome >>= fun values =>
      match values with
      | [] => .ok none
      | [only] => .ok (some only)
      | several => .error (.notUnique several.length) := by
  rw [unique?, Query.outcome_bind]
  refine bind_congr fun values => ?_
  rcases values with _ | ⟨first, _ | ⟨second, rest⟩⟩ <;> rfl

/-- **All queries by one condition tell the same story.** If filtering succeeds, the others are
read off the elements that are kept; those that are not are kept by the negation. If filtering
fails, it is with the first failure of the condition, and so does every query that is not decided
before it. In any case, all elements satisfy a condition unless some satisfies its negation. -/
theorem queries_agree (records : Records) (c : Condition Id) :
    (∀ kept, (records.filter c).outcome = .ok kept →
      (c.predicate.select records.toList).outcome = .ok kept.toList
      ∧ (records.count c).outcome = .ok kept.size
      ∧ (records.find? c).outcome = .ok kept.toList.head?
      ∧ (records.any c).outcome = .ok (!kept.isEmpty)
      ∧ (kept.size = 0 → (records.unique? c).outcome = .ok none)
      ∧ (∀ only, kept.toList = [only] → (records.unique? c).outcome = .ok (some only))
      ∧ (1 < kept.size → (records.unique? c).outcome = .error (.notUnique kept.size))
      ∧ (records.all c).outcome = .ok (decide (kept.size = records.size))
      ∧ ∃ dropped, (records.filter c.negation).outcome = .ok dropped
        ∧ records.SplitBy c kept dropped)
    ∧ (∀ e, (records.filter c).outcome = .error e →
      (c.predicate.select records.toList).outcome = .error e
      ∧ (records.count c).outcome = .error e
      ∧ (records.unique? c).outcome = .error e
      ∧ (records.filter c.negation).outcome = .error e
      ∧ ∃ before, records.FirstFailure c e before
        ∧ (records.find? c).outcome
          = (if ∃ entry ∈ before, c.verdict entry = .ok true
            then .ok ((before.find? c.accepts).map Prod.fst) else .error e)
        ∧ (records.any c).outcome
          = (if ∃ entry ∈ before, c.verdict entry = .ok true then .ok true else .error e)
        ∧ (records.all c).outcome
          = (if ∃ entry ∈ before, c.verdict entry = .ok false then .ok false else .error e))
    ∧ (records.all c).outcome = (!·) <$> (records.any c.negation).outcome := by
  refine ⟨fun kept hkept => ?_, fun e he => ?_, outcome_all⟩
  · obtain ⟨hanswered, rfl⟩ := filter_eq_ok_iff.mp hkept
    have hselect := select_of_answered hanswered
    have hfind := find?_of_answered hanswered
    have hunique : (records.unique? c).outcome = _ := outcome_unique?
    rw [hselect] at hunique
    refine ⟨hselect, ?_, hfind, ?_, ?_, ?_, ?_, all_of_answered hanswered,
      ⟨records.accepted c.negation⟩, filter_eq_ok_iff.mpr ⟨hanswered.negation, rfl⟩,
      splitBy_of_answered hanswered⟩
    · rw [outcome_count, hselect]
      rfl
    · rw [outcome_any, hfind]
      show Except.ok (records.accepted c).head?.isSome = .ok (!(records.accepted c).isEmpty)
      cases records.accepted c <;> rfl
    · intro hsize
      have hnil : records.accepted c = [] := List.length_eq_zero_iff.mp hsize
      rw [hunique, hnil]
      rfl
    · intro only honly
      have hsingle : records.accepted c = [only] := honly
      rw [hunique, hsingle]
      rfl
    · intro hsize
      rw [hunique]
      show _ = Except.error (QueryError.notUnique (records.accepted c).length)
      have hlength : 1 < (records.accepted c).length := hsize
      match hvalues : records.accepted c with
      | [] => rw [hvalues] at hlength; contradiction
      | [only] => rw [hvalues] at hlength; contradiction
      | first :: second :: rest => rfl
  · obtain ⟨before, hfail⟩ := filter_eq_error_iff.mp he
    have hselect := select_of_firstFailure hfail
    refine ⟨hselect, ?_, ?_, filter_eq_error_iff.mpr ⟨before, hfail.negation⟩, before, hfail,
      find?_of_firstFailure hfail, any_of_firstFailure hfail, all_of_firstFailure hfail⟩
    · rw [outcome_count, hselect]
      rfl
    · rw [outcome_unique?, hselect]
      rfl

/-- A failure behind the only match: searching is decided before it, counting is not. -/
theorem queries_agree_failure_behind_match :
    let hit : Value := .obj [("a", .arr [.int 1])]
    let miss : Value := .obj [("a", .arr [.int 2])]
    let c : Condition Id := .column (.dotted "a[0]") (.equals (.int 1))
    let sound : Records := ⟨[miss, hit]⟩
    let broken : Records := ⟨[miss, hit, .obj [("a", .int 7)]]⟩
    let e : QueryError := .notIndexable "a[0]" .number
    (sound.filter c).outcome = .ok ⟨[hit]⟩
      ∧ (sound.unique? c).outcome = .ok (some hit) ∧ (sound.all c).outcome = .ok false
      ∧ (∃ dropped, (sound.filter c.negation).outcome = .ok dropped
        ∧ sound.SplitBy c ⟨[hit]⟩ dropped)
      ∧ (broken.filter c).outcome = .error e
      ∧ (broken.count c).outcome = .error e ∧ (broken.find? c).outcome = .ok (some hit)
      ∧ ∃ before, broken.FirstFailure c e before := by
  intro hit miss c sound broken e
  have hsound : (sound.filter c).outcome = .ok ⟨[hit]⟩ := rfl
  have hbroken : (broken.filter c).outcome = .error e := rfl
  obtain ⟨hsuccess, -, -⟩ := queries_agree sound c
  obtain ⟨-, -, -, -, -, hunique, -, hall, hsplit⟩ := hsuccess _ hsound
  obtain ⟨-, hfailure, -⟩ := queries_agree broken c
  obtain ⟨-, hcount, -, -, before, hfirst, -, -, -⟩ := hfailure e hbroken
  exact ⟨hsound, hunique hit rfl, hall, hsplit, hbroken, hcount, rfl, before, hfirst⟩

end Records

end RecordQuery
