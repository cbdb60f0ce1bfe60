import RecordQuery.Proofs.Conditions.Agreement
import RecordQuery.Proofs.Keyed.Foremost
import RecordQuery.Proofs.Values.Structure

/-!
# Leaves as selections

Grouping goes by key texts and filtering by strict equality. A leaf of a grouping is what a filter
would select if, among the values of the column, those with the key text of the leaf are those that
equal some value of it. Nothing else separates the two: both keep elements in order, and both take
the column at the position of each element.

Key texts and equality do not mean the same everywhere. A string may spell a number, all objects
share one text, and equal numbers may be spelt apart. On a column of integers they do mean the same,
because different integers are written differently; on a column of strings, or of booleans, a text
is the value.

## What has to agree

A leaf is found under a text, and a filter is given a value. For a value of the column, the leaf
under its text has the elements whose values have this text, and the filter keeps the elements whose
values equal it. `Records.valuesOf_eq_accepted` asks that the two conditions agree on the values of
the column, for one value to compare them with, and for nothing else.

## The three kinds

* A string is its own text.
* The two booleans have two texts.
* An integer is written in decimal, and a numeral determines its number. This holds beyond the
  integers that doubles can tell apart, since neither the text nor equality goes through doubles.

Doubles are not among the kinds: the zeros of both signs are equal and have two texts. Nor may kinds
be mixed, since a string can be the text of a number.

## Implementation notes

A filter asks the column of each element anew, while grouping has read it before. That the column
can be read is a hypothesis, and then the condition fails on no element
(`Records.answered_column_equals`), so the filter keeps what the condition accepts.

## Main definitions

* `Value.Homogeneous` — all integers, all strings or all booleans

## Main results

* `Records.valuesOf_eq_accepted` — the elements with a key text and those that equal a value
* `Records.leaves_eq_filter` — the leaves of a grouping by a homogeneous column
-/

namespace RecordQuery

theorem Entries.lookup_gather {α : Type} (entries : Entries α) (key : String) :
    (Entries.gather entries).lookup key
      = if key ∈ Entries.keys entries then some (Entries.valuesOf key entries) else none := by
  rw [Entries.gather, Entries.lookup_map_keys]
  simp only [List.mem_eraseDups]

/-! ### Columns of one kind -/

namespace Value

/-- All values are integers, or all are strings, or all are booleans. -/
def Homogeneous (values : List Value) : Prop :=
  (∀ v ∈ values, ∃ n, v = .int n) ∨ (∀ v ∈ values, ∃ s, v = .str s)
    ∨ (∀ v ∈ values, ∃ b, v = .bool b)

/-- **Among homogeneous values, those with one key text are the equal ones.** -/
theorem Homogeneous.keyText_eq_iff {values : List Value} (h : Homogeneous values) {v w : Value}
    (hv : v ∈ values) (hw : w ∈ values) : v.keyText = w.keyText ↔ v.equal w = true := by
  rcases h with h | h | h
  · obtain ⟨m, rfl⟩ := h v hv
    obtain ⟨n, rfl⟩ := h w hw
    exact Num.text_int_inj.trans Num.equal_int.symm
  · obtain ⟨s, rfl⟩ := h v hv
    obtain ⟨t, rfl⟩ := h w hw
    exact beq_iff_eq.symm
  · obtain ⟨p, rfl⟩ := h v hv
    obtain ⟨q, rfl⟩ := h w hw
    cases p <;> cases q <;> decide

end Value

/-! ### Leaves and filters -/

theorem Condition.verdict_column_equals {c : Column} {ref v : Value} {entry : Value × Nat}
    (h : c.read entry.1 entry.2 = .ok v) :
    (Condition.column c (.equals ref)).verdict entry = .ok (v.equal ref) := by
  show (Query.ofExcept (c.read entry.1 entry.2) >>= fun v => pure (v.equal ref) :
    Query Id Bool).outcome = _
  rw [Query.outcome_bind, Query.outcome_ofExcept, h]
  rfl

namespace Records

variable {records : Records} {c : Column} {values : List Value}

theorem answered_column_equals (h : records.column c = .ok values) (ref : Value) :
    records.Answered (.column c (.equals ref)) := by
  intro entry hentry
  obtain ⟨v, -, hv⟩ := exists_of_mem_forall₂ (column_eq_ok_iff.mp h).flip hentry
  exact ⟨v.equal ref, Condition.verdict_column_equals hv⟩

/-- **The elements with the key text of a value are those that equal it**, if the column has its key
text where it equals it. -/
theorem valuesOf_eq_accepted (h : records.column c = .ok values) {ref : Value}
    (hkey : ∀ v ∈ values, v.keyText = ref.keyText ↔ v.equal ref = true) :
    Entries.valuesOf ref.keyText ((values.map Value.keyText).zip records.toList)
      = records.accepted (.column c (.equals ref)) := by
  have hread := column_eq_ok_iff.mp h
  rw [← map_fst_indexed, accepted]
  clear h
  generalize records.indexed = entries at hread ⊢
  induction hread with
  | nil => rfl
  | @cons entry v entries values hentry _ ih =>
    obtain ⟨hfirst, hrest⟩ := List.forall_mem_cons.mp hkey
    have haccepts : (Condition.column c (.equals ref)).accepts entry = v.equal ref :=
      Condition.accepts_of_verdict (Condition.verdict_column_equals hentry)
    have hsame : (v.keyText == ref.keyText) = v.equal ref := by
      rw [Bool.eq_iff_iff, beq_iff_eq, hfirst]
    have ih := ih hrest
    rw [Entries.valuesOf] at ih ⊢
    rw [List.map_cons, List.map_cons, List.zip_cons_cons, List.filter_cons, List.filter_cons,
      haccepts, hsame]
    cases v.equal ref with
    | false => exact ih
    | true => exact congrArg (entry.1 :: ·) ih

/-- **On a homogeneous column, grouping is filtering by equality.** The keys are the texts of the
values, each once; under the text of a value is a leaf with the elements that a filter for the value
selects; and two values are under one key exactly if they are equal. -/
theorem leaves_eq_filter (h : records.column c = .ok values) (hone : Value.Homogeneous values) :
    ∃ grouping, records.group [c] = .ok grouping
      ∧ grouping.keys = (values.map Value.keyText).eraseDups
      ∧ ∀ v ∈ values,
        (∃ leaf, grouping.get? v.keyText = some (.leaf leaf)
          ∧ (records.filter (.column c (.equals v))).outcome = .ok leaf)
        ∧ ∀ w ∈ values, v.keyText = w.keyText ↔ v.equal w = true := by
  have hkeysOn : records.keysOn c = .ok (values.map Value.keyText) :=
    keysOn_eq_ok_iff.mpr ⟨values, h, rfl⟩
  have hkeys := keys_zip_toList hkeysOn
  refine ⟨_, group_one_eq_ok h, ?_, fun v hv => ⟨?_, fun w hw => hone.keyText_eq_iff hv hw⟩⟩
  · rw [← gather_keys_zip, Grouping.keys_leaves, Entries.keys_gather, hkeys]
  · have hmem : v.keyText ∈ values.map Value.keyText := List.mem_map_of_mem hv
    rw [← gather_keys_zip, Grouping.get?_leaves, Entries.lookup_gather, hkeys, if_pos hmem,
      valuesOf_eq_accepted h fun w hw => hone.keyText_eq_iff hw hv]
    exact ⟨_, rfl, filter_eq_ok_iff.mpr ⟨answered_column_equals h v, rfl⟩⟩

/-- Integers on both sides of `2 ^ 63` that fall on one double stay apart. -/
theorem leaves_eq_filter_beyond_double :
    let element (n : Int) : Value := .obj [("id", .arr [.int n])]
    let records : Records := ⟨[element 9223372036854775808, element (-1),
      element 9223372036854775807, element 9223372036854775808]⟩
    let c := Column.dotted "id[0]"
    let values : List Value := [.int 9223372036854775808, .int (-1), .int 9223372036854775807,
      .int 9223372036854775808]
    records.column c = .ok values ∧ Value.Homogeneous values
      ∧ (∃ grouping, records.group [c] = .ok grouping
        ∧ grouping.keys = ["9223372036854775808", "-1", "9223372036854775807"]
        ∧ ∃ leaf, grouping.get? "9223372036854775808" = some (.leaf leaf)
          ∧ (records.filter (.column c (.equals (.int 9223372036854775808)))).outcome = .ok leaf)
      ∧ Value.equal (.int 9223372036854775808) (.int 9223372036854775807) = false := by
  intro element records c values
  have hvalues : records.column c = .ok values := rfl
  have hone : Value.Homogeneous values := .inl (by simp [values, Value.int])
  obtain ⟨grouping, hgrouping, hkeys, hleaves⟩ := leaves_eq_filter hvalues hone
  obtain ⟨hleaf, hapart⟩ := hleaves (.int 9223372036854775808) (by simp [values])
  have hne : Value.equal (.int 9223372036854775808) (.int 9223372036854775807) ≠ true := by
    rw [Ne, ← hapart (.int 9223372036854775807) (by simp [values])]
    decide
  exact ⟨hvalues, hone, ⟨grouping, hgrouping, hkeys, hleaf⟩, Bool.eq_false_iff.mpr hne⟩

end Records

end RecordQuery
