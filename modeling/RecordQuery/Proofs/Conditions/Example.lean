import RecordQuery.Predicate.Condition
import RecordQuery.Proofs.Path.Address
import RecordQuery.Proofs.Values.Structure

/-!
# Query by example

An object, as a condition, asks for elements that have its fields, with equal values in them. The
keys are read as dotted paths. A key without dots and brackets is the name of a field and nothing
else, so the example says what it seems to say: no such test fails, on whatever value it is made,
and what it finds is a matter of look-ups and equality.

Elements may have more fields than the example, and a field that they lack counts as `null`. So the
fewer fields an example has, the more it finds; and an object is always among what its own fields
ask for, since equality is reflexive on values that come from outside.

## Why the keys have to be names

A key with a dot in it is a path into the value of a field, and a key with brackets may be malformed
and then fails on every value. Both are legitimate as conditions, but then the example is not an
example: an object that has the key as a field need not have a node at the path. `PlainKeys` rules
this out, and nothing else. The empty key and numerals are names as well. On an object a numeral is
looked up like any other name.

## Equality and duplicates

That an object is found by its own fields takes two conditions. Its values have to be equal to
themselves, which holds of all values that can be written in JSON, although not of those with a
double that is no number. And a key has to lead back to the value that stands next to it, so no key
may occur twice. Objects from outside have both.

A field that is asked to be `null` is met by a field that is not there. So with more fields an
example does not find more, but it need not find less either.

## Main definitions

* `Value.resembles` — the value has the fields of an example
* `PlainKeys` — the keys of an example are names

## Main results

* `Condition.test_ofValue_obj` — what an example says about a value
* `Records.filter_ofValue_obj` — what an example selects
* `Condition.query_by_example` — the summary
-/

namespace RecordQuery

variable {m : Type → Type} [Monad m] [LawfulMonad m]

/-! ### Selecting without effects -/

/-- A predicate that says yes or no to every value selects those to which it says yes. -/
theorem Predicate.selectFrom_of_test {predicate : Predicate m} {p : Value → Bool}
    (h : ∀ value position, predicate.test value position = pure (p value)) (start : Nat)
    (values : List Value) : predicate.selectFrom start values = pure (values.filter p) := by
  induction values generalizing start with
  | nil => rfl
  | cons value rest ih =>
    rw [selectFrom, h, pure_bind, ih, pure_bind, List.filter_cons]

/-! ### Examples -/

/-- The value has the fields of a pattern, with equal values in them. A field that is not there
counts as `null`. -/
def Value.resembles (pattern : Entries Value) (value : Value) : Bool :=
  pattern.all fun (key, expected) => ((value.field? key).getD .null).equal expected

theorem Value.resembles_iff {pattern : Entries Value} {value : Value} :
    value.resembles pattern = true
      ↔ ∀ entry ∈ pattern, ((value.field? entry.1).getD .null).equal entry.2 = true :=
  List.all_eq_true

/-- The keys of a pattern are names: they have neither dots nor brackets. -/
def PlainKeys (pattern : Entries Value) : Prop := ∀ entry ∈ pattern, (Access.field entry.1).Plain

instance (pattern : Entries Value) : Decidable (PlainKeys pattern) :=
  inferInstanceAs (Decidable (∀ entry ∈ pattern, (Access.field entry.1).Plain))

variable {pattern : Entries Value}

/-- **A pattern asks for its fields by name**, and does not fail. -/
theorem Condition.test_ofValue_obj (hpattern : PlainKeys pattern) (value : Value) (position : Nat) :
    (ofValue (.obj pattern) : Condition m).predicate.test value position
      = pure (value.resembles pattern) := by
  show testFields (pattern.map fun (key, expected) => (⟨key⟩, .equals expected)) value position = _
  induction pattern with
  | nil => rfl
  | cons entry rest ih =>
    obtain ⟨hentry, hrest⟩ := List.forall_mem_cons.mp hpattern
    have hresolve : DotPath.resolve ⟨entry.1⟩ value = .ok (value.field? entry.1) :=
      Value.deep?_name hentry value
    rw [testFields] at ih ⊢
    rw [List.map_cons, List.allM_cons, ih hrest]
    simp only [hresolve, Query.ofExcept_ok, pure_bind, Requirement.meets, Value.resembles,
      List.all_cons]
    cases ((value.field? entry.1).getD .null).equal entry.2 <;> rfl

/-- **A pattern selects the records that resemble it.** -/
theorem Records.filter_ofValue_obj (hpattern : PlainKeys pattern) (records : Records) :
    (records.filter (.ofValue (.obj pattern)) : Query m Records)
      = pure ⟨records.toList.filter (·.resembles pattern)⟩ := by
  have htest := Condition.test_ofValue_obj (m := m) hpattern
  rw [Records.filter, Predicate.select, Predicate.selectFrom_of_test htest, pure_bind]

/-- **An object resembles any pattern of fields that it has.** -/
theorem Value.resembles_of_subset {fields : Entries Value} (hrange : InRange (.obj fields))
    (hnodup : (Entries.keys fields).Nodup) (hsubset : pattern ⊆ fields) :
    (Value.obj fields).resembles pattern = true := by
  refine resembles_iff.mpr fun entry hentry => ?_
  have hlookup : (Value.obj fields).field? entry.1 = some entry.2 :=
    (Entries.lookup_eq_some_iff_mem hnodup).mpr (hsubset hentry)
  rw [hlookup]
  exact equal_refl (hrange.of_obj entry (hsubset hentry))

theorem Value.resembles_mono {wider : Entries Value} (hsubset : pattern ⊆ wider) {value : Value}
    (h : value.resembles wider = true) : value.resembles pattern = true :=
  resembles_iff.mpr fun entry hentry => resembles_iff.mp h entry (hsubset hentry)

/-- **Query by example.** An object whose keys are names never fails as a condition. It holds of the
objects that have, for each of its fields, an equal value in the field of that name, `null` standing
for one that is not there. So it holds of itself, and what is left of it without some fields holds
of it as well. It selects the records that resemble it, and with more fields it selects some of
these. -/
theorem Condition.query_by_example (hpattern : PlainKeys pattern) :
    (∀ value position, (ofValue (.obj pattern) : Condition m).predicate.test value position
        = pure (value.resembles pattern))
      ∧ (∀ fields, (Value.obj fields).resembles pattern = true
        ↔ ∀ entry ∈ pattern, ((fields.lookup entry.1).getD .null).equal entry.2 = true)
      ∧ (Value.InRange (.obj pattern) → (Entries.keys pattern).Nodup →
        ∀ part, part ⊆ pattern → ∀ position,
          (ofValue (.obj part) : Condition m).predicate.test (.obj pattern) position = pure true)
      ∧ ∀ wider, pattern ⊆ wider → PlainKeys wider → ∀ records : Records,
        let kept := records.toList.filter (·.resembles pattern)
        let fewer := records.toList.filter (·.resembles wider)
        (records.filter (ofValue (.obj pattern)) : Query m Records) = pure ⟨kept⟩
          ∧ (records.filter (ofValue (.obj wider)) : Query m Records) = pure ⟨fewer⟩
          ∧ fewer.Sublist kept := by
  refine ⟨test_ofValue_obj hpattern, fun fields => Value.resembles_iff, ?_, ?_⟩
  · intro hrange hnodup part hsubset position
    have hpart : PlainKeys part := fun entry hentry => hpattern entry (hsubset hentry)
    rw [test_ofValue_obj hpart, Value.resembles_of_subset hrange hnodup hsubset]
  · intro wider hsubset hwider records kept fewer
    refine ⟨Records.filter_ofValue_obj hpattern records,
      Records.filter_ofValue_obj hwider records, ?_⟩
    exact List.monotone_filter_right _ fun value => Value.resembles_mono hsubset

/-- An empty name, a numeral, and a field with `null` that an element may lack. -/
theorem Condition.query_by_example_odd_names :
    let items : Value := .arr [.int 1, .null]
    let part : Entries Value := [("1", items)]
    let whole : Entries Value := [("", .int 0), ("1", items), ("ü", .null)]
    let other : Entries Value := [("", .num (.float .negZero)), ("1", items), ("b", .int 2)]
    let records : Records := ⟨[.obj part, .int 0, .obj whole]⟩
    PlainKeys whole ∧ PlainKeys part
      ∧ (ofValue (.obj whole) : Condition Id).predicate.test (.obj other) 0 = pure true
      ∧ (ofValue (.obj part) : Condition Id).predicate.test (.obj whole) 0 = pure true
      ∧ (records.filter (ofValue (.obj part)) : Query Id Records)
        = pure ⟨[.obj part, .obj whole]⟩ := by
  intro items part whole other records
  have hwhole : PlainKeys whole := by decide
  have hpart : PlainKeys part := by decide
  have hitems : items.InRange :=
    .arr (List.forall_mem_cons.mpr ⟨.num (by decide), List.forall_mem_singleton.mpr .null⟩)
  have hrange : Value.InRange (.obj whole) := .obj (List.forall_mem_cons.mpr
    ⟨.num (by decide), List.forall_mem_cons.mpr ⟨hitems, List.forall_mem_singleton.mpr .null⟩⟩)
  have hnodup : (Entries.keys whole).Nodup := by decide
  have hsubset : part ⊆ whole := List.cons_subset.mpr ⟨by simp [whole], List.nil_subset _⟩
  obtain ⟨htest, -, hself, -⟩ := query_by_example (m := Id) hwhole
  obtain ⟨-, -, -, hselect⟩ := query_by_example (m := Id) hpart
  refine ⟨hwhole, hpart, ?_, hself hrange hnodup part hsubset 0,
    (hselect whole hsubset hwhole records).1⟩
  rw [htest]
  exact congrArg pure (by decide +kernel)

end RecordQuery
