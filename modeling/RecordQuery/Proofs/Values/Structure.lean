import RecordQuery.Proofs.Conditions.Verdict
import RecordQuery.Proofs.Values.Equality
import RecordQuery.Proofs.Values.Fields

/-!
# Equality inside arrays and objects

Equality does not go down into a value by itself: what it compares there it compares by identity.
Equal arrays have equal items in equal places. Items that are equal one by one make equal arrays
only if no integer stands where the other array has a double, and the same holds of objects and
their fields. It shows in conditions on several columns: they are not the same as conditions on each
column, once the literals are an array.

Objects are compared as lists of fields. Fields that come from outside are in the order of their
keys, and then their order says nothing: equal objects are those that have the same keys, with
equal fields.

## The form of numbers

An integer and a double of the same value are equal at the top and not inside. Whoever compares two
arrays item by item, with the equality of values, gets a different answer if an item of one is an
integer and the item of the other a double. `Value.SameForm` is what has to be added, at each place,
and it is all that has to be added: two items that are equal and of one form are identical
(`Value.identical_iff`), and identity is what the arrays are compared by.

For values that are no numbers the condition holds always, so it restricts nothing else.

## Fields

An object from outside has its fields in the order of the keys. Two such objects with the same keys
have them at the same places, so comparing fields in turn compares what is under each key. The
statement about objects therefore speaks of keys and of look-ups. Both objects have to be in order
for it, since a comparison in turn would otherwise stop at fields whose order differs.

## Implementation notes

A condition on several columns compares the array of their values. The columns are read before the
array is compared, so a column that cannot be read makes the condition fail; what is described is
when the condition accepts, and that takes columns that can all be read.

## Main results

* `Value.equal_arr_iff`, `equal_obj_iff` — equality of arrays and of objects
* `Condition.accepts_columns_arr_iff` — several columns and an array
* `Value.equal_structural` — the summary
-/

namespace RecordQuery

/-! ### Arrays, objects and several columns -/

namespace Value

/-- **Equal arrays** are equal item by item, the items being of one form. -/
theorem equal_arr_iff {as bs : List Value} :
    equal (.arr as) (.arr bs) = true
      ↔ List.Forall₂ (fun a b => equal a b = true ∧ SameForm a b) as bs := by
  rw [equal_of_not_number Kind.noConfusion, identical, identicalItems_iff]
  simp only [identical_iff]

/-- **Equal objects** have the same keys and are equal field by field, the fields being of one
form. -/
theorem equal_obj_iff {fs gs : Entries Value} (hfs : fs.Ascending) (hgs : gs.Ascending) :
    equal (.obj fs) (.obj gs) = true
      ↔ (∀ key, key ∈ Entries.keys fs ↔ key ∈ Entries.keys gs)
        ∧ ∀ key a b, fs.lookup key = some a → gs.lookup key = some b →
          equal a b = true ∧ SameForm a b := by
  have hkeys : Entries.keys fs = Entries.keys gs
      ↔ ∀ key, key ∈ Entries.keys fs ↔ key ∈ Entries.keys gs := by
    constructor
    · exact fun heq key => by rw [heq]
    · exact List.Pairwise.eq_of_mem_iff hfs hgs
  rw [equal_of_not_number Kind.noConfusion, identical, identicalFields_iff,
    Entries.forall₂_iff_lookup (R := fun a b => identical a b = true) hfs.nodup, hkeys]
  simp only [identical_iff]

end Value

namespace Condition

theorem accepts_column_iff {c : Column} {ref : Value} {entry : Value × Nat} :
    (Condition.column c (.equals ref)).accepts entry = true
      ↔ ∃ v, c.read entry.1 entry.2 = .ok v ∧ v.equal ref = true := by
  rw [accepts_iff]
  show (Query.ofExcept (c.read entry.1 entry.2) >>= fun v => pure (v.equal ref) :
    Query Id Bool).outcome = _ ↔ _
  simp only [Query.outcome_bind, Query.outcome_ofExcept, Query.outcome_pure, bind_eq_ok_iff,
    Except.ok.injEq]

theorem accepts_columns_iff {columns : List Column} {ref : Value} {entry : Value × Nat} :
    (Condition.columns columns (.satisfies (.eq ref))).accepts entry = true
      ↔ ∃ values, Column.readAll columns entry.1 entry.2 = .ok values
        ∧ (Value.arr values).equal ref = true := by
  rw [accepts_iff]
  show (Query.ofExcept (Column.readAll columns entry.1 entry.2) >>= fun values =>
    pure ((Value.arr values).equal ref) : Query Id Bool).outcome = _ ↔ _
  simp only [Query.outcome_bind, Query.outcome_ofExcept, Query.outcome_pure, bind_eq_ok_iff,
    Except.ok.injEq]

/-- **Several columns equal an array** if each meets its item, the value and the item being of one
form. -/
theorem accepts_columns_arr_iff {columns : List Column} {refs : List Value}
    {entry : Value × Nat} :
    (Condition.columns columns (.satisfies (.eq (.arr refs)))).accepts entry = true
      ↔ List.Forall₂ (fun c ref => (Condition.column c (.equals ref)).accepts entry = true
          ∧ ∀ v, c.read entry.1 entry.2 = .ok v → v.SameForm ref) columns refs := by
  have hitem : ∀ (c : Column) (ref : Value),
      (Condition.column c (.equals ref)).accepts entry = true
          ∧ (∀ v, c.read entry.1 entry.2 = .ok v → v.SameForm ref)
        ↔ ∃ v, c.read entry.1 entry.2 = .ok v ∧ v.equal ref = true ∧ v.SameForm ref := by
    intro c ref
    rw [accepts_column_iff]
    constructor
    · rintro ⟨⟨v, hread, hequal⟩, hform⟩
      exact ⟨v, hread, hequal, hform v hread⟩
    · rintro ⟨v, hread, hequal, hform⟩
      refine ⟨⟨v, hread, hequal⟩, fun w hw => ?_⟩
      rw [hread] at hw
      cases hw
      exact hform
  rw [accepts_columns_iff]
  simp only [hitem, Column.readAll, mapM_eq_ok_iff, Value.equal_arr_iff, forall₂_comp_iff]

end Condition

namespace Value

/-- **Strict equality is structural up to the form of numbers.** Arrays are equal if their items
are, place by place, and objects if they have the same keys and equal fields; and several columns
equal an array if each equals its item. In each case an integer does not count as equal to a
double. -/
theorem equal_structural {fs gs : Entries Value} (hfs : fs.Ascending) (hgs : gs.Ascending)
    (as bs refs : List Value) (columns : List Column) (entry : Value × Nat) :
    (equal (.arr as) (.arr bs) = true
        ↔ List.Forall₂ (fun a b => equal a b = true ∧ SameForm a b) as bs)
      ∧ (equal (.obj fs) (.obj gs) = true
        ↔ (∀ key, key ∈ Entries.keys fs ↔ key ∈ Entries.keys gs)
          ∧ ∀ key a b, fs.lookup key = some a → gs.lookup key = some b →
            equal a b = true ∧ SameForm a b)
      ∧ ((Condition.columns columns (.satisfies (.eq (.arr refs)))).accepts entry = true
        ↔ List.Forall₂ (fun c ref => (Condition.column c (.equals ref)).accepts entry = true
            ∧ ∀ v, c.read entry.1 entry.2 = .ok v → v.SameForm ref) columns refs) :=
  ⟨equal_arr_iff, equal_obj_iff hfs hgs, Condition.accepts_columns_arr_iff⟩

/-- Fields that are equal one by one, in objects that are not: one has an integer where the other
has a double. -/
theorem equal_structural_mixed_field :
    let fs : Entries Value := [("a", .int 1), ("b", .arr [.str "x"])]
    let gs : Entries Value := [("a", .num (.float (.ofInt 1))), ("b", .arr [.str "x"])]
    fs.Ascending ∧ gs.Ascending
      ∧ equal (.int 1) (.num (.float (.ofInt 1))) = true
      ∧ equal (.obj fs) (.obj gs) = false := by
  intro fs gs
  have hfs : fs.Ascending := by decide
  have hgs : gs.Ascending := by decide
  refine ⟨hfs, hgs, by decide +kernel, ?_⟩
  rw [← Bool.not_eq_true, (equal_structural hfs hgs [] [] [] [] (.null, 0)).2.1]
  rintro ⟨-, hfields⟩
  exact (hfields "a" (.int 1) (.num (.float (.ofInt 1))) rfl rfl).2

/-- Equality is not structural by value: `[1]` and `[1.0]` have equal items. -/
theorem equal_not_structural :
    ¬ ∀ as bs : List Value, InRange (.arr as) → InRange (.arr bs) →
      (equal (.arr as) (.arr bs) = true
        ↔ List.Forall₂ (fun a b => equal a b = true) as bs) := by
  intro h
  have hequal := (h [.int 1] [.num (.float (.ofInt 1))]
    (.arr (by simpa using .num (by decide))) (.arr (by simpa using .num (by decide +kernel)))).mpr
    (.cons (by decide +kernel) .nil)
  exact absurd hequal (by decide +kernel)

end Value

end RecordQuery
