import RecordQuery.Proofs.Conditions.Verdict
import RecordQuery.Proofs.Values.Equality

/-!
# Order beside equality

On scalars of one kind the native order is total: of two texts, two truth values or two numbers one
comes before the other, or they are level. Level texts and truth values are equal. Level numbers are
equal too, except for integers that the order takes as doubles and that collide there. Equality
compares integers of any size exactly, so it tells those apart, and neither comes before the other.

Such integers are the only exception, which settles how predicates with one reference relate: at
least and at most together are equality, and exactly one of less, equal and greater holds, on all
pairs but those.

## Where order and equality disagree

The order compares two integers exactly if both are below `2 ^ 63`. If one of them is not, both are
taken as doubles, and a double stands for many integers up there. Equality knows integers of any
size. So two integers that differ and fall on one double, with at least one of them at `2 ^ 63` or
above, have no order and are not equal (`Value.LevelApart`).

An integer and a double are compared as doubles by both, and two doubles are, too. So these pairs
are never the exception. They have another defect, which concerns three numbers and not two; that is
the subject of `RecordQuery.Proofs.Numbers.Order`.

## What is assumed

Both values are scalars of one kind (`Value.Comparable`) and come from outside. Values of different
kinds have no order, `null` apart, and neither have arrays or objects. For them the laws fail for
want of an order: of two equal arrays neither is at least the other.

## Implementation notes

The three outcomes are counted, since that exactly one of three predicates holds is a statement
about all of them. The count is one or zero and never more.

## Main results

* `compare?_eq_iff` — level scalars are equal, or level apart
* `order_beside_equality` — the same of the order, of its predicates, and of the three outcomes
-/

namespace RecordQuery

/-- Whether a predicate without effects holds of a value at a position. -/
def Predicate.holds (predicate : Predicate Id) (value : Value) (position : Nat) : Bool :=
  (Condition.satisfies predicate).accepts (value, position)

theorem Predicate.holds_ofBool {p : Value → Bool} {value : Value} {position : Nat} :
    (Predicate.ofBool p).holds value position = p value :=
  Condition.accepts_of_verdict rfl

namespace Value

/-- Two different integers that the order has level: they collide, and not both are below the bound
under which it compares integers exactly. -/
def LevelApart (a b : Value) : Prop :=
  ∃ m n, a = .int m ∧ b = .int n ∧ Num.Collide m n
    ∧ ¬ (m < Num.exactBound ∧ n < Num.exactBound)

variable {a b : Value}

theorem not_equal_of_levelApart (h : LevelApart a b) : equal a b = false := by
  obtain ⟨m, n, rfl, rfl, hcollide, -⟩ := h
  rw [← Bool.not_eq_true]
  exact fun hequal => hcollide.ne (Num.equal_int.mp hequal)

/-! ### Level scalars -/

/-- Both values are numbers, both texts, both truth values, or both `null`. -/
structure Comparable (a b : Value) : Prop where
  kind_eq : a.kind = b.kind
  not_array : a.kind ≠ .array
  not_object : a.kind ≠ .object

theorem Comparable.cases (h : Comparable a b) :
    a = .null ∧ b = .null ∨ (∃ p q, a = .bool p ∧ b = .bool q) ∨ (∃ s t, a = .str s ∧ b = .str t)
      ∨ ∃ m n, a = .num m ∧ b = .num n := by
  obtain ⟨hkind, harray, hobject⟩ := h
  cases a <;> cases b <;> simp_all [kind]

theorem exists_compare? (ha : a.InRange) (hb : b.InRange) (h : Comparable a b) :
    ∃ o, compare? a b = some o := by
  rcases h.cases with ⟨rfl, rfl⟩ | ⟨p, q, rfl, rfl⟩ | ⟨s, t, rfl, rfl⟩ | ⟨m, n, rfl, rfl⟩
  · exact ⟨.eq, rfl⟩
  · exact ⟨compare p q, rfl⟩
  · exact ⟨compare s t, rfl⟩
  · obtain ⟨o, ho, -⟩ := Num.compare?_swap ha.of_num hb.of_num
    exact ⟨o, ho⟩

/-- **Level scalars are equal, or they are level apart.** -/
theorem compare?_eq_iff (ha : a.InRange) (hb : b.InRange) (h : Comparable a b) :
    compare? a b = some .eq ↔ equal a b = true ∨ LevelApart a b := by
  rcases h.cases with ⟨rfl, rfl⟩ | ⟨p, q, rfl, rfl⟩ | ⟨s, t, rfl, rfl⟩ | ⟨m, n, rfl, rfl⟩
  · exact ⟨fun _ => .inl rfl, fun _ => rfl⟩
  · have hequal : equal (.bool p) (.bool q) = true ↔ p = q := beq_iff_eq
    have hapart : ¬ LevelApart (.bool p) (.bool q) := by
      rintro ⟨_, _, ⟨⟩, -⟩
    rw [compare?, Option.some_inj, Std.LawfulEqOrd.compare_eq_iff_eq, hequal, or_iff_left hapart]
  · have hequal : equal (.str s) (.str t) = true ↔ s = t := beq_iff_eq
    have hapart : ¬ LevelApart (.str s) (.str t) := by
      rintro ⟨_, _, ⟨⟩, -⟩
    rw [compare?, Option.some_inj, Std.LawfulEqOrd.compare_eq_iff_eq, hequal, or_iff_left hapart]
  · rw [compare?, equal_num, Num.compare?_eq_iff ha.of_num hb.of_num]
    simp only [LevelApart, int, num.injEq]

/-! ### Predicates with one reference -/

theorem gte_and_lte_iff {position : Nat} :
    (Predicate.gte b).holds a position = true ∧ (Predicate.lte b).holds a position = true
      ↔ compare? a b = some .eq := by
  rw [Predicate.gte, Predicate.lte, Predicate.holds_ofBool, Predicate.holds_ofBool]
  rcases compare? a b with _ | _ | _ | _ <;> decide

/-- Of less, equal and greater one holds, except that none does where the two are level and not
equal. -/
theorem countP_trichotomy (ha : a.InRange) (hb : b.InRange) (h : Comparable a b) (position : Nat) :
    [Predicate.lt b, .eq b, .gt b].countP (·.holds a position)
      = if compare? a b = some .eq ∧ equal a b = false then 0 else 1 := by
  have hlevel := compare?_eq_iff ha hb h
  simp only [Predicate.lt, Predicate.eq, Predicate.gt, List.countP_cons, List.countP_nil,
    Predicate.holds_ofBool]
  obtain ⟨o, ho⟩ := exists_compare? ha hb h
  rw [ho] at hlevel ⊢
  cases hequal : equal a b with
  | true =>
    obtain rfl : o = .eq := Option.some.inj (hlevel.mpr (.inl hequal))
    rfl
  | false => cases o <;> rfl

/-- **Order and equality agree on scalars of one kind, but for integers that are level apart.**
Level scalars are equal; at least and at most together are equality; and exactly one of less, equal
and greater holds. -/
theorem order_beside_equality (ha : a.InRange) (hb : b.InRange) (h : Comparable a b)
    (position : Nat) :
    (compare? a b = some .eq ↔ equal a b = true ∨ LevelApart a b)
      ∧ ((Predicate.gte b).holds a position = true ∧ (Predicate.lte b).holds a position = true
        ↔ (Predicate.eq b).holds a position = true ∨ LevelApart a b)
      ∧ ([Predicate.lt b, .eq b, .gt b].countP (·.holds a position) = 1 ↔ ¬ LevelApart a b) := by
  have hlevel := compare?_eq_iff ha hb h
  refine ⟨hlevel, ?_, ?_⟩
  · rw [gte_and_lte_iff, hlevel, Predicate.eq, Predicate.holds_ofBool]
  · have hapart : compare? a b = some .eq ∧ equal a b = false ↔ LevelApart a b := by
      constructor
      · rintro ⟨hcompare, hequal⟩
        exact (hlevel.mp hcompare).resolve_left (by rw [hequal]; exact Bool.false_ne_true)
      · exact fun happ => ⟨hlevel.mpr (.inr happ), not_equal_of_levelApart happ⟩
    rw [countP_trichotomy ha hb h, ← hapart]
    split <;> simp_all

/-- The order has the integers `2 ^ 63 + 1` and `2 ^ 63` level, and none of the three relations
holds. -/
theorem order_beside_equality_level_apart :
    let a : Value := .int 9223372036854775809
    let b : Value := .int 9223372036854775808
    compare? a b = some .eq ∧ equal a b = false
      ∧ (Predicate.gte b).holds a 0 = true ∧ (Predicate.lte b).holds a 0 = true
      ∧ [Predicate.lt b, .eq b, .gt b].countP (·.holds a 0) ≠ 1 := by
  intro a b
  have ha : a.InRange := .num (by decide)
  have hb : b.InRange := .num (by decide)
  have hcomparable : Comparable a b := ⟨rfl, Kind.noConfusion, Kind.noConfusion⟩
  have hcollide : Num.Collide 9223372036854775809 9223372036854775808 :=
    ⟨by decide, by decide +kernel⟩
  have hapart : LevelApart a b := ⟨_, _, rfl, rfl, hcollide, by decide⟩
  obtain ⟨hlevel, hboth, hone⟩ := order_beside_equality ha hb hcomparable 0
  obtain ⟨hgte, hlte⟩ := hboth.mpr (.inr hapart)
  exact ⟨hlevel.mpr (.inr hapart), not_equal_of_levelApart hapart, hgte, hlte,
    fun h => hone.mp h hapart⟩

/-- Order and equality do not agree on all numbers. -/
theorem level_not_equal :
    ¬ ∀ a b : Value, a.InRange → b.InRange → Comparable a b →
      (compare? a b = some .eq ↔ equal a b = true) := by
  intro h
  have hequal := (h (.int 9223372036854775808) (.int 9223372036854775809) (.num (by decide))
    (.num (by decide)) ⟨rfl, Kind.noConfusion, Kind.noConfusion⟩).mp (by decide +kernel)
  exact absurd hequal (by decide)

end Value

end RecordQuery
