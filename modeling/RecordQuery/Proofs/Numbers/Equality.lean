import RecordQuery.Proofs.Numbers.Order

/-!
# The equality of numbers

Two integers are equal if they are the same, at any size; every other pair is equal if the two fall
on the same double. So equality has its two ways of comparing, like the order of numbers, but it
draws the line elsewhere: the order takes integers from `exactBound` on as doubles, equality never
does. Different integers may fall on one double. Where such integers `Collide`, a double stands
equal to both of them, and the order, once it compares them as doubles, has them level.

This is all that goes wrong with the equality of numbers, and all that keeps it apart from the
order. Colliding integers are never both below `2 ^ 53` (`Binary64.rank_ofInt_lt`).

## Transitivity

Take two equalities `a = b` and `b = c`. All three numbers have the same double. If `a` and `c` are
not both integers, they are compared as doubles and are equal. If they are, they are compared
exactly, and may differ. Then `b` cannot be an integer, since it would be equal to both exactly. So
the only way to fail is a double in the middle on which two different integers fall.

There are such integers from `2 ^ 53` on: doubles are two apart there, and later more.

## Views

Programs compare numbers of 64 bits by asking both for the same view, as an integer with sign,
without sign, or as a double. That the order of the three questions amounts to exact equality of
integers takes an argument: an integer below zero and one beyond the range of those with sign have
no integer view in common, so they are compared as doubles. They are different doubles, as one is
negative and the other is not.

## Implementation notes

Identity is for the numbers inside arrays and objects. It is equality together with one form, so its
laws are those of equality on integers and on doubles, each of which is an equivalence.

## Main results

* `equal_cases` — the two ways in which numbers are equal
* `equal_eq_equalInView` — the same in terms of 64-bit integers, with sign and without
* `equal_eq_false_iff` — where transitivity fails
* `compare?_eq_iff` — where level numbers are not equal
* `identical_iff` — identical numbers are equal and of one form
-/

namespace RecordQuery

namespace Binary64

theorem equal_iff {x y : Binary64} :
    x.equal y = true ↔ x.isNaN = false ∧ y.isNaN = false ∧ x.rank = y.rank := by
  rw [equal, beq_iff_eq, compare?]
  cases x.isNaN <;> cases y.isNaN <;> simp

end Binary64

namespace Num

/-- Both are integers, or both are doubles. -/
def SameForm : Num → Num → Prop
  | .int _, .int _ => True
  | .float _, .float _ => True
  | _, _ => False

/-- Two different integers that fall on the same double. -/
structure Collide (m n : Int) : Prop where
  ne : m ≠ n
  rank_eq : rank (.int m) = rank (.int n)

variable {a b c : Num}

/-! ### The two ways of being equal -/

theorem equal_int {m n : Int} : (Num.int m).equal (.int n) = true ↔ m = n := beq_iff_eq

theorem toBinary64_equal_iff (ha : a.InRange) (hb : b.InRange) :
    a.toBinary64.equal b.toBinary64 = true ↔ a.rank = b.rank := by
  rw [Binary64.equal_iff, isNaN_toBinary64 ha, isNaN_toBinary64 hb]
  exact ⟨fun h => h.2.2, fun h => ⟨rfl, rfl, h⟩⟩

theorem equal_cases (ha : a.InRange) (hb : b.InRange) :
    (∃ m n, a = .int m ∧ b = .int n ∧ (a.equal b = true ↔ m = n))
      ∨ (a.equal b = true ↔ a.rank = b.rank) := by
  cases a with
  | float x =>
    have hequal : (Num.float x).equal b = (Num.float x).toBinary64.equal b.toBinary64 := by
      cases b <;> rfl
    exact .inr (by rw [hequal, toBinary64_equal_iff ha hb])
  | int m =>
    cases b with
    | float y => exact .inr (toBinary64_equal_iff ha hb)
    | int n => exact .inl ⟨m, n, rfl, rfl, equal_int⟩

theorem rank_eq_of_equal (ha : a.InRange) (hb : b.InRange) (h : a.equal b = true) :
    a.rank = b.rank := by
  rcases equal_cases ha hb with ⟨m, n, rfl, rfl, hequal⟩ | hequal
  · rw [hequal.mp h]
  · exact hequal.mp h

theorem equal_refl (ha : a.InRange) : a.equal a = true := by
  rcases equal_cases ha ha with ⟨m, n, rfl, heq, hequal⟩ | hequal
  · exact hequal.mpr (Num.int.inj heq)
  · exact hequal.mpr rfl

theorem equal_symm (ha : a.InRange) (hb : b.InRange) (h : a.equal b = true) :
    b.equal a = true := by
  rcases equal_cases hb ha with ⟨n, m, rfl, rfl, hequal⟩ | hequal
  · exact hequal.mpr (equal_int.mp h).symm
  · exact hequal.mpr (rank_eq_of_equal ha hb h).symm

/-- **Numbers that equal a third one differ only if they are colliding integers and the third one is
the double on which they fall.** -/
theorem equal_eq_false_iff (ha : a.InRange) (hb : b.InRange) (hc : c.InRange)
    (hab : a.equal b = true) (hbc : b.equal c = true) :
    a.equal c = false ↔ ∃ m x n, a = .int m ∧ b = .float x ∧ c = .int n ∧ Collide m n := by
  have hrank : a.rank = c.rank :=
    (rank_eq_of_equal ha hb hab).trans (rank_eq_of_equal hb hc hbc)
  rw [← Bool.not_eq_true]
  constructor
  · intro hne
    rcases equal_cases ha hc with ⟨m, n, rfl, rfl, hequal⟩ | hequal
    · cases b with
      | int k => exact absurd (hequal.mpr ((equal_int.mp hab).trans (equal_int.mp hbc))) hne
      | float x => exact ⟨m, x, n, rfl, rfl, rfl, fun heq => hne (hequal.mpr heq), hrank⟩
    · exact absurd (hequal.mpr hrank) hne
  · rintro ⟨m, x, n, rfl, -, rfl, hcollide⟩
    exact fun h => hcollide.ne (equal_int.mp h)

/-! ### Beside the order -/

/-- **The order has two numbers level if they are equal, or if they are colliding integers that it
takes as doubles.** -/
theorem compare?_eq_iff (ha : a.InRange) (hb : b.InRange) :
    a.compare? b = some .eq ↔ a.equal b = true
      ∨ ∃ m n, a = .int m ∧ b = .int n ∧ Collide m n ∧ ¬ (m < exactBound ∧ n < exactBound) := by
  rcases compare?_cases ha hb with ⟨m, n, rfl, rfl, hm, hn, heq⟩ | ⟨hexact, heq⟩
  · rw [heq, Option.some_inj, Int.compare_eq_eq, equal_int]
    constructor
    · exact .inl
    · rintro (h | ⟨_, _, ⟨⟩, ⟨⟩, -, hbound⟩)
      · exact h
      · exact absurd ⟨hm, hn⟩ hbound
  · rw [heq, Option.some_inj, Int.compare_eq_eq]
    constructor
    · intro hrank
      rcases equal_cases ha hb with ⟨m, n, rfl, rfl, hequal⟩ | hequal
      · by_cases hmn : m = n
        · exact .inl (hequal.mpr hmn)
        · refine .inr ⟨m, n, rfl, rfl, ⟨hmn, hrank⟩, ?_⟩
          rintro ⟨hm, hn⟩
          exact hexact ⟨⟨m, rfl, hm⟩, ⟨n, rfl, hn⟩⟩
      · exact .inl (hequal.mpr hrank)
    · rintro (h | ⟨m, n, rfl, rfl, hcollide, -⟩)
      · exact rank_eq_of_equal ha hb h
      · exact hcollide.rank_eq

/-! ### Equality by views

A number of 64 bits has up to three views: as an integer with sign, as one without, and as a double.
Two numbers can be compared in the first of these views that both have. An integer below zero and
one from `exactBound` on share only the last view, where they stay apart because their signs
differ. -/

/-- The number as an integer with sign. -/
def signed? : Num → Option Int
  | .int n => if n < exactBound then some n else none
  | .float _ => none

/-- The number as an integer without sign. -/
def unsigned? : Num → Option Int
  | .int n => if 0 ≤ n then some n else none
  | .float _ => none

/-- Equality in a view, if both numbers have it. -/
def equalAs? (view : Num → Option Int) (a b : Num) : Option Bool := do
  return (← view a) == (← view b)

/-- Equality in the first view that both numbers have. -/
def equalInView (a b : Num) : Bool :=
  (equalAs? signed? a b <|> equalAs? unsigned? a b).getD (a.toBinary64.equal b.toBinary64)

theorem rank_ne_of_neg {m n : Int} (hm : m < 0) (hn : 0 ≤ n) : rank (.int m) ≠ rank (.int n) := by
  have hbelow : (Binary64.ofInt m).rank ≤ (Binary64.ofInt (-1)).rank :=
    Binary64.rank_ofInt_mono (by omega)
  have hgap : (Binary64.ofInt (-1)).rank < (Binary64.ofInt 0).rank :=
    Binary64.rank_ofInt_lt (by decide) (by decide) (by decide)
  have habove : (Binary64.ofInt 0).rank ≤ (Binary64.ofInt n).rank := Binary64.rank_ofInt_mono hn
  exact Int.ne_of_lt (Int.lt_of_le_of_lt hbelow (Int.lt_of_lt_of_le hgap habove))

theorem equalAs?_signed (m n : Int) : equalAs? signed? (.int m) (.int n)
    = if m < exactBound ∧ n < exactBound then some (m == n) else none := by
  by_cases hm : m < exactBound <;> by_cases hn : n < exactBound <;>
    simp [equalAs?, signed?, hm, hn]

theorem equalAs?_unsigned (m n : Int) : equalAs? unsigned? (.int m) (.int n)
    = if 0 ≤ m ∧ 0 ≤ n then some (m == n) else none := by
  by_cases hm : 0 ≤ m <;> by_cases hn : 0 ≤ n <;> simp [equalAs?, unsigned?, hm, hn]

theorem equalInView_of_not_int (h : a.signed? = none ∧ a.unsigned? = none
    ∨ b.signed? = none ∧ b.unsigned? = none) :
    a.equalInView b = a.toBinary64.equal b.toBinary64 := by
  rcases h with ⟨hs, hu⟩ | ⟨hs, hu⟩ <;> simp [equalInView, equalAs?, hs, hu]

/-- **Numbers are equal if they are in the first view that both have.** -/
theorem equal_eq_equalInView (ha : a.InRange) (hb : b.InRange) : a.equal b = a.equalInView b := by
  cases a with
  | float x =>
    rw [equalInView_of_not_int (.inl ⟨rfl, rfl⟩)]
    cases b <;> rfl
  | int m =>
    cases b with
    | float y =>
      rw [equalInView_of_not_int (.inr ⟨rfl, rfl⟩)]
      rfl
    | int n =>
      have hequal : (Num.int m).equal (.int n) = (m == n) := rfl
      rw [equalInView, equalAs?_signed, equalAs?_unsigned, hequal]
      by_cases hsigned : m < exactBound ∧ n < exactBound
      · simp [if_pos hsigned]
      rw [if_neg hsigned]
      by_cases hunsigned : 0 ≤ m ∧ 0 ≤ n
      · simp [if_pos hunsigned]
      -- one integer is too large for the first view, and the other is below zero
      have hbound : 0 < exactBound := by decide
      have hrank : rank (.int m) ≠ rank (.int n) := by
        rcases Int.lt_or_le m 0 with hm | hm
        · exact rank_ne_of_neg hm (by omega)
        · exact (rank_ne_of_neg (by omega) hm).symm
      have hne : m ≠ n := fun h => hrank (congrArg (fun k => rank (.int k)) h)
      have hdoubles : (Num.int m).toBinary64.equal (Num.int n).toBinary64 = false := by
        rw [Bool.eq_false_iff, Ne, toBinary64_equal_iff ha hb]
        exact hrank
      simp [if_neg hunsigned, hdoubles, hne]

/-! ### Beside identity -/

/-- Identical numbers are equal numbers of one form. -/
theorem identical_iff : a.identical b = true ↔ a.equal b = true ∧ a.SameForm b := by
  cases a <;> cases b <;> simp [identical, equal, SameForm, toBinary64]

theorem identical_symm (h : a.identical b = true) : b.identical a = true := by
  cases a <;> cases b <;> simp_all [identical, Binary64.equal_iff]

theorem identical_trans (hab : a.identical b = true) (hbc : b.identical c = true) :
    a.identical c = true := by
  cases a <;> cases b <;> cases c <;> simp_all [identical, Binary64.equal_iff]

end Num

end RecordQuery
