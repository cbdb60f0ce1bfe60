import RecordQuery.Proofs.Numbers.Rounding
import RecordQuery.Proofs.Sorting.Preorder

/-!
# The order of numbers

Two integers below `exactBound` are compared exactly, every other pair as doubles. Each of the two
ways is a total preorder, and they never contradict each other: the larger of two integers has no
smaller double. They still do not make one order. A number that is compared as a double stands
equal to every integer that falls on the same double, although the exact comparison tells those
integers apart. Such a number `Blurs` them.

This is the only way in which the order of numbers fails to be transitive. It takes an integer
beyond `2 ^ 53`: below, different integers are different doubles.

## How the two ways fit together

Suppose `a` is not greater than `b`, and `b` not greater than `c`. In either way of comparing, the
doubles of the three numbers ascend (`Num.rank_le_of_not_gt`). If `a` and `c` are compared as
doubles, `a` is therefore not greater than `c`. If they are compared exactly, both are integers
below the bound, and they can come out the wrong way round only if they have the same double. Then
`b` has it too, and `b` was not compared exactly, or the exact order would have decided. That is the
definition of `Num.Blurs`.

The converse is the easy half: a number that blurs two integers is level with both, and they are not
level with each other.

## What a sort may be given

Whether a list of numbers can be sorted is a question about pairs of integers and one more number in
the list, and it has an exact answer. Integers alone may be mixed at will below the bound, and so
may doubles. Doubles and integers may be mixed if the integers are below `2 ^ 53`.

## Implementation notes

A number that comes from outside has a rank among all doubles, an integer that of the double nearest
to it. Comparing as doubles is comparing ranks, so one lemma per way of comparing suffices, and
doubles do not occur after that.

## Main results

* `compare?_cases` — the two ways in which numbers are compared
* `gt_iff_blurs` — where transitivity fails
* `totalPreorderOn_numbers_iff` — the numbers that a sort can rely on
* `totalPreorderOn_numbers` — among them all doubles and integers below `2 ^ 53`, mixed freely
-/

namespace RecordQuery

namespace Num

/-- The numbers that come from outside: integers of 64 bits, with sign or without, and finite
doubles. -/
def InRange : Num → Prop
  | .int n => -exactBound ≤ n ∧ n < 2 * exactBound
  | .float x => x.isFinite = true

instance (a : Num) : Decidable a.InRange :=
  match a with
  | .int n => inferInstanceAs (Decidable (-exactBound ≤ n ∧ n < 2 * exactBound))
  | .float x => inferInstanceAs (Decidable (x.isFinite = true))

/-- An integer that is compared exactly with others of its kind. -/
def IsExact (a : Num) : Prop := ∃ n, a = .int n ∧ n < exactBound

/-- The place of a number among all doubles. -/
def rank (a : Num) : Int := a.toBinary64.rank

/-- The number is compared as a double and stands equal to both integers, which are compared exactly
with each other. -/
structure Blurs (b : Num) (m n : Int) : Prop where
  not_exact : ¬ b.IsExact
  left_lt : m < exactBound
  right_lt : n < exactBound
  left_rank : b.rank = rank (.int m)
  right_rank : b.rank = rank (.int n)

variable {a b c : Num}

/-! ### The two ways of comparing -/

theorem isNaN_toBinary64 (ha : a.InRange) : a.toBinary64.isNaN = false := by
  cases a with
  | int n => exact Binary64.isNaN_ofInt n
  | float x =>
    have hfinite : x.magnitude < Binary64.infinite := of_decide_eq_true ha
    exact decide_eq_false (Nat.not_lt.mpr (Nat.le_of_lt hfinite))

theorem compare?_toBinary64 (ha : a.InRange) (hb : b.InRange) :
    a.toBinary64.compare? b.toBinary64 = some (compare a.rank b.rank) := by
  rw [Binary64.compare?, isNaN_toBinary64 ha, isNaN_toBinary64 hb]
  rfl

theorem compare?_of_not_exact (ha : a.InRange) (hb : b.InRange)
    (h : ¬ (a.IsExact ∧ b.IsExact)) : a.compare? b = some (compare a.rank b.rank) := by
  rw [← compare?_toBinary64 ha hb]
  cases a with
  | float x => cases b <;> rfl
  | int m =>
    cases b with
    | float x => rfl
    | int n =>
      rw [compare?, if_neg]
      · rfl
      · rintro ⟨hm, hn⟩
        exact h ⟨⟨m, rfl, hm⟩, ⟨n, rfl, hn⟩⟩

theorem compare?_cases (ha : a.InRange) (hb : b.InRange) :
    (∃ m n, a = .int m ∧ b = .int n ∧ m < exactBound ∧ n < exactBound
        ∧ a.compare? b = some (compare m n))
      ∨ ¬ (a.IsExact ∧ b.IsExact) ∧ a.compare? b = some (compare a.rank b.rank) := by
  by_cases h : a.IsExact ∧ b.IsExact
  · obtain ⟨⟨m, rfl, hm⟩, ⟨n, rfl, hn⟩⟩ := h
    exact .inl ⟨m, n, rfl, rfl, hm, hn, by rw [compare?, if_pos ⟨hm, hn⟩]⟩
  · exact .inr ⟨h, compare?_of_not_exact ha hb h⟩

theorem not_gt_iff {i j : Int} : some (compare i j) ≠ some Ordering.gt ↔ i ≤ j := by
  rw [Ne, Option.some_inj, Int.compare_eq_gt, Int.not_lt]

/-- The two ways agree: what is not greater is not greater as a double. -/
theorem rank_le_of_not_gt (ha : a.InRange) (hb : b.InRange) (h : a.compare? b ≠ some .gt) :
    a.rank ≤ b.rank := by
  rcases compare?_cases ha hb with ⟨m, n, rfl, rfl, _, _, heq⟩ | ⟨_, heq⟩
  · rw [heq, not_gt_iff] at h
    exact Binary64.rank_ofInt_mono h
  · rwa [heq, not_gt_iff] at h

theorem compare?_swap (ha : a.InRange) (hb : b.InRange) :
    ∃ o, a.compare? b = some o ∧ b.compare? a = some o.swap := by
  rcases compare?_cases ha hb with ⟨m, n, rfl, rfl, hm, hn, heq⟩ | ⟨h, heq⟩
  · refine ⟨_, heq, ?_⟩
    rw [compare?, if_pos ⟨hn, hm⟩, Int.compare_swap]
  · refine ⟨_, heq, ?_⟩
    rw [compare?_of_not_exact hb ha (fun hexact => h hexact.symm), Int.compare_swap]

/-! ### Where transitivity fails -/

namespace Blurs

variable {m n : Int}

theorem compare?_left (h : b.Blurs m n) (hm : InRange (.int m)) (hb : b.InRange) :
    compare? (.int m) b = some .eq := by
  rw [compare?_of_not_exact hm hb (fun hexact => h.not_exact hexact.2), h.left_rank,
    Int.compare_eq_eq.mpr rfl]

theorem compare?_right (h : b.Blurs m n) (hb : b.InRange) (hn : InRange (.int n)) :
    compare? b (.int n) = some .eq := by
  rw [compare?_of_not_exact hb hn (fun hexact => h.not_exact hexact.1), h.right_rank,
    Int.compare_eq_eq.mpr rfl]

theorem compare?_ends (h : b.Blurs m n) (hlt : n < m) : compare? (.int m) (.int n) = some .gt := by
  rw [compare?, if_pos ⟨h.left_lt, h.right_lt⟩, Int.compare_eq_gt.mpr hlt]

end Blurs

/-- **A smaller number comes out greater only across a number that blurs the two.** -/
theorem gt_iff_blurs (ha : a.InRange) (hb : b.InRange) (hc : c.InRange)
    (hab : a.compare? b ≠ some .gt) (hbc : b.compare? c ≠ some .gt) :
    a.compare? c = some .gt ↔ ∃ m n, a = .int m ∧ c = .int n ∧ n < m ∧ b.Blurs m n := by
  have hrankab : a.rank ≤ b.rank := rank_le_of_not_gt ha hb hab
  have hrankbc : b.rank ≤ c.rank := rank_le_of_not_gt hb hc hbc
  constructor
  · intro hgt
    rcases compare?_cases ha hc with ⟨m, n, rfl, rfl, hm, hn, heq⟩ | ⟨_, heq⟩
    · rw [heq, Option.some_inj, Int.compare_eq_gt] at hgt
      have hrankca : rank (.int n) ≤ rank (.int m) := Binary64.rank_ofInt_mono (Int.le_of_lt hgt)
      refine ⟨m, n, rfl, rfl, hgt, ?_, hm, hn, by omega, by omega⟩
      -- three integers below the bound are all compared exactly
      rintro ⟨k, rfl, hk⟩
      rw [compare?, if_pos ⟨hm, hk⟩, not_gt_iff] at hab
      rw [compare?, if_pos ⟨hk, hn⟩, not_gt_iff] at hbc
      omega
    · rw [heq, Option.some_inj, Int.compare_eq_gt] at hgt
      omega
  · rintro ⟨m, n, rfl, rfl, hlt, hblurs⟩
    exact hblurs.compare?_ends hlt

/-- No number blurs different integers below `2 ^ 53`. -/
theorem not_blurs {m n : Int} (hm : m.natAbs < Nat.pow 2 53) (hn : n.natAbs < Nat.pow 2 53)
    (h : n < m) : ¬ b.Blurs m n := by
  intro hblurs
  have hrank : rank (.int n) < rank (.int m) := Binary64.rank_ofInt_lt hn hm h
  rw [← hblurs.left_rank, ← hblurs.right_rank] at hrank
  exact Int.lt_irrefl _ hrank

end Num

namespace Value

variable {a b c : Num}

/-- **The order of numbers is defined throughout, turning a pair around swaps the outcome, and the
order is transitive except across a number that blurs different integers.** -/
theorem compare?_numbers (ha : a.InRange) (hb : b.InRange) (hc : c.InRange) :
    (∃ o, compare? (.num a) (.num b) = some o ∧ compare? (.num b) (.num a) = some o.swap)
      ∧ (compare? (.num a) (.num b) ≠ some .gt → compare? (.num b) (.num c) ≠ some .gt →
        (compare? (.num a) (.num c) = some .gt
          ↔ ∃ m n, a = .int m ∧ c = .int n ∧ n < m ∧ b.Blurs m n)) :=
  ⟨Num.compare?_swap ha hb, Num.gt_iff_blurs ha hb hc⟩

/-- The double `2 ^ 53` blurs the integers `2 ^ 53` and `2 ^ 53 + 1`. -/
theorem compare?_numbers_float_blurs :
    compare? (.num (.int 9007199254740993)) (.num (.float (.ofInt 9007199254740992))) = some .eq
      ∧ compare? (.num (.float (.ofInt 9007199254740992))) (.num (.int 9007199254740992))
        = some .eq
      ∧ compare? (.num (.int 9007199254740993)) (.num (.int 9007199254740992)) = some .gt := by
  have ha : Num.InRange (.int 9007199254740993) := by decide
  have hb : Num.InRange (.float (.ofInt 9007199254740992)) := by decide +kernel
  have hc : Num.InRange (.int 9007199254740992) := by decide
  have hblurs : Num.Blurs (.float (.ofInt 9007199254740992)) 9007199254740993 9007199254740992 := {
    not_exact := by rintro ⟨_, ⟨⟩, _⟩
    left_lt := by decide
    right_lt := by decide
    left_rank := by decide +kernel
    right_rank := by decide +kernel }
  have hab : compare? (.num (.int 9007199254740993)) (.num (.float (.ofInt 9007199254740992)))
      = some .eq := hblurs.compare?_left ha hb
  have hbc : compare? (.num (.float (.ofInt 9007199254740992))) (.num (.int 9007199254740992))
      = some .eq := hblurs.compare?_right hb hc
  refine ⟨hab, hbc, ((compare?_numbers ha hb hc).2 ?_ ?_).mpr ⟨_, _, rfl, rfl, by decide, hblurs⟩⟩
  · rw [hab]
    decide
  · rw [hbc]
    decide

/-- The integer `2 ^ 63` is compared as a double and blurs the two integers before it. -/
theorem compare?_numbers_not_trans :
    ¬ ∀ a b c : Num, a.InRange → b.InRange → c.InRange →
      compare? (.num a) (.num b) ≠ some .gt → compare? (.num b) (.num c) ≠ some .gt →
      compare? (.num a) (.num c) ≠ some .gt := by
  intro h
  exact h (.int 9223372036854775807) (.int 9223372036854775808) (.int 9223372036854775806)
    (by decide +kernel) (by decide +kernel) (by decide +kernel) (by decide +kernel)
    (by decide +kernel) (by decide +kernel)

end Value

/-! ### Numbers that a sort can rely on -/

section Lists

variable {numbers : List Num}

theorem isLE_nativeOrder_iff {a b : Num} (ha : a.InRange) (hb : b.InRange) :
    (Value.nativeOrder (.num a) (.num b)).isLE ↔ a.compare? b ≠ some .gt := by
  obtain ⟨o, heq, _⟩ := Num.compare?_swap ha hb
  rw [Value.nativeOrder, Value.compare?, heq, Option.getD_some, Ne, Option.some_inj]
  exact Ordering.isLE_iff_ne_gt

/-- **The native order is a total preorder on the numbers that contain no two different integers
together with a number that blurs them.** -/
theorem totalPreorderOn_numbers_iff (hnumbers : ∀ a ∈ numbers, a.InRange) :
    TotalPreorderOn Value.nativeOrder (numbers.map .num)
      ↔ ∀ b ∈ numbers, ∀ m n, .int m ∈ numbers → .int n ∈ numbers → n < m → ¬ b.Blurs m n := by
  constructor
  · intro h b hb m n hm hn hlt hblurs
    have htrans := h.trans _ (List.mem_map_of_mem hm) _ (List.mem_map_of_mem hb) _
      (List.mem_map_of_mem hn)
    rw [isLE_nativeOrder_iff (hnumbers _ hm) (hnumbers _ hb),
      isLE_nativeOrder_iff (hnumbers _ hb) (hnumbers _ hn),
      isLE_nativeOrder_iff (hnumbers _ hm) (hnumbers _ hn),
      hblurs.compare?_left (hnumbers _ hm) (hnumbers _ hb),
      hblurs.compare?_right (hnumbers _ hb) (hnumbers _ hn), hblurs.compare?_ends hlt] at htrans
    exact htrans (by decide) (by decide) rfl
  · intro h
    constructor
    · rintro _ hva _ hvb
      obtain ⟨a, ha, rfl⟩ := List.mem_map.mp hva
      obtain ⟨b, hb, rfl⟩ := List.mem_map.mp hvb
      obtain ⟨o, heq, hswap⟩ := Num.compare?_swap (hnumbers a ha) (hnumbers b hb)
      rw [Value.nativeOrder, Value.nativeOrder, Value.compare?, Value.compare?, heq, hswap]
      rfl
    · rintro _ hva _ hvb _ hvc
      obtain ⟨a, ha, rfl⟩ := List.mem_map.mp hva
      obtain ⟨b, hb, rfl⟩ := List.mem_map.mp hvb
      obtain ⟨c, hc, rfl⟩ := List.mem_map.mp hvc
      rw [isLE_nativeOrder_iff (hnumbers a ha) (hnumbers b hb),
        isLE_nativeOrder_iff (hnumbers b hb) (hnumbers c hc),
        isLE_nativeOrder_iff (hnumbers a ha) (hnumbers c hc)]
      intro hab hbc hac
      obtain ⟨m, n, rfl, rfl, hlt, hblurs⟩ :=
        (Num.gt_iff_blurs (hnumbers a ha) (hnumbers b hb) (hnumbers _ hc) hab hbc).mp hac
      exact h b hb m n ha hc hlt hblurs

/-- **On doubles and integers below `2 ^ 53`, mixed freely, the native order is a total
preorder.** -/
theorem totalPreorderOn_numbers (hnumbers : ∀ a ∈ numbers, a.InRange)
    (hsafe : ∀ n, .int n ∈ numbers → n.natAbs < Nat.pow 2 53) :
    TotalPreorderOn Value.nativeOrder (numbers.map .num) := by
  rw [totalPreorderOn_numbers_iff hnumbers]
  intro b _ m n hm hn hlt
  exact Num.not_blurs (hsafe m hm) (hsafe n hn) hlt

end Lists

end RecordQuery
