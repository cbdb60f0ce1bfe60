import RecordQuery.Proofs.Reading
import RecordQuery.Records.Sort

/-!
# Comparisons that sorting can rely on

A sort is determined by its comparison only if the comparison is a total preorder on the values that
are sorted: turning a pair around swaps the outcome, and the order is transitive. A comparison that
is given from outside may be anything, and so may the native order on values of mixed kinds, where
pairs without an order count as equal. `TotalPreorderOn` is the condition, on a list of values.

The native order meets it on `Uniform` values. There it is the order of a rank: the text, the truth
value, the integer or the rank of a double, with `null` before all ranks.

## What can go wrong

The native order takes pairs that have no order for equal. Among values of mixed kinds this is not
transitive: a text ties with every number, and numbers do not all tie. Numbers have a defect of
their own. Integers up to the bound of 64 bits with sign are compared exactly and all other pairs as
doubles, so two integers that differ can both be level with a double. This is why `Uniform` keeps
integers and doubles apart, and integers below the bound. Which mixtures of numbers still work is
the subject of `RecordQuery.Proofs.Numbers.Order`.

A double that is no number has no order with anything, itself included, and ties with all of them.
It is excluded for the same reason.

## Implementation notes

The condition is on a list of values, since it is used for the values of a column. It is two laws
and not three: that a value ties with itself follows from the swap of a pair with itself.

On each kind the native order is the order of a rank, so the laws are those of the rank's order.
`totalPreorderOn_nativeOrder_of_rank` adds `null` in front of all ranks by ranking values in
`Option`, whose order begins with `none`. The four kinds are four instances of it.

## Main results

* `TotalPreorderOn.transCmp` — positions are ordered by the values that stand there
* `totalPreorderOn_nativeOrder` — the native order on values of one kind
-/

namespace RecordQuery

/-- The comparison is a total preorder on the values. -/
structure TotalPreorderOn {α : Type} (comparison : α → α → Ordering) (values : List α) : Prop where
  /-- Turning a pair around swaps the outcome. -/
  swap : ∀ a ∈ values, ∀ b ∈ values, comparison b a = (comparison a b).swap
  /-- What comes at or before another value comes at or before all that follow. -/
  trans : ∀ a ∈ values, ∀ b ∈ values, ∀ c ∈ values,
    (comparison a b).isLE → (comparison b c).isLE → (comparison a c).isLE

/-- Apart from `null`, the values are all texts, all truth values, all integers of 64 bits with
sign, or all doubles that are numbers. -/
def Uniform (values : List Value) : Prop :=
  (∀ v ∈ values, v = .null ∨ ∃ s, v = .str s)
    ∨ (∀ v ∈ values, v = .null ∨ ∃ b, v = .bool b)
    ∨ (∀ v ∈ values, v = .null
        ∨ ∃ n, v = .num (.int n) ∧ -Num.exactBound ≤ n ∧ n < Num.exactBound)
    ∨ ∀ v ∈ values, v = .null ∨ ∃ x, v = .num (.float x) ∧ x.isNaN = false

variable {comparison : Value → Value → Ordering} {values : List Value}

namespace TotalPreorderOn

/-- Anything that has a value is ordered by its value. -/
theorem transCmp {ι : Type} (h : TotalPreorderOn comparison values) {f : ι → Value}
    (hf : ∀ i, f i ∈ values) : Std.TransCmp fun i j => comparison (f i) (f j) where
  eq_swap := h.swap _ (hf _) _ (hf _)
  isLE_trans := h.trans _ (hf _) _ (hf _) _ (hf _)

/-- A comparison of values by their ranks is a total preorder. -/
theorem of_rank {κ τ : Type} [Ord τ] [Std.TransOrd τ] {P : κ → Prop} (value : κ → Value)
    (rank : κ → τ) (hvalues : ∀ v ∈ values, ∃ k, P k ∧ value k = v)
    (hrank : ∀ k l, P k → P l → comparison (value k) (value l) = compare (rank k) (rank l)) :
    TotalPreorderOn comparison values where
  swap a ha b hb := by
    obtain ⟨k, hk, rfl⟩ := hvalues a ha
    obtain ⟨l, hl, rfl⟩ := hvalues b hb
    rw [hrank l k hl hk, hrank k l hk hl]
    exact Std.OrientedCmp.eq_swap
  trans a ha b hb c hc := by
    obtain ⟨k, hk, rfl⟩ := hvalues a ha
    obtain ⟨l, hl, rfl⟩ := hvalues b hb
    obtain ⟨m, hm, rfl⟩ := hvalues c hc
    rw [hrank k l hk hl, hrank l m hl hm, hrank k m hk hm]
    exact Std.TransCmp.isLE_trans

end TotalPreorderOn

/-- A direction keeps a comparison transitive, since the descending one compares the other way
round. -/
theorem Direction.transCmp_apply {ι : Type} (direction : Direction) (cmp : ι → ι → Ordering)
    [hcmp : Std.TransCmp cmp] : Std.TransCmp fun i j => direction.apply (cmp i j) := by
  cases direction with
  | ascending => exact hcmp
  | descending =>
    have hopposite : (fun i j => Direction.descending.apply (cmp i j)) = fun i j => cmp j i := by
      funext i j
      exact Std.OrientedCmp.eq_swap.symm
    rw [hopposite]
    exact Std.TransCmp.opposite

/-! ### The native order -/

namespace Value

theorem nativeOrder_null_left {v : Value} (h : v ≠ .null) : nativeOrder .null v = .lt := by
  cases v with
  | null => exact absurd rfl h
  | _ => rfl

theorem nativeOrder_null_right {v : Value} (h : v ≠ .null) : nativeOrder v .null = .gt := by
  cases v with
  | null => exact absurd rfl h
  | _ => rfl

theorem nativeOrder_int {m n : Int} (hm : m < Num.exactBound) (hn : n < Num.exactBound) :
    nativeOrder (.num (.int m)) (.num (.int n)) = compare m n := by
  rw [nativeOrder, compare?, Num.compare?, if_pos ⟨hm, hn⟩, Option.getD_some]

theorem nativeOrder_float {x y : Binary64} (hx : x.isNaN = false) (hy : y.isNaN = false) :
    nativeOrder (.num (.float x)) (.num (.float y)) = compare x.rank y.rank := by
  have hnan : (x.isNaN || y.isNaN) = false := by rw [hx, hy, Bool.or_false]
  rw [nativeOrder, compare?, Num.compare?, Num.toBinary64, Num.toBinary64, Binary64.compare?, hnan]
  · rfl
  · rintro _ _ ⟨⟩

end Value

/-- The native order is a total preorder on `null` and values that it compares by their ranks:
`null` gets a rank before all others. -/
theorem totalPreorderOn_nativeOrder_of_rank {κ τ : Type} [Ord τ] [Std.TransOrd τ] {P : κ → Prop}
    (value : κ → Value) (rank : κ → τ) (hne : ∀ k, value k ≠ .null)
    (hrank : ∀ k l, P k → P l →
      Value.nativeOrder (value k) (value l) = compare (rank k) (rank l))
    (hvalues : ∀ v ∈ values, v = .null ∨ ∃ k, v = value k ∧ P k) :
    TotalPreorderOn Value.nativeOrder values := by
  refine .of_rank (P := fun o => ∀ k ∈ o, P k) (fun o : Option κ => o.elim .null value)
    (fun o => o.map rank) ?_ ?_
  · intro v hv
    rcases hvalues v hv with rfl | ⟨k, rfl, hk⟩
    · exact ⟨none, by rintro _ ⟨⟩, rfl⟩
    · exact ⟨some k, by rintro _ ⟨⟩; exact hk, rfl⟩
  · rintro (_ | k) (_ | l) hk hl
    · rfl
    · exact Value.nativeOrder_null_left (hne l)
    · exact Value.nativeOrder_null_right (hne k)
    · exact hrank k l (hk k rfl) (hl l rfl)

/-- **On values of one kind the native order is a total preorder.** -/
theorem totalPreorderOn_nativeOrder (h : Uniform values) :
    TotalPreorderOn Value.nativeOrder values := by
  rcases h with h | h | h | h
  · refine totalPreorderOn_nativeOrder_of_rank (P := fun _ => True) Value.str id
      (fun _ => Value.noConfusion) (fun _ _ _ _ => rfl) fun v hv => ?_
    exact (h v hv).imp_right fun ⟨s, hs⟩ => ⟨s, hs, trivial⟩
  · refine totalPreorderOn_nativeOrder_of_rank (P := fun _ => True) Value.bool id
      (fun _ => Value.noConfusion) (fun _ _ _ _ => rfl) fun v hv => ?_
    exact (h v hv).imp_right fun ⟨b, hb⟩ => ⟨b, hb, trivial⟩
  · refine totalPreorderOn_nativeOrder_of_rank (P := fun n => n < Num.exactBound)
      (fun n => .num (.int n)) id
      (fun _ => Value.noConfusion) (fun _ _ => Value.nativeOrder_int) fun v hv => ?_
    exact (h v hv).imp_right fun ⟨n, hn, _, hbound⟩ => ⟨n, hn, hbound⟩
  · exact totalPreorderOn_nativeOrder_of_rank (fun x => .num (.float x)) Binary64.rank
      (fun _ => Value.noConfusion) (fun _ _ => Value.nativeOrder_float) h

end RecordQuery
