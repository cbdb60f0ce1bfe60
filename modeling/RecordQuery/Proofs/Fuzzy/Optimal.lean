import RecordQuery.Proofs.Fuzzy.Pairing
import Mathlib.Data.List.Count
import Mathlib.Logic.Equiv.Basic
import Mathlib.Order.Bounds.Basic

/-!
# Greedy matching is best possible

A walk never takes back a pair, and yet no other choice of pairs has more of them. The argument is
an exchange. Let any other pairs agree with the settled ones on the partners of the first positions
of the left list. Then they can be changed so that they agree on one position more, without losing a
pair:

* If the next position has a partner in the other pairs, then its settled partner is not a later
  one. The two partners *trade* places.
* If it has none there, its settled partner is *given* to it. Whoever had that one goes without, so
  that one pair comes and at most one goes.

A trade may hand the later partner to a position further on. That they fit is where the shape of the
windows matters: the position and its partner both move on, so that they are no further apart than
one of the two pairs that were crossed. The ends of the lists play no part in this.

## Why the walk is not followed

The proof is about settled pairs and not about the walk that makes them. Agreement goes position by
position through the left list, as the walk does, but all that is used at each position is what
`Settled` says of it. If position `i` has a partner in the other pairs, then the two fit, so that
one of them has a settled partner that is at least as early. Were it the partner that has one, and
that before `i`, the other pairs would have this pair, too, because they agree there. So it is `i`.

At the end, the pairs agree on the whole left list. Then the changed pairs are the settled ones in
some order, and there are as many of them.

## Implementation notes

A trade is a swap of two positions of the right list, applied to all pairs. So it keeps the number
of pairs and uses no position twice, without a case for whether the earlier partner was taken. Only
that the traded pairs fit takes cases.

## Main definitions

* `Similarity.trade`, `Similarity.giveTo` — the two changes
* `Similarity.AgreeBelow` — the same partners for all positions up to one

## Main results

* `Similarity.Fits.uncross` — pairs may be uncrossed
* `Similarity.Settled.exchange` — agreement on one more position
* `Similarity.Settled.length_le` — no pairing has more pairs than settled ones
* `Similarity.markCount_matching_isGreatest` — the number of matches is the greatest possible
-/

namespace RecordQuery

namespace Similarity

section Exchange

variable {α : Type} {reach : Int} {left right : List α} {pairs other : List (Nat × Nat)}
  {i i' j j' : Nat}

/-! ### Uncrossing -/

/-- **Pairs may be uncrossed.** If a position fits two partners, and a later position fits the
earlier partner, then it fits the later one, too. -/
theorem Fits.uncross (hi : i ≤ i') (hj : j ≤ j') (h : Fits reach left right i j)
    (hright : Fits reach left right i j') (hleft : Fits reach left right i' j) :
    Fits reach left right i' j' := by
  obtain ⟨-, c, hci, hcj⟩ := h
  obtain ⟨hnear, d, hdi, hdj'⟩ := hright
  obtain ⟨hnear', e, hei', hej⟩ := hleft
  obtain rfl : c = d := Option.some.inj (hci.symm.trans hdi)
  obtain rfl : c = e := Option.some.inj (hcj.symm.trans hej)
  refine ⟨?_, c, hei', hdj'⟩
  simp only [near, Bool.and_eq_true, decide_eq_true_eq] at hnear hnear' ⊢
  omega

/-! ### Two changes -/

/-- Position `j` of the right list is given to `i`, and whoever has it goes without. -/
def giveTo (i j : Nat) (pairs : List (Nat × Nat)) : List (Nat × Nat) :=
  (i, j) :: pairs.filter fun pair => decide (pair.2 ≠ j)

theorem mem_giveTo :
    (i', j') ∈ giveTo i j pairs ↔ i' = i ∧ j' = j ∨ (i', j') ∈ pairs ∧ j' ≠ j := by
  simp [giveTo]

/-- Two positions of the right list trade places. -/
def trade (j j' : Nat) (pairs : List (Nat × Nat)) : List (Nat × Nat) :=
  pairs.map (Prod.map id (Equiv.swap j j'))

theorem mem_trade {k : Nat} : (i, k) ∈ trade j j' pairs ↔ (i, Equiv.swap j j' k) ∈ pairs := by
  have hinvolutive :
      Function.Involutive (Prod.map id (Equiv.swap j j') : Nat × Nat → Nat × Nat) := by
    rintro ⟨a, b⟩
    simp
  exact List.mem_map_of_involutive hinvolutive

namespace Pairing

/-- A position without a partner may be given one that it fits. -/
theorem giveTo (h : Pairing reach left right pairs) (hfits : Fits reach left right i j)
    (halone : ∀ j', (i, j') ∉ pairs) : Pairing reach left right (giveTo i j pairs) where
  fits := by
    rintro ⟨i', j'⟩ hpair
    rcases mem_giveTo.mp hpair with ⟨rfl, rfl⟩ | ⟨hold, -⟩
    · exact hfits
    · exact h.fits _ hold
  left_nodup := by
    rw [Similarity.giveTo, List.map_cons, List.nodup_cons]
    refine ⟨?_, h.left_nodup.sublist (List.filter_sublist.map _)⟩
    intro hmem
    obtain ⟨⟨_, j'⟩, hpair, rfl⟩ := List.mem_map.mp hmem
    exact halone j' (List.mem_of_mem_filter hpair)
  right_nodup := by
    rw [Similarity.giveTo, List.map_cons, List.nodup_cons]
    refine ⟨?_, h.right_nodup.sublist (List.filter_sublist.map _)⟩
    intro hmem
    obtain ⟨pair, hpair, hj⟩ := List.mem_map.mp hmem
    exact of_decide_eq_true (List.mem_filter.mp hpair).2 hj

theorem length_le_giveTo (h : Pairing reach left right pairs) (i j : Nat) :
    pairs.length ≤ (Similarity.giveTo i j pairs).length := by
  have hone : pairs.countP (fun pair => decide (pair.2 = j)) ≤ 1 := by
    have hcount := List.nodup_iff_count_le_one.mp h.right_nodup j
    rwa [List.count, List.countP_map] at hcount
  have hsplit : pairs.length = pairs.countP (fun pair => decide (pair.2 = j))
      + pairs.countP fun pair => decide (pair.2 ≠ j) := by
    simpa using pairs.length_eq_countP_add_countP fun pair => decide (pair.2 = j)
  rw [Similarity.giveTo, List.length_cons, ← List.countP_eq_length_filter]
  omega

/-- A position may trade its partner for an earlier one, if nobody before it has that one. -/
theorem trade (h : Pairing reach left right pairs) (hle : j ≤ j')
    (hfits : Fits reach left right i j) (hpair : (i, j') ∈ pairs)
    (hlate : ∀ i', (i', j) ∈ pairs → i ≤ i') :
    Pairing reach left right (trade j j' pairs) where
  fits := by
    rintro ⟨i', k⟩ hk
    have hold := mem_trade.mp hk
    rcases eq_or_ne k j with rfl | hj
    · rw [Equiv.swap_apply_left] at hold
      rwa [h.left_unique hold hpair]
    · rcases eq_or_ne k j' with rfl | hj'
      · rw [Equiv.swap_apply_right] at hold
        exact Fits.uncross (hlate i' hold) hle hfits (h.fits _ hpair) (h.fits _ hold)
      · rw [Equiv.swap_apply_of_ne_of_ne hj hj'] at hold
        exact h.fits _ hold
  left_nodup := by
    rw [Similarity.trade, List.map_map]
    exact h.left_nodup
  right_nodup := by
    have hmap : (Similarity.trade j j' pairs).map Prod.snd
        = (pairs.map Prod.snd).map (Equiv.swap j j') := by
      rw [Similarity.trade, List.map_map, List.map_map]
      rfl
    rw [hmap]
    exact h.right_nodup.map (Equiv.swap j j').injective

end Pairing

/-! ### Agreement on the first positions -/

/-- The same partners for all positions of the left list before `n`. -/
def AgreeBelow (n : Nat) (pairs other : List (Nat × Nat)) : Prop :=
  ∀ i < n, ∀ j, (i, j) ∈ pairs ↔ (i, j) ∈ other

namespace AgreeBelow

/-- After a trade, the pairs agree on the position that traded, too. -/
theorem trade (h : AgreeBelow i pairs other) (hpairs : Pairing reach left right pairs)
    (hother : Pairing reach left right other) (hj : (i, j) ∈ pairs) (hj' : (i, j') ∈ other) :
    AgreeBelow (i + 1) pairs (trade j j' other) := by
  intro i' hi' k
  rw [mem_trade]
  rcases Nat.lt_succ_iff_lt_or_eq.mp hi' with hlt | rfl
  · -- nobody before position `i` has `j` or `j'`, so that the trade leaves them as they are
    have hkept : ∀ k, (i', k) ∈ other → Equiv.swap j j' k = k := by
      intro k hk
      refine Equiv.swap_apply_of_ne_of_ne ?_ ?_
      · rintro rfl
        exact hlt.ne (hpairs.left_unique ((h i' hlt k).mpr hk) hj)
      · rintro rfl
        exact hlt.ne (hother.left_unique hk hj')
    rw [h i' hlt]
    constructor
    · intro hk
      rwa [hkept k hk]
    · intro hk
      have hswap := hkept _ hk
      rw [Equiv.swap_apply_self] at hswap
      rwa [← hswap] at hk
  · constructor
    · intro hk
      rwa [hpairs.right_unique hk hj, Equiv.swap_apply_left]
    · intro hk
      have hswap := hother.right_unique hk hj'
      rw [Equiv.swap_apply_eq_iff, Equiv.swap_apply_right] at hswap
      rwa [hswap]

/-- After a partner is given away, the pairs agree on the position that has it now, too. -/
theorem giveTo (h : AgreeBelow i pairs other) (hpairs : Pairing reach left right pairs)
    (hj : (i, j) ∈ pairs) (halone : ∀ j', (i, j') ∉ other) :
    AgreeBelow (i + 1) pairs (giveTo i j other) := by
  intro i' hi' k
  rw [mem_giveTo]
  rcases Nat.lt_succ_iff_lt_or_eq.mp hi' with hlt | rfl
  · constructor
    · intro hk
      refine .inr ⟨(h i' hlt k).mp hk, ?_⟩
      rintro rfl
      exact hlt.ne (hpairs.left_unique hk hj)
    · rintro (⟨rfl, -⟩ | ⟨hk, -⟩)
      · omega
      · exact (h i' hlt k).mpr hk
  · constructor
    · intro hk
      exact .inl ⟨rfl, hpairs.right_unique hk hj⟩
    · rintro (⟨-, rfl⟩ | ⟨hk, -⟩)
      · exact hj
      · exact absurd hk (halone k)

end AgreeBelow

/-! ### The exchange -/

namespace Settled

/-- **Other pairs can be made to agree with the settled ones on one more position**, and no pair is
lost. -/
theorem exchange (h : Settled reach left right pairs) (hother : Pairing reach left right other)
    (hagree : AgreeBelow i pairs other) :
    ∃ other', Pairing reach left right other' ∧ other.length ≤ other'.length
      ∧ AgreeBelow (i + 1) pairs other' := by
  have hpartner : ∀ j', (i, j') ∈ other → ∃ j ≤ j', (i, j) ∈ pairs := by
    intro j' hj'
    rcases h.settled i j' (hother.fits _ hj') with hpair | ⟨i', hi', hpair⟩
    · exact hpair
    · rcases Nat.eq_or_lt_of_le hi' with rfl | hlt
      · exact ⟨j', le_rfl, hpair⟩
      · exact absurd (hother.left_unique ((hagree i' hlt j').mp hpair) hj') hlt.ne
  by_cases hpaired : ∃ j', (i, j') ∈ other
  · obtain ⟨j', hj'⟩ := hpaired
    obtain ⟨j, hle, hj⟩ := hpartner j' hj'
    have hlate : ∀ i', (i', j) ∈ other → i ≤ i' := by
      intro i' hi'
      by_contra hlt
      have hsame := h.toPairing.left_unique hj ((hagree i' (by omega) j).mpr hi')
      omega
    refine ⟨trade j j' other, hother.trade hle (h.fits _ hj) hj' hlate, ?_,
      hagree.trade h.toPairing hother hj hj'⟩
    rw [trade, List.length_map]
  · push Not at hpaired
    by_cases hmatched : ∃ j, (i, j) ∈ pairs
    · obtain ⟨j, hj⟩ := hmatched
      exact ⟨giveTo i j other, hother.giveTo (h.fits _ hj) hpaired, hother.length_le_giveTo i j,
        hagree.giveTo h.toPairing hj hpaired⟩
    · push Not at hmatched
      refine ⟨other, hother, le_rfl, fun i' hi' k => ?_⟩
      rcases Nat.lt_succ_iff_lt_or_eq.mp hi' with hlt | rfl
      · exact hagree i' hlt k
      · exact iff_of_false (hmatched k) (hpaired k)

/-- **No pairing has more pairs than settled ones.** -/
theorem length_le (h : Settled reach left right pairs) (hother : Pairing reach left right other) :
    other.length ≤ pairs.length := by
  -- by induction on the number of positions on which the pairs agree
  have hrun : ∀ n, ∃ other', Pairing reach left right other' ∧ other.length ≤ other'.length
      ∧ AgreeBelow n pairs other' := by
    intro n
    induction n with
    | zero => exact ⟨other, hother, le_rfl, fun i hi => absurd hi (Nat.not_lt_zero i)⟩
    | succ n ih =>
      obtain ⟨other', hother', hlength, hagree⟩ := ih
      obtain ⟨other'', hother'', hlength', hagree'⟩ := h.exchange hother' hagree
      exact ⟨other'', hother'', hlength.trans hlength', hagree'⟩
  obtain ⟨other', hother', hlength, hagree⟩ := hrun left.length
  have hsame : other'.Perm pairs := by
    rw [List.perm_ext_iff_of_nodup hother'.left_nodup.of_map h.left_nodup.of_map]
    rintro ⟨i, j⟩
    constructor
    · intro hpair
      exact (hagree i (hother'.fits _ hpair).lt_length j).mpr hpair
    · intro hpair
      exact (hagree i (h.fits _ hpair).lt_length j).mp hpair
  exact hlength.trans hsame.length_eq.le

end Settled

end Exchange

/-! ### The number of matches -/

/-- **The number of matches is the greatest possible.** No pairs of positions that hold the same
symbol and are at most half the longer length, less one, apart are more than the matches, if no
position of either list is used twice. -/
theorem markCount_matching_isGreatest {α : Type} [DecidableEq α] (left right : List α) :
    IsGreatest {count | ∃ pairs : List (Nat × Nat),
        (∀ pair ∈ pairs, ∃ c, left[pair.1]? = some c ∧ right[pair.2]? = some c
          ∧ |(pair.1 : Int) - pair.2| ≤ ((max left.length right.length / 2 : Nat) : Int) - 1)
        ∧ (pairs.map Prod.fst).Nodup ∧ (pairs.map Prod.snd).Nodup ∧ pairs.length = count}
      (markCount (matching left right).1) := by
  obtain ⟨pairs, hsettled, hcount⟩ := exists_settled_matching left right
  rw [hcount]
  constructor
  · exact ⟨pairs, fun pair hpair => fits_reach_iff.mp (hsettled.fits pair hpair),
      hsettled.left_nodup, hsettled.right_nodup, rfl⟩
  · rintro _ ⟨other, hfits, hleft, hright, rfl⟩
    exact hsettled.length_le
      ⟨fun pair hpair => fits_reach_iff.mpr (hfits pair hpair), hleft, hright⟩

end Similarity

end RecordQuery
