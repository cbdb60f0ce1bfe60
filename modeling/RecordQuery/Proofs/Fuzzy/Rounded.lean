import RecordQuery.Proofs.Fuzzy.Extremes
import RecordQuery.Proofs.Numbers.Arithmetic

/-!
# Similarity in doubles

Programs compute a similarity in doubles, and every operation rounds. The result still lies between
zero and one, and is a number: the bounds on the three shares and on their sums are doubles, so
rounding respects them. The bonus is the one place where this is not enough. It adds to the score a
part of what is missing to one, and what is missing must not be rounded up for that. It is not
rounded at all, since the bonus is only given from `0.7` on.

Counts become doubles, and a count with more than a thousand binary digits becomes infinite. The
lists that programs hold are shorter than `sizeLimit`.

## Units

The exact value of a finite double is a whole number of units, the smallest subnormal being one. An
exact result that is at most a double is rounded to at most that double. One, two and three are
doubles, so they bound a share, the sum of two and the sum of all three, whatever is rounded on the
way, and the mean is a share of three. `Binary64.AtMost` is such a bound, and it has a lemma for
each operation.

## The gap to one

The difference of one and a double from a half to one is a double: it is a multiple of the distance
of doubles there, and not large. So `1 - score` is exact where the bonus is given. What is added is
at most this gap, since the factor that the shared start contributes is at most one. Then the exact
sum is at most one, and so is the rounded one.

## Main results

* `Similarity.weight_atMost`, `Similarity.boosted_atMost` — the two parts of the formula
* `Similarity.jaroWinkler_atMost` — a similarity in doubles lies between zero and one
-/

namespace RecordQuery

namespace Similarity

open Binary64

/-- Lists have fewer symbols than an index of 64 bits can count. -/
def sizeLimit : Nat := Nat.pow 2 64

/-! ### The mean of the shares -/

/-- The bounds of sums of shares are doubles, and the mean of at most three is at most one. -/
theorem units_sums :
    units oneMagnitude + units oneMagnitude = units ((2 : Nat) : Binary64).magnitude
      ∧ units ((2 : Nat) : Binary64).magnitude + units oneMagnitude
        = units ((3 : Nat) : Binary64).magnitude := by decide +kernel

theorem units_half : unitsPerOne ≤ units ((2 : Nat) : Binary64).magnitude := by
  rw [← units_sums.1, units_oneMagnitude]
  exact Nat.le_add_right _ _

/-- **The mean of the three shares lies between zero and one.** -/
theorem weight_atMost {k t left right : Nat} (hk : 0 < k) (ht : t ≤ k) (hleft : k ≤ left)
    (hright : k ≤ right) (hleft' : left < sizeLimit) (hright' : right < sizeLimit) :
    (weight Binary64 k t left right).AtMost oneMagnitude := by
  have hone := oneMagnitude_lt
  have htwo : ((2 : Nat) : Binary64).magnitude < infinite := magnitude_natCast_lt (by decide)
  have hthree : ((3 : Nat) : Binary64).magnitude < infinite := magnitude_natCast_lt (by decide)
  have hfinite : ∀ {n}, n < sizeLimit → (n : Binary64).magnitude < infinite := magnitude_natCast_lt
  have hk' := hfinite (hleft.trans_lt hleft')
  have hself : ∀ n : Nat, (n : Binary64).AtMost (n : Binary64).magnitude :=
    fun n => atMost_natCast le_rfl
  -- a matched share: no list has more matches than symbols
  have hshare : ∀ n, k ≤ n → n < sizeLimit →
      ((k : Binary64) / (n : Binary64)).AtMost oneMagnitude := fun n hkn hn =>
    (atMost_natCast hkn).share (hself n) (hfinite hn) (magnitude_natCast_pos (hk.trans_le hkn))
  -- the share in order: half of at most all matches are taken off
  have hhalf : ((t : Binary64) / ((2 : Nat) : Binary64)).AtMost (k : Binary64).magnitude :=
    ((hself t).div (hself 2) (hfinite (ht.trans_lt (hleft.trans_lt hleft'))) htwo
      (hfinite (ht.trans_lt (hleft.trans_lt hleft'))) (magnitude_natCast_pos (by decide))
      (Nat.mul_le_mul_left _ units_half)).mono (atMost_natCast ht).le
  have horder : (((k : Binary64) - (t : Binary64) / ((2 : Nat) : Binary64))
      / (k : Binary64)).AtMost oneMagnitude :=
    ((hself k).sub hk' hhalf).share (hself k) hk' (magnitude_natCast_pos hk)
  have hleftShare := hshare left hleft hleft'
  have hrightShare := hshare right hright hright'
  have hsum := hleftShare.add hrightShare hone hone htwo
    ((Nat.add_le_add hleftShare.units_le hrightShare.units_le).trans units_sums.1.le)
  have hsum' := hsum.add horder htwo hone hthree
    ((Nat.add_le_add hsum.units_le horder.units_le).trans units_sums.2.le)
  rw [weight]
  exact hsum'.share (hself 3) hthree (magnitude_natCast_pos (by decide))

/-! ### The bonus -/

/-- The bonus is given from a half on, and what counts of a shared start closes at most the whole
gap. -/
theorem bonus_bounds :
    ((0.7 : Binary64).isNaN = false ∧ 1022 * binade ≤ (0.7 : Binary64).magnitude)
      ∧ (0.1 : Binary64).magnitude < infinite
      ∧ units (startLimit : Binary64).magnitude * units (0.1 : Binary64).magnitude
        ≤ units oneMagnitude * unitsPerOne := by decide +kernel

theorem half_le_of_lt {score : Binary64} (hscore : score.AtMost oneMagnitude)
    (h : (0.7 : Binary64) < score) : 1022 * binade ≤ score.magnitude := by
  obtain ⟨hnan, hhalf⟩ := bonus_bounds.1
  have hrank : (0.7 : Binary64).rank = (0.7 : Binary64).magnitude := rfl
  rw [lt_iff_rank hnan (hscore.isNaN oneMagnitude_lt), hrank, hscore.rank] at h
  omega

/-- **The bonus leads no further than to one.** -/
theorem boosted_atMost {score : Binary64} {shared : Nat} (hscore : score.AtMost oneMagnitude)
    (hshared : shared ≤ startLimit) : (boosted Binary64 score shared).AtMost oneMagnitude := by
  rw [boosted]
  split
  · next hbonus =>
    have hone := oneMagnitude_lt
    have hrest : (((1 : Nat) : Binary64) - score).AtMost oneMagnitude :=
      AtMost.sub (atMost_natCast le_rfl) hone hscore
    have hexact := units_one_sub hscore (half_le_of_lt hscore hbonus)
    have htenth : (0.1 : Binary64).AtMost (0.1 : Binary64).magnitude := ⟨rfl, le_rfl⟩
    obtain ⟨-, htenthFinite, hlimit⟩ := bonus_bounds
    have hpart : ((shared : Binary64) * (0.1 : Binary64)).AtMost oneMagnitude :=
      (atMost_natCast hshared).mul htenth (magnitude_natCast_lt (by decide)) htenthFinite hone
        ((Nat.mul_le_mul_right _ (atMost_natCast hshared).units_le).trans hlimit)
    have hbonus' : ((shared : Binary64) * (0.1 : Binary64)
        * (((1 : Nat) : Binary64) - score)).AtMost (((1 : Nat) : Binary64) - score).magnitude := by
      refine hpart.mul hrest hone hone (hrest.le.trans_lt hone) ?_
      rw [Nat.mul_comm, ← units_oneMagnitude]
      exact Nat.mul_le_mul_left _ hpart.units_le
    refine hscore.add hbonus' hone (hrest.le.trans_lt hone) hone ?_
    rw [units_oneMagnitude, ← hexact]
    exact Nat.add_le_add_left hbonus'.units_le _
  · exact hscore

/-! ### Similarity -/

variable {α : Type} [DecidableEq α]

/-- **A similarity in doubles lies between zero and one.** -/
theorem jaroWinkler_atMost {left right : List α} (hleft : left.length < sizeLimit)
    (hright : right.length < sizeLimit) :
    (jaroWinkler Binary64 left right).AtMost oneMagnitude := by
  rw [jaroWinkler]
  split
  · exact atMost_natCast (Nat.zero_le 1)
  · split
    · exact atMost_natCast le_rfl
    · simp only
      split
      · exact atMost_natCast (Nat.zero_le 1)
      · next hmatch =>
        exact boosted_atMost (weight_atMost (Nat.pos_of_ne_zero hmatch) (transpositions_le _ _)
          (markCount_matching_le_left left right) (markCount_matching_le_right left right) hleft
          hright) (sharedStart_le left right)

end Similarity

end RecordQuery
