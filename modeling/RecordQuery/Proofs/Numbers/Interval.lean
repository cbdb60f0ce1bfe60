import RecordQuery.Proofs.Numbers.Spelling
import Mathlib.Order.Monotone.Basic

/-!
# Rounding intervals

The decimal that is written for a double lies in its rounding interval, and so does an integer in
that of the double nearest to it. Rounding intervals of different magnitudes have nothing in common.
The midpoint between two neighbours belongs to the even one of them, and it is the only point that
both could claim.

That there is a decimal in the interval at all is a matter of the least power of ten that is tried:
two of its multiples are less than a unit apart, and an interval reaches half a unit down and half a
unit up, or more.

Points are quotients in half units, as they are where the decimals are found.

## Who has the midpoint

A decimal reads back as a double if rounding it gives the double. For a point strictly between two
midpoints this is the double between them. A point on a midpoint is rounded to the even neighbour,
so the interval of a double contains its ends if its magnitude is even, and does not if it is odd.
Neighbouring magnitudes have different parity. So of two neighbours one has the midpoint and the
other does not, and this is where the intervals would otherwise meet.

## Finding a decimal

The search goes through powers of ten from large to small and takes the first that has a multiple in
the interval. For the result to read back it is enough that the search ends with such a multiple. It
does: with the least power, multiples are so close that one of the two around the value is in the
interval (`Binary64.exists_digitsAt?`). Which one is taken if both are is the concern of the search
and not of this file.

## Implementation notes

A point is a fraction of two natural numbers, in half units, since midpoints are half units. The
denominator is a power of ten for negative exponents and one for the others. So all comparisons are
between products of natural numbers.

The magnitude zero has no neighbour below. Its interval begins at zero, since subtraction of natural
numbers ends there; and no number but zero is written as zero.

## Main definitions

* `Binary64.Encloses` — a point lies in the rounding interval of a magnitude

## Main results

* `Binary64.units_strictMono` — larger magnitudes have larger values
* `Binary64.toNat?_eq_some_iff` — which doubles are natural numbers
* `Binary64.Encloses.unique` — a point lies in one rounding interval
* `Binary64.encloses_shortest` — the shortest decimal reads back
* `Binary64.encloses_roundMagnitude` — a number reads back as the magnitude to which it is rounded
-/

namespace RecordQuery

namespace Binary64

/-! ### Values of magnitudes -/

/-- Every magnitude from a binade on is a value between two powers of two. -/
theorem exists_binade {m : Nat} (h : binade ≤ m) :
    ∃ shift t, m = shift * binade + t ∧ binade ≤ t ∧ t < 2 * binade := by
  have hbinade : 0 < binade := two_pow_pos 52
  have hsplit := Nat.div_add_mod' m binade
  have hmod := Nat.mod_lt m hbinade
  obtain ⟨shift, hshift⟩ : ∃ shift, m / binade = shift + 1 :=
    Nat.exists_eq_add_of_le' (Nat.div_pos h hbinade)
  rw [hshift, Nat.succ_mul] at hsplit
  exact ⟨shift, binade + m % binade, by omega, by omega, by omega⟩

/-- **A larger magnitude has a larger value.** -/
theorem units_strictMono : StrictMono units := by
  refine strictMono_nat_of_lt_succ fun m => ?_
  rcases Nat.lt_or_ge m binade with hlt | hge
  · have hbinade : 0 < binade := two_pow_pos 52
    rw [units, units, if_pos (by omega), if_pos (by omega)]
    exact Nat.lt_succ_self m
  · obtain ⟨shift, t, rfl, hlow, hhigh⟩ := exists_binade hge
    rw [Nat.add_assoc, units_binade shift hlow hhigh.le, units_binade shift (by omega) hhigh]
    exact Nat.mul_lt_mul_of_pos_right (Nat.lt_succ_self t) (two_pow_pos shift)

theorem units_eq_zero_iff {m : Nat} : units m = 0 ↔ m = 0 := by
  rw [show (0 : Nat) = units 0 from rfl, units_strictMono.injective.eq_iff]
  rfl

/-- A value is natural if the magnitude has that value, and the sign does not make it negative. -/
theorem signedUnits_eq_mul_iff {x : Binary64} {m : Nat} :
    x.signedUnits = m * unitsPerOne
      ↔ (x.negative = false ∨ x.magnitude = 0) ∧ units x.magnitude = m * unitsPerOne := by
  rw [← units_eq_zero_iff, signedUnits, ← Int.natCast_mul]
  generalize m * unitsPerOne = n
  cases x.negative with
  | false =>
    simp only [Bool.false_eq_true, if_false, true_or, true_and]
    exact Int.natCast_inj
  | true =>
    simp only [if_true, Bool.true_eq_false, false_or]
    omega

theorem toNat?_eq_some_iff {x : Binary64} {m : Nat} :
    x.toNat? = some m ↔ x.isFinite = true ∧ x.signedUnits = m * unitsPerOne := by
  have hdiv : units x.magnitude % unitsPerOne = 0 ∧ units x.magnitude / unitsPerOne = m
      ↔ units x.magnitude = m * unitsPerOne := by
    rw [← Nat.dvd_iff_mod_eq_zero]
    constructor
    · rintro ⟨hdvd, rfl⟩
      exact (Nat.div_mul_cancel hdvd).symm
    · intro h
      rw [h]
      exact ⟨Nat.dvd_mul_left _ m, Nat.mul_div_cancel m unitsPerOne_pos⟩
  rw [signedUnits_eq_mul_iff, ← hdiv, toNat?, Option.ite_none_right_eq_some, Option.some_inj]
  simp [isZero, and_assoc]

/-! ### Rounding intervals -/

/-- A quotient, in half units, lies in the rounding interval of a magnitude: between the midpoints
to its neighbours, which belong to it if it is even. -/
def Encloses (magnitude value den : Nat) : Prop :=
  if magnitude % 2 = 0 then
    (units (magnitude - 1) + units magnitude) * den ≤ value
      ∧ value ≤ (units magnitude + units (magnitude + 1)) * den
  else
    (units (magnitude - 1) + units magnitude) * den < value
      ∧ value < (units magnitude + units (magnitude + 1)) * den

/-- What lies strictly between the midpoints lies in the interval, whoever has the midpoints. -/
theorem Encloses.of_lt {magnitude value den : Nat}
    (hlow : (units (magnitude - 1) + units magnitude) * den < value)
    (hhigh : value < (units magnitude + units (magnitude + 1)) * den) :
    Encloses magnitude value den := by
  rw [Encloses]
  split
  · exact ⟨hlow.le, hhigh.le⟩
  · exact ⟨hlow, hhigh⟩

/-- A power of ten as a quotient, of whichever sign the exponent is. -/
theorem halfUnits_eq (e : Int) :
    halfUnits e = (Nat.pow 10 e.toNat * (2 * unitsPerOne), Nat.pow 10 (-e).toNat) := by
  have hone : Nat.pow 10 0 = 1 := rfl
  rw [halfUnits]
  split
  · rw [show (-e).toNat = 0 by omega, hone]
  · rw [show e.toNat = 0 by omega, hone, Nat.one_mul]

theorem readsBack_iff_encloses {magnitude digits : Nat} {e : Int} :
    readsBack magnitude digits e = true
      ↔ Encloses magnitude (digits * (Nat.pow 10 e.toNat * (2 * unitsPerOne)))
        (Nat.pow 10 (-e).toNat) := by
  rw [readsBack, halfUnits_eq, Encloses]
  simp only
  split <;> simp

/-- A point that a smaller magnitude encloses does not lie in the interval of a larger one. -/
theorem Encloses.not_lt {m n value den : Nat} (hm : Encloses m value den)
    (hn : Encloses n value den) (hden : 0 < den) : ¬ m < n := by
  intro h
  have hle : units m + units (m + 1) ≤ units (n - 1) + units n :=
    Nat.add_le_add (units_strictMono.monotone (by omega)) (units_strictMono.monotone h)
  have hmul := Nat.mul_le_mul_right den hle
  rw [Encloses] at hm hn
  split at hm <;> split at hn
  · -- the two share a midpoint, and then they are neighbours
    have heq : (units m + units (m + 1)) * den = (units (n - 1) + units n) * den := by omega
    have heq' := Nat.eq_of_mul_eq_mul_right hden heq
    have hnext : m + 1 < n := by omega
    have hlt := units_strictMono hnext
    have hle' : units m ≤ units (n - 1) := units_strictMono.monotone (by omega)
    omega
  all_goals omega

/-- **A point lies in the rounding interval of one magnitude.** -/
theorem Encloses.unique {m n value den : Nat} (hm : Encloses m value den)
    (hn : Encloses n value den) (hden : 0 < den) : m = n :=
  Nat.le_antisymm (Nat.le_of_not_lt (hn.not_lt hm hden)) (Nat.le_of_not_lt (hm.not_lt hn hden))

/-! ### The shortest decimal reads back -/

theorem readsBack_of_digitsAt? {magnitude digits : Nat} {e : Int}
    (h : digitsAt? magnitude e = some digits) : readsBack magnitude digits e = true := by
  rw [digitsAt?] at h
  simp only at h
  split at h
  · split at h <;> cases h <;> assumption
  · cases h
    assumption
  · cases h
    assumption
  · cases h

theorem not_encloses_of_digitsAt? {magnitude : Nat} {e : Int}
    (h : digitsAt? magnitude e = none) :
    let num := Nat.pow 10 e.toNat * (2 * unitsPerOne)
    let den := Nat.pow 10 (-e).toNat
    let below := 2 * units magnitude * den / num
    ¬ Encloses magnitude (below * num) den ∧ ¬ Encloses magnitude ((below + 1) * num) den := by
  intro num den below
  rw [← readsBack_iff_encloses, ← readsBack_iff_encloses]
  simp only [digitsAt?, halfUnits_eq] at h
  split at h
  · cases h
  · cases h
  · cases h
  · next hbelow habove => exact ⟨Bool.eq_false_iff.mp hbelow, Bool.eq_false_iff.mp habove⟩

/-- Multiples that are less than two half units apart do not miss a rounding interval. -/
theorem exists_digitsAt? {magnitude : Nat} {e : Int} (h : magnitude ≠ 0)
    (hstep : Nat.pow 10 e.toNat * (2 * unitsPerOne) < 2 * Nat.pow 10 (-e).toNat) :
    ∃ digits, digitsAt? magnitude e = some digits := by
  by_contra hnone
  obtain ⟨hbelow, habove⟩ := not_encloses_of_digitsAt?
    (Option.eq_none_iff_forall_ne_some.mpr (not_exists.mp hnone))
  have hpred := units_strictMono (Nat.sub_one_lt h)
  have hsucc : units magnitude < units (magnitude + 1) :=
    units_strictMono (Nat.lt_succ_self magnitude)
  have hnum : 0 < Nat.pow 10 e.toNat * (2 * unitsPerOne) :=
    Nat.mul_pos (Nat.pow_pos (by decide)) (Nat.mul_pos Nat.two_pos unitsPerOne_pos)
  generalize Nat.pow 10 e.toNat * (2 * unitsPerOne) = num at *
  generalize Nat.pow 10 (-e).toNat = den at *
  have hden : 0 < den := by omega
  have hlow : (units (magnitude - 1) + units magnitude) * den + den
      ≤ 2 * units magnitude * den := by
    rw [← Nat.succ_mul]
    exact Nat.mul_le_mul_right den (by omega)
  have hhigh : 2 * units magnitude * den + den
      ≤ (units magnitude + units (magnitude + 1)) * den := by
    rw [← Nat.succ_mul]
    exact Nat.mul_le_mul_right den (by omega)
  have hdiv := Nat.div_mul_le_self (2 * units magnitude * den) num
  have hdiv' := Nat.lt_div_mul_add (a := 2 * units magnitude * den) hnum
  rw [Nat.succ_mul] at habove
  have hbelow' := mt (fun hlt => Encloses.of_lt hlt (by omega)) hbelow
  have habove' := mt (Encloses.of_lt (by omega)) habove
  omega

/-- **The shortest decimal reads back.** -/
theorem encloses_shortest (magnitude : Nat) :
    Encloses magnitude
      ((shortest magnitude).digits
        * (Nat.pow 10 (shortest magnitude).exponent.toNat * (2 * unitsPerOne)))
      (Nat.pow 10 (-(shortest magnitude).exponent).toNat) := by
  rw [← readsBack_iff_encloses, shortest]
  split
  · next hzero =>
    rw [hzero]
    decide +kernel
  · next hzero =>
    have hleast : Nat.pow 10 leastExponent.toNat * (2 * unitsPerOne)
        < 2 * Nat.pow 10 (-leastExponent).toNat := by decide +kernel
    have hsearch : ∀ steps, readsBack magnitude (shortestBelow magnitude (steps + 1)).digits
        (shortestBelow magnitude (steps + 1)).exponent = true := by
      intro steps
      induction steps with
      | zero =>
        obtain ⟨digits, hdigits⟩ := exists_digitsAt? hzero hleast
        have hexponent : leastExponent + ((0 : Nat) : Int) = leastExponent := rfl
        rw [shortestBelow, hexponent, hdigits]
        exact readsBack_of_digitsAt? hdigits
      | succ steps ih =>
        rw [shortestBelow]
        split
        · next digits hdigits => exact readsBack_of_digitsAt? hdigits
        · exact ih
    exact hsearch 632

/-! ### Rounded numbers -/

/-- Rounding to a natural number is at most half off, and a tie goes to the even one. -/
theorem nearest_bounds {num den : Nat} (hden : 0 < den) :
    2 * num ≤ 2 * (nearest num den * den) + den ∧ 2 * (nearest num den * den) ≤ 2 * num + den
      ∧ (nearest num den % 2 = 1 → 2 * num < 2 * (nearest num den * den) + den
        ∧ 2 * (nearest num den * den) < 2 * num + den) := by
  have hsplit := Nat.div_add_mod' num den
  have hmod := Nat.mod_lt num hden
  have hsucc : (num / den + 1) * den = num / den * den + den := Nat.succ_mul _ _
  simp only [nearest]
  split
  · omega
  · split
    · rw [hsucc]
      omega
    · rcases Nat.mod_two_eq_zero_or_one (num / den) with heven | hodd
      · rw [heven, Nat.add_zero]
        omega
      · rw [hodd, hsucc]
        omega

theorem encloses_nearest {shift num : Nat} (hlow : binade * Nat.pow 2 shift ≤ num)
    (hhigh : num < 2 * binade * Nat.pow 2 shift) :
    Encloses (shift * binade + nearest num (Nat.pow 2 shift)) (2 * num) 1 := by
  have hpos : 0 < Nat.pow 2 shift := two_pow_pos shift
  have hbinade : binade = 2 * Nat.pow 2 51 := rfl
  have hbinade' : 0 < binade := two_pow_pos 52
  have hmin : binade ≤ nearest num (Nat.pow 2 shift) := le_nearest hpos hlow
  have hmax : nearest num (Nat.pow 2 shift) ≤ 2 * binade := nearest_le hpos hhigh.le
  obtain ⟨habove, hbelow, hodd⟩ := @nearest_bounds num _ hpos
  generalize nearest num (Nat.pow 2 shift) = t at *
  have hparity : (shift * binade + t) % 2 = t % 2 := by
    rw [hbinade, Nat.mul_left_comm, Nat.mul_add_mod]
  have hself := units_binade shift hmin hmax
  have hstrict := units_strictMono (Nat.sub_one_lt (n := shift * binade + t) (by omega))
  have hstrict' : units (shift * binade + t) < units (shift * binade + t + 1) :=
    units_strictMono (Nat.lt_succ_self _)
  -- the midpoints are half a step away, except below the first of the binade, to which no smaller
  -- number is rounded, and above the last one, which only smaller numbers reach
  have hpred : units (shift * binade + t - 1) + Nat.pow 2 shift = t * Nat.pow 2 shift
      ∨ 2 * units (shift * binade + t) ≤ 2 * num := by
    rcases Nat.lt_or_eq_of_le hmin with hlt | rfl
    · obtain ⟨u, rfl⟩ := Nat.exists_eq_add_of_lt hlt
      have hsum : shift * binade + (binade + u + 1) - 1 = shift * binade + (binade + u) := by omega
      rw [hsum, units_binade shift (by omega) (by omega)]
      exact .inl (Nat.succ_mul _ _).symm
    · exact .inr (by omega)
  have hsucc : units (shift * binade + t + 1) = t * Nat.pow 2 shift + Nat.pow 2 shift
      ∨ 2 * num < 2 * units (shift * binade + t) := by
    rcases Nat.lt_or_eq_of_le hmax with hlt | rfl
    · rw [Nat.add_assoc, units_binade shift (by omega) hlt]
      exact .inl (Nat.succ_mul _ _)
    · exact .inr (by omega)
  rw [Encloses, hparity]
  split <;> omega

/-- **A number lies in the rounding interval of the magnitude to which it is rounded.** -/
theorem encloses_roundMagnitude {num shift : Nat} (hlog : num.log2 = 52 + shift)
    (hshift : 0 < shift) (hmax : shift ≤ 2044) :
    Encloses (roundMagnitude num 1) (2 * num) 1 := by
  have hne : num ≠ 0 := by
    rintro rfl
    rw [Nat.log2_zero] at hlog
    omega
  have hshiftOf : shiftOf num 1 = shift := by
    rw [shiftOf, Nat.div_one, hlog]
    omega
  obtain ⟨hlow, hhigh⟩ := (Nat.log2_eq_iff hne).mp hlog
  have hpow : Nat.pow 2 (52 + shift) = binade * Nat.pow 2 shift := Nat.pow_add 2 52 shift
  have hpow' : Nat.pow 2 (52 + shift + 1) = 2 * binade * Nat.pow 2 shift := by
    rw [Nat.mul_assoc, ← hpow]
    exact Nat.pow_succ'
  have hlow' : binade * Nat.pow 2 shift ≤ num := hpow ▸ hlow
  have hhigh' : num < 2 * binade * Nat.pow 2 shift := hpow' ▸ hhigh
  have hnearest : nearest num (Nat.pow 2 shift) ≤ 2 * binade :=
    nearest_le (two_pow_pos shift) hhigh'.le
  have hround : roundMagnitude num 1 = shift * binade + nearest num (Nat.pow 2 shift) := by
    rw [roundMagnitude_eq, hshiftOf, Nat.one_mul, Nat.min_eq_right]
    have hbinades : shift * binade ≤ 2044 * binade := Nat.mul_le_mul_right _ hmax
    rw [infinite]
    omega
  rw [hround]
  exact encloses_nearest hlow' hhigh'

end Binary64

end RecordQuery
