import RecordQuery.Binary64
import Mathlib.Tactic.SplitIfs

/-!
# Rounding keeps the order

The double nearest to an integer is found by one rounding of an exact quotient. Rounding loses
differences, but it never turns an order around: of two quotients over one denominator the larger
one does not get the smaller magnitude.

Within a binade this is the same fact about rounding to a natural number. Across binades it is a
matter of ranges: what rounds with a given shift stays within the two binades above it, and what
rounds with a larger shift starts there.

## Where the outcomes lie

An integer is a quotient of units, and the double nearest to it is found by shifting the quotient to
53 bits and rounding what is left to a natural number. The shift depends on the quotient, so a
larger quotient may be rounded with a larger shift, and then to fewer bits after the point. That the
outcome does not go down is clear only if one knows where the outcomes with each shift lie
(`Binary64.nearest_shiftOf_le`, `Binary64.le_nearest_shiftOf`). Two shifts share at most the
boundary between them.

Rounding up at the end of a binade lands at the beginning of the next one. Magnitudes are counted
through, and the number that follows the last of a binade is the first of the next; so nothing has
to be adjusted, and no case is needed for it.

## Strictness

A rounding that keeps the order may still identify what it rounds. Below `2 ^ 53` it does not,
because nothing is rounded away: the number, shifted to 53 bits, is a natural number
(`Binary64.roundMagnitude_of_bits`). That is the last bound for which it is true of all integers.

## Implementation notes

Powers of two are written with `Nat.pow`, which is not unfolded by accident. Where an exponent is a
numeral of four digits, lemmas take it as a variable with an equation.

## Main results

* `Binary64.nearest_mono` — rounding to a natural number keeps the order
* `Binary64.roundMagnitude_mono` — rounding to a double keeps the order
* `Binary64.rank_ofInt_mono` — so does taking integers as doubles
* `Binary64.rank_ofInt_lt` — strictly so below `2 ^ 53`, where every integer is a double
-/

namespace RecordQuery

namespace Binary64

/-! ### Powers of two -/

theorem two_pow_pos (e : Nat) : 0 < Nat.pow 2 e := Nat.two_pow_pos e

theorem log2_mono {m n : Nat} (h : m ≤ n) : m.log2 ≤ n.log2 := by
  obtain rfl | hm := Nat.eq_zero_or_pos m
  · rw [Nat.log2_zero]
    exact Nat.zero_le _
  · rw [Nat.le_log2 (by omega)]
    exact Nat.le_trans (Nat.log2_self_le (by omega)) h

theorem log2_mul_pow {k : Nat} (hk : 0 < k) (e : Nat) :
    (k * Nat.pow 2 e).log2 = k.log2 + e := by
  rw [Nat.log2_eq_iff (Nat.ne_of_gt (Nat.mul_pos hk (two_pow_pos e)))]
  constructor
  · rw [Nat.pow_add]
    exact Nat.mul_le_mul_right _ (Nat.log2_self_le (Nat.ne_of_gt hk))
  · rw [Nat.add_right_comm, Nat.pow_add]
    exact Nat.mul_lt_mul_of_pos_right Nat.lt_log2_self (two_pow_pos e)

/-! ### Rounding to a natural number -/

theorem nearest_mono {num num' : Nat} (den : Nat) (h : num ≤ num') :
    nearest num den ≤ nearest num' den := by
  have hquotient : num / den ≤ num' / den := Nat.div_le_div_right h
  have hnum := Nat.div_add_mod num den
  have hnum' := Nat.div_add_mod num' den
  simp only [nearest]
  rcases Nat.lt_or_eq_of_le hquotient with hlt | heq
  · -- one up from a smaller quotient is at most the larger one
    generalize num / den = q at *
    generalize num' / den = q' at *
    split_ifs <;> omega
  · -- the same quotient: the remainders decide, and they are in the same order
    rw [heq] at hnum ⊢
    have hremainder : num % den ≤ num' % den := by omega
    generalize num' / den = q at *
    split_ifs <;> omega

theorem nearest_mul {den : Nat} (hden : 0 < den) (k : Nat) : nearest (k * den) den = k := by
  rw [nearest, Nat.mul_div_cancel k hden, Nat.mul_mod_left, if_pos hden]

theorem nearest_le {num den k : Nat} (hden : 0 < den) (h : num ≤ k * den) :
    nearest num den ≤ k := by
  have hmono := nearest_mono den h
  rwa [nearest_mul hden] at hmono

theorem le_nearest {num den k : Nat} (hden : 0 < den) (h : k * den ≤ num) :
    k ≤ nearest num den := by
  have hmono := nearest_mono den h
  rwa [nearest_mul hden] at hmono

/-! ### Rounding to a double -/

/-- The shift that leaves a quotient of 53 bits. -/
def shiftOf (num den : Nat) : Nat := (num / den).log2 - 52

theorem roundMagnitude_eq (num den : Nat) :
    roundMagnitude num den = min infinite
      (shiftOf num den * binade + nearest num (den * Nat.pow 2 (shiftOf num den))) := rfl

theorem shiftOf_mono {num num' : Nat} (den : Nat) (h : num ≤ num') :
    shiftOf num den ≤ shiftOf num' den :=
  Nat.sub_le_sub_right (log2_mono (Nat.div_le_div_right h)) 52

/-- With its shift a quotient rounds into the two binades above. -/
theorem nearest_shiftOf_le {num den : Nat} (hden : 0 < den) :
    nearest num (den * Nat.pow 2 (shiftOf num den)) ≤ 2 * binade := by
  refine nearest_le (Nat.mul_pos hden (two_pow_pos _)) ?_
  have hbits : num / den < Nat.pow 2 (53 + shiftOf num den) := by
    refine Nat.lt_of_lt_of_le Nat.lt_log2_self (Nat.pow_le_pow_right (by decide) ?_)
    rw [shiftOf]
    omega
  have hpow : Nat.pow 2 (53 + shiftOf num den) = 2 * binade * Nat.pow 2 (shiftOf num den) :=
    Nat.pow_add 2 53 (shiftOf num den)
  rw [hpow, Nat.div_lt_iff_lt_mul hden, Nat.mul_assoc, Nat.mul_comm _ den] at hbits
  exact Nat.le_of_lt hbits

/-- With a positive shift a quotient rounds to a binade at least. -/
theorem le_nearest_shiftOf {num den : Nat} (hden : 0 < den) (hshift : 0 < shiftOf num den) :
    binade ≤ nearest num (den * Nat.pow 2 (shiftOf num den)) := by
  refine le_nearest (Nat.mul_pos hden (two_pow_pos _)) ?_
  have hlog : (num / den).log2 = 52 + shiftOf num den := by
    rw [shiftOf] at hshift ⊢
    omega
  have hquotient : num / den ≠ 0 := by
    intro hzero
    rw [hzero, Nat.log2_zero] at hlog
    omega
  have hbits : Nat.pow 2 (52 + shiftOf num den) ≤ num / den := by
    rw [← hlog]
    exact Nat.log2_self_le hquotient
  have hpow : Nat.pow 2 (52 + shiftOf num den) = binade * Nat.pow 2 (shiftOf num den) :=
    Nat.pow_add 2 52 (shiftOf num den)
  rw [hpow, Nat.le_div_iff_mul_le hden, Nat.mul_assoc, Nat.mul_comm _ den] at hbits
  exact hbits

/-- **Rounding to a double keeps the order.** -/
theorem roundMagnitude_mono {num num' den : Nat} (hden : 0 < den) (h : num ≤ num') :
    roundMagnitude num den ≤ roundMagnitude num' den := by
  have hunbounded : shiftOf num den * binade + nearest num (den * Nat.pow 2 (shiftOf num den))
      ≤ shiftOf num' den * binade + nearest num' (den * Nat.pow 2 (shiftOf num' den)) := by
    rcases Nat.lt_or_eq_of_le (shiftOf_mono den h) with hlt | heq
    · have hbelow : nearest num (den * Nat.pow 2 (shiftOf num den)) ≤ 2 * binade :=
        nearest_shiftOf_le hden
      have habove : binade ≤ nearest num' (den * Nat.pow 2 (shiftOf num' den)) :=
        le_nearest_shiftOf hden (Nat.zero_lt_of_lt hlt)
      have hstep : (shiftOf num den + 1) * binade ≤ shiftOf num' den * binade :=
        Nat.mul_le_mul_right binade hlt
      rw [Nat.succ_mul] at hstep
      omega
    · rw [heq]
      exact Nat.add_le_add_left (nearest_mono _ h) _
  rw [roundMagnitude_eq, roundMagnitude_eq]
  omega

theorem roundMagnitude_le (num den : Nat) : roundMagnitude num den ≤ infinite :=
  Nat.min_le_left _ _

/-! ### Integers as doubles -/

theorem isNaN_ofInt (n : Int) : (ofInt n).isNaN = false :=
  decide_eq_false (Nat.not_lt.mpr (roundMagnitude_le _ _))

theorem rank_ofInt (n : Int) : (ofInt n).rank
    = if n < 0 then -((ofInt n).magnitude : Int) else ((ofInt n).magnitude : Int) := by
  rw [rank, ofInt]
  simp only [decide_eq_true_eq]

theorem roundMagnitude_zero : roundMagnitude 0 1 = 0 := by decide +kernel

theorem ofInt_zero : ofInt 0 = ⟨false, 0⟩ := by
  rw [ofInt, Int.natAbs_zero, Nat.zero_mul, roundMagnitude_zero]
  rfl

theorem magnitude_ofInt_mono {m n : Int} (h : m.natAbs ≤ n.natAbs) :
    (ofInt m).magnitude ≤ (ofInt n).magnitude :=
  roundMagnitude_mono Nat.one_pos (Nat.mul_le_mul_right _ h)

/-- **Taking integers as doubles keeps their order**, although it may lose differences. -/
theorem rank_ofInt_mono {m n : Int} (h : m ≤ n) : (ofInt m).rank ≤ (ofInt n).rank := by
  rw [rank_ofInt, rank_ofInt]
  rcases Int.lt_or_le n 0 with hn | hn
  · have hmagnitude := magnitude_ofInt_mono (m := n) (n := m) (by omega)
    rw [if_pos hn, if_pos (by omega)]
    omega
  · rcases Int.lt_or_le m 0 with hm | hm
    · rw [if_pos hm, if_neg (by omega)]
      omega
    · have hmagnitude := magnitude_ofInt_mono (m := m) (n := n) (by omega)
      rw [if_neg (by omega), if_neg (by omega)]
      omega

/-! ### Integers that are doubles -/

theorem unitsPerOne_eq {e : Nat} (he : e = 1074) : unitsPerOne = Nat.pow 2 e := by
  subst he
  decide +kernel

theorem log2_mul_unitsPerOne {k : Nat} (hk : 0 < k) :
    (k * unitsPerOne).log2 = k.log2 + 1074 := by
  generalize he : 1074 = e
  rw [unitsPerOne_eq he.symm, log2_mul_pow hk]

theorem shifted_bounds {k : Nat} (hk : 0 < k) (hbits : k.log2 ≤ 52) :
    binade ≤ k * Nat.pow 2 (52 - k.log2) ∧ k * Nat.pow 2 (52 - k.log2) < 2 * binade := by
  have hpos : 0 < k * Nat.pow 2 (52 - k.log2) := Nat.mul_pos hk (two_pow_pos _)
  have hlog := log2_mul_pow hk (52 - k.log2)
  rwa [Nat.add_sub_cancel' hbits, Nat.log2_eq_iff (Nat.ne_of_gt hpos)] at hlog

theorem pow_mul_pow_eq_unitsPerOne {k : Nat} (hbits : k.log2 ≤ 52) :
    Nat.pow 2 (52 - k.log2) * Nat.pow 2 (k.log2 + 1022) = unitsPerOne := by
  have hsum : 52 - k.log2 + (k.log2 + 1022) = 1074 := by omega
  rw [unitsPerOne_eq hsum]
  exact (Nat.pow_add 2 _ _).symm

/-- A number of at most 53 bits is a double: nothing is rounded away. -/
theorem roundMagnitude_of_bits {k : Nat} (hk : 0 < k) (hbits : k.log2 ≤ 52) :
    roundMagnitude (k * unitsPerOne) 1
      = (k.log2 + 1022) * binade + k * Nat.pow 2 (52 - k.log2) := by
  have hshift : shiftOf (k * unitsPerOne) 1 = k.log2 + 1022 := by
    rw [shiftOf, Nat.div_one, log2_mul_unitsPerOne hk]
    omega
  have hnearest : nearest (k * unitsPerOne) (1 * Nat.pow 2 (k.log2 + 1022))
      = k * Nat.pow 2 (52 - k.log2) := by
    rw [← pow_mul_pow_eq_unitsPerOne hbits, ← Nat.mul_assoc, Nat.one_mul,
      nearest_mul (two_pow_pos _)]
  rw [roundMagnitude_eq, hshift, hnearest]
  -- at most 1076 binades, and infinity comes after 2047
  have hbelow := (shifted_bounds hk hbits).2
  have hbinades : (k.log2 + 1022) * binade ≤ 1074 * binade := Nat.mul_le_mul_right _ (by omega)
  rw [Nat.min_eq_right]
  rw [infinite]
  omega

theorem roundMagnitude_lt {k l : Nat} (h : k < l) (hbits : l.log2 ≤ 52) :
    roundMagnitude (k * unitsPerOne) 1 < roundMagnitude (l * unitsPerOne) 1 := by
  have hl : 0 < l := Nat.zero_lt_of_lt h
  obtain ⟨hlow, _⟩ := shifted_bounds hl hbits
  rw [roundMagnitude_of_bits hl hbits]
  obtain rfl | hk := Nat.eq_zero_or_pos k
  · have hbinade : 0 < binade := two_pow_pos 52
    rw [Nat.zero_mul, roundMagnitude_zero]
    omega
  · have hlog : k.log2 ≤ l.log2 := log2_mono (Nat.le_of_lt h)
    have hhigh := (shifted_bounds hk (Nat.le_trans hlog hbits)).2
    rw [roundMagnitude_of_bits hk (Nat.le_trans hlog hbits)]
    rcases Nat.lt_or_eq_of_le hlog with hlt | heq
    · -- an earlier binade
      have hstep : (k.log2 + 1022 + 1) * binade ≤ (l.log2 + 1022) * binade :=
        Nat.mul_le_mul_right _ (by omega)
      rw [Nat.succ_mul] at hstep
      omega
    · -- the same binade: the fractions decide
      rw [heq]
      exact Nat.add_lt_add_left (Nat.mul_lt_mul_of_pos_right h (two_pow_pos _)) _

theorem magnitude_ofInt_lt {m n : Int} (h : m.natAbs < n.natAbs)
    (hn : n.natAbs < Nat.pow 2 53) : (ofInt m).magnitude < (ofInt n).magnitude := by
  have hbits : n.natAbs.log2 < 53 := (Nat.log2_lt (by omega)).mpr hn
  exact roundMagnitude_lt h (by omega)

/-- **Integers below `2 ^ 53` keep their strict order** when they are taken as doubles. -/
theorem rank_ofInt_lt {m n : Int} (hm : m.natAbs < Nat.pow 2 53) (hn : n.natAbs < Nat.pow 2 53)
    (h : m < n) : (ofInt m).rank < (ofInt n).rank := by
  rw [rank_ofInt, rank_ofInt]
  rcases Int.lt_or_le n 0 with hnegative | hnonneg
  · have hmagnitude := magnitude_ofInt_lt (m := n) (n := m) (by omega) hm
    rw [if_pos hnegative, if_pos (by omega)]
    omega
  · rcases Int.lt_or_le m 0 with hnegative | hnonneg'
    · have hmagnitude := magnitude_ofInt_lt (m := 0) (n := m) (by omega) hm
      rw [if_pos hnegative, if_neg (by omega)]
      omega
    · have hmagnitude := magnitude_ofInt_lt (m := m) (n := n) (by omega) hn
      rw [if_neg (by omega), if_neg (by omega)]
      omega

end Binary64

end RecordQuery
