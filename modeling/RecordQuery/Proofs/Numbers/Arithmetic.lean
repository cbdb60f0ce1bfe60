import RecordQuery.Proofs.Numbers.Interval

/-!
# Arithmetic within bounds

An operation on doubles takes an exact result and rounds it once. Rounding depends on the value
alone, keeps the order, and leaves a double as it is. So a bound that is a double survives it: if
the exact result is at most some double, then so is the outcome. Nothing needs to be known about how
much is rounded away.

There is one exception. To add up a number and what is left of it to one, the rest has to be exact,
or the sum could exceed one. From a half on, it is: the number and the rest are multiples of the
same power of two, and the rest is a small one.

Everything here is about doubles that are not negative.

## Bounds instead of errors

One way to reason about rounded arithmetic is to bound how much each operation is off. It gives
estimates, and an estimate does not show that a score is at most one: it shows that it is at most
one and a bit. Here the bound is a double, and the exact result is at most the bound. Rounding
cannot pass it, whatever it does otherwise, because the bound is rounded to itself and rounding
keeps the order. So a chain of operations stays below one if each exact result does, taken from the
rounded results before it.

What the exact result has to be compared with is stated in units, as an inequality between natural
numbers. No rational numbers are needed for this.

## Implementation notes

Sums are the only operation in which signs matter: two negative zeros make a negative zero. A double
that is at most a bound is not negative, and so this case does not arise.

`Binary64.units_one_sub` is the exact case. From a half on, numbers below one are multiples of
`2 ^ -53`, so what is left to one is a multiple as well, and it is at most a half. A multiple of a
power of two with at most 53 bits is a double (`Binary64.exists_units_eq`).

## Main definitions

* `Binary64.AtMost` — a double that is not negative and has a bounded magnitude

## Main results

* `Binary64.roundMagnitude_units` — a double is not rounded
* `Binary64.roundMagnitude_le_of_le` — rounding stays below a double
* `Binary64.AtMost.add`, `sub`, `mul`, `div` — what is at most a double stays so
* `Binary64.units_one_sub` — from a half on, the rest to one is exact
-/

namespace RecordQuery

namespace Binary64

/-! ### Rounding depends on the value, and keeps doubles -/

theorem nearest_mul_right (num den : Nat) {c : Nat} (hc : 0 < c) :
    nearest (num * c) (den * c) = nearest num den := by
  simp only [nearest, Nat.mul_div_mul_right num den hc, Nat.mul_mod_mul_right, ← Nat.mul_assoc,
    Nat.mul_lt_mul_right hc]

/-- Rounding depends on the value of a quotient alone. -/
theorem roundMagnitude_mul_right (num den : Nat) {c : Nat} (hc : 0 < c) :
    roundMagnitude (num * c) (den * c) = roundMagnitude num den := by
  have hshift : shiftOf (num * c) (den * c) = shiftOf num den := by
    rw [shiftOf, Nat.mul_div_mul_right num den hc, shiftOf]
  rw [roundMagnitude_eq, roundMagnitude_eq, hshift, Nat.mul_right_comm, nearest_mul_right _ _ hc]

/-- **A double is not rounded.** -/
theorem roundMagnitude_units {m : Nat} (h : m ≤ infinite) : roundMagnitude (units m) 1 = m := by
  rcases Nat.lt_or_ge m binade with hlt | hge
  · have hunits : units m = m := if_pos (by omega)
    have hshift : shiftOf m 1 = 0 := by
      have hlog : m.log2 ≤ (Nat.pow 2 52).log2 := log2_mono hlt.le
      have hbits : (Nat.pow 2 52).log2 = 52 := Nat.log2_two_pow
      rw [shiftOf, Nat.div_one]
      omega
    have hnearest : nearest m (1 * Nat.pow 2 0) = m := by
      simpa using nearest_mul Nat.one_pos m
    rw [hunits, roundMagnitude_eq, hshift, hnearest, Nat.zero_mul, Nat.zero_add,
      Nat.min_eq_right h]
  · obtain ⟨shift, t, rfl, hlow, hhigh⟩ := exists_binade hge
    have ht : 0 < t := Nat.lt_of_lt_of_le (two_pow_pos 52) hlow
    have hlog : t.log2 = 52 := (Nat.log2_eq_iff ht.ne').mpr ⟨hlow, by
      rw [Nat.pow_succ']
      exact hhigh⟩
    have hshift : shiftOf (t * Nat.pow 2 shift) 1 = shift := by
      rw [shiftOf, Nat.div_one, log2_mul_pow ht, hlog, Nat.add_sub_cancel_left]
    rw [units_binade shift hlow hhigh.le, roundMagnitude_eq, hshift, Nat.one_mul,
      nearest_mul (two_pow_pos shift), Nat.min_eq_right h]

/-- **Rounding stays below a double.** -/
theorem roundMagnitude_le_of_le {num den m : Nat} (hden : 0 < den) (hm : m ≤ infinite)
    (h : num ≤ units m * den) : roundMagnitude num den ≤ m := by
  have hself : roundMagnitude (units m * den) den = m := by
    have hscaled := roundMagnitude_mul_right (units m) 1 hden
    rwa [Nat.one_mul, roundMagnitude_units hm] at hscaled
  exact (roundMagnitude_mono hden h).trans_eq hself

/-! ### Doubles from zero up to a bound -/

/-- The double is not negative, and its magnitude is bounded. -/
structure AtMost (x : Binary64) (bound : Nat) : Prop where
  /-- The sign bit is not set. -/
  nonneg : x.negative = false
  /-- The magnitude is at most the bound. -/
  le : x.magnitude ≤ bound

/-- The magnitude of one. -/
def oneMagnitude : Nat := ((1 : Nat) : Binary64).magnitude

theorem units_oneMagnitude : units oneMagnitude = unitsPerOne := by decide +kernel

theorem oneMagnitude_lt : oneMagnitude < infinite := by decide +kernel

variable {x y : Binary64} {a b c : Nat}

theorem AtMost.mono (h : x.AtMost a) (hab : a ≤ b) : x.AtMost b := ⟨h.nonneg, h.le.trans hab⟩

theorem AtMost.isNaN (h : x.AtMost a) (ha : a < infinite) : x.isNaN = false :=
  decide_eq_false (Nat.not_lt.mpr (h.le.trans ha.le))

theorem AtMost.isInfinite (h : x.AtMost a) (ha : a < infinite) : x.isInfinite = false :=
  beq_eq_false_iff_ne.mpr (h.le.trans_lt ha).ne

theorem AtMost.rank (h : x.AtMost a) : x.rank = x.magnitude := by
  rw [Binary64.rank, h.nonneg]
  rfl

theorem AtMost.signedUnits (h : x.AtMost a) : x.signedUnits = units x.magnitude := by
  rw [Binary64.signedUnits, h.nonneg]
  rfl

theorem AtMost.units_le (h : x.AtMost a) : units x.magnitude ≤ units a :=
  units_strictMono.monotone h.le

/-- A sum that is a natural number of units is rounded once, unless it is one of negative zeros. -/
theorem add_eq {n : Nat} (hx : x.magnitude < infinite) (hy : y.magnitude < infinite)
    (hsign : (x.negative && y.negative) = false) (h : x.signedUnits + y.signedUnits = n) :
    x + y = ⟨false, roundMagnitude n 1⟩ := by
  have hnan : x.isNaN = false := decide_eq_false (by omega)
  have hnan' : y.isNaN = false := decide_eq_false (by omega)
  have hinf : x.isInfinite = false := beq_eq_false_iff_ne.mpr hx.ne
  have hinf' : y.isInfinite = false := beq_eq_false_iff_ne.mpr hy.ne
  show x.add y = _
  rw [Binary64.add, hnan, hnan', hinf, hinf', h, hsign]
  simp only [Bool.or_self, Bool.false_eq_true, if_false, Int.natAbs_natCast]
  split
  · next hzero => rw [Int.natCast_eq_zero.mp hzero, roundMagnitude_zero]
  · rw [decide_eq_false (by omega)]

theorem AtMost.add (hx : x.AtMost a) (hy : y.AtMost b) (ha : a < infinite) (hb : b < infinite)
    (hc : c < infinite) (h : units x.magnitude + units y.magnitude ≤ units c) :
    (x + y).AtMost c := by
  have hsum : x.signedUnits + y.signedUnits
      = ((units x.magnitude + units y.magnitude : Nat) : Int) := by
    rw [hx.signedUnits, hy.signedUnits, Int.natCast_add]
  rw [add_eq (hx.le.trans_lt ha) (hy.le.trans_lt hb) (by rw [hx.nonneg]; rfl) hsum]
  exact ⟨rfl, roundMagnitude_le_of_le Nat.one_pos hc.le (by rwa [Nat.mul_one])⟩

theorem sub_eq (hx : x.AtMost a) (ha : a < infinite) (hy : y.AtMost x.magnitude) :
    x - y = ⟨false, roundMagnitude (units x.magnitude - units y.magnitude) 1⟩ := by
  have hle := hy.units_le
  have hneg : y.neg.signedUnits = -(units y.magnitude : Int) := by
    rw [Binary64.signedUnits, neg, hy.nonneg]
    rfl
  refine add_eq (hx.le.trans_lt ha) (hy.le.trans_lt (hx.le.trans_lt ha))
    (by rw [hx.nonneg]; rfl) ?_
  rw [hx.signedUnits, hneg]
  omega

theorem AtMost.sub (hx : x.AtMost a) (ha : a < infinite) (hy : y.AtMost x.magnitude) :
    (x - y).AtMost x.magnitude := by
  rw [sub_eq hx ha hy]
  refine ⟨rfl, roundMagnitude_le_of_le Nat.one_pos (hx.le.trans ha.le) ?_⟩
  rw [Nat.mul_one]
  exact Nat.sub_le _ _

theorem AtMost.mul (hx : x.AtMost a) (hy : y.AtMost b) (ha : a < infinite) (hb : b < infinite)
    (hc : c < infinite) (h : units x.magnitude * units y.magnitude ≤ units c * unitsPerOne) :
    (x * y).AtMost c := by
  show (x.mul y).AtMost c
  rw [Binary64.mul, hx.isNaN ha, hy.isNaN hb, hx.isInfinite ha, hy.isInfinite hb, hx.nonneg,
    hy.nonneg]
  exact ⟨rfl, roundMagnitude_le_of_le unitsPerOne_pos hc.le h⟩

theorem AtMost.div (hx : x.AtMost a) (hy : y.AtMost b) (ha : a < infinite) (hb : b < infinite)
    (hc : c < infinite) (hpos : 0 < y.magnitude)
    (h : units x.magnitude * unitsPerOne ≤ units c * units y.magnitude) : (x / y).AtMost c := by
  have hzero : y.isZero = false := beq_eq_false_iff_ne.mpr hpos.ne'
  have hunits : 0 < units y.magnitude := Nat.zero_lt_of_lt (units_strictMono hpos)
  show (x.div y).AtMost c
  rw [Binary64.div, hx.isNaN ha, hy.isNaN hb, hx.isInfinite ha, hy.isInfinite hb, hzero, hx.nonneg,
    hy.nonneg]
  exact ⟨rfl, roundMagnitude_le_of_le hunits hc.le h⟩

theorem AtMost.share (hx : x.AtMost y.magnitude) (hy : y.AtMost b) (hb : b < infinite)
    (hpos : 0 < y.magnitude) : (x / y).AtMost oneMagnitude := by
  refine hx.div hy (hy.le.trans_lt hb) hb oneMagnitude_lt hpos ?_
  rw [units_oneMagnitude, Nat.mul_comm]
  exact Nat.mul_le_mul_left _ hx.units_le

/-! ### Counts -/

theorem atMost_natCast {n m : Nat} (h : n ≤ m) : (n : Binary64).AtMost (m : Binary64).magnitude :=
  ⟨show decide ((n : Int) < 0) = false from decide_eq_false (by omega),
    magnitude_ofInt_mono (m := n) (n := m) (by omega)⟩

theorem magnitude_natCast_lt {n : Nat} (h : n < Nat.pow 2 64) :
    (n : Binary64).magnitude < infinite := by
  have hmax : ((Nat.pow 2 64 : Nat) : Binary64).magnitude < infinite := by decide +kernel
  exact (atMost_natCast h.le).le.trans_lt hmax

theorem magnitude_natCast_pos {n : Nat} (h : 0 < n) : 0 < (n : Binary64).magnitude :=
  Nat.pos_of_ne_zero (magnitude_ofInt_ne_zero (by omega))

/-! ### The rest to one -/

theorem unitsPerOne_eq_mul {e : Nat} (he : e = 1021) :
    unitsPerOne = 2 * binade * Nat.pow 2 e := by
  subst he
  decide +kernel

/-- Small multiples of a power of two are doubles. -/
theorem exists_units_eq {r e : Nat} (hr : r ≤ binade) (he : 52 ≤ e) :
    ∃ m, units m = r * Nat.pow 2 e := by
  obtain rfl | hpos := Nat.eq_zero_or_pos r
  · exact ⟨0, by rw [Nat.zero_mul]; rfl⟩
  · have hbits : r.log2 ≤ 52 := by
      have hlog : r.log2 ≤ (Nat.pow 2 52).log2 := log2_mono hr
      rwa [show (Nat.pow 2 52).log2 = 52 from Nat.log2_two_pow] at hlog
    obtain ⟨hlow, hhigh⟩ := shifted_bounds hpos hbits
    refine ⟨(e - (52 - r.log2)) * binade + r * Nat.pow 2 (52 - r.log2), ?_⟩
    have hpow : Nat.pow 2 (52 - r.log2) * Nat.pow 2 (e - (52 - r.log2)) = Nat.pow 2 e := by
      rw [← show Nat.pow 2 (52 - r.log2 + (e - (52 - r.log2)))
        = Nat.pow 2 (52 - r.log2) * Nat.pow 2 (e - (52 - r.log2)) from Nat.pow_add 2 _ _]
      congr 1
      omega
    rw [units_binade _ hlow hhigh.le, Nat.mul_assoc, hpow]

/-- **From a half on, the rest to one is exact.** -/
theorem units_one_sub (hx : x.AtMost oneMagnitude) (hhalf : 1022 * binade ≤ x.magnitude) :
    units x.magnitude + units (((1 : Nat) : Binary64) - x).magnitude = unitsPerOne := by
  have hone : ((1 : Nat) : Binary64).AtMost oneMagnitude := atMost_natCast le_rfl
  -- from a half to one, doubles are multiples of the same power of two
  obtain ⟨e, he⟩ : ∃ e, e = 1021 := ⟨_, rfl⟩
  have hmagnitude : oneMagnitude = e * binade + 2 * binade := by
    subst he
    decide +kernel
  have hlow : e * binade + binade ≤ x.magnitude := by
    rw [← Nat.succ_mul, he]
    exact hhalf
  have hhigh := hx.le
  obtain ⟨t, ht⟩ := Nat.exists_eq_add_of_le (Nat.le_of_add_right_le hlow)
  have hunits : units x.magnitude = t * Nat.pow 2 e := by
    rw [ht]
    exact units_binade e (by omega) (by omega)
  have hrest : unitsPerOne - units x.magnitude = (2 * binade - t) * Nat.pow 2 e := by
    rw [hunits, Nat.sub_mul, ← unitsPerOne_eq_mul he]
  obtain ⟨m, hm⟩ := exists_units_eq (r := 2 * binade - t) (e := e) (by omega) (by omega)
  have hfinite : m ≤ infinite := by
    refine (units_strictMono.le_iff_le.mp ?_).trans oneMagnitude_lt.le
    rw [hm, ← hrest, units_oneMagnitude]
    exact Nat.sub_le _ _
  have hbelow := hx.units_le
  rw [units_oneMagnitude] at hbelow
  rw [sub_eq hone oneMagnitude_lt hx, ← oneMagnitude, units_oneMagnitude, hrest, ← hm,
    roundMagnitude_units hfinite, hm, ← hrest]
  omega

/-! ### Order -/

theorem lt_iff_rank (hx : x.isNaN = false) (hy : y.isNaN = false) : x < y ↔ x.rank < y.rank := by
  show x.compare? y = some .lt ↔ _
  rw [compare?, hx, hy]
  simp [Int.compare_eq_lt]

theorem le_iff_rank (hx : x.isNaN = false) (hy : y.isNaN = false) : x ≤ y ↔ x.rank ≤ y.rank := by
  show x.compare? y = some .lt ∨ x.compare? y = some .eq ↔ _
  rw [compare?, hx, hy]
  simp [Int.compare_eq_lt, Int.le_iff_lt_or_eq]

/-- Only numbers are in order. -/
theorem isNaN_of_le (h : x ≤ y) : x.isNaN = false ∧ y.isNaN = false := by
  replace h : x.compare? y = some .lt ∨ x.compare? y = some .eq := h
  rw [compare?] at h
  split at h
  · simp at h
  · next hnumbers => rwa [Bool.or_eq_true, not_or, Bool.not_eq_true, Bool.not_eq_true] at hnumbers

/-- The order is transitive, whether all are numbers or not. -/
protected theorem le_trans {z : Binary64} (hxy : x ≤ y) (hyz : y ≤ z) : x ≤ z := by
  obtain ⟨hx, hy⟩ := isNaN_of_le hxy
  obtain ⟨-, hz⟩ := isNaN_of_le hyz
  rw [le_iff_rank hx hy] at hxy
  rw [le_iff_rank hy hz] at hyz
  exact (le_iff_rank hx hz).mpr (hxy.trans hyz)

end Binary64

end RecordQuery
