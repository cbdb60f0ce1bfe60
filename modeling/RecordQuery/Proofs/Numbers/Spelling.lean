import RecordQuery.Proofs.Numbers.Equality
import RecordQuery.Value.Key

/-!
# Written numbers

An integer is written digit by digit, a double as the shortest decimal that reads back as it. So two
equal numbers need not be written alike, and it takes an argument that they mostly are: the shortest
decimal of a whole number below `2 ^ 53` is that number. The argument is that around such a number
doubles are at most one apart, so that no other whole number reads back (`IsWhole`), and a decimal
that uses a power of ten is a whole number.

Where doubles are further apart than one, the shortest decimal has zeros in place of digits, and an
integer keeps its digits. And there are two zeros, which are equal and not written alike. These are
the numbers that are `SpeltApart`.

## Where the bound comes from

From `2 ^ 53` on, doubles are two or more apart, and an interval around one of them contains several
whole numbers. The shortest decimal is then the one with most zeros at the end, which need not be
the number itself. Whether it is depends on the number: some large powers of ten are written alike
as integers and as doubles, and their neighbours are not. So `Num.SpeltApart` has no closed form
beyond the bound, and asks for the decimal. Below the bound only the zeros are spelt apart.

## The search

The search tries powers of ten from the largest on, and takes the first of which a multiple reads
back. For a whole number below the bound, the multiples of a power of ten that read back are the
number itself or none (`Binary64.readsBack_iff`), so the search stops at the largest power that
divides it. The decimal found has few digits and a positive exponent, and is written out with zeros.

## Implementation notes

The text of a number is a sign and a text without sign. That both can be told from the whole is
`Binary64.signed_inj`; it uses that digits and points are no signs, and nothing about decimals.

The search is by recursion on a counter that stands for an exponent. Statements about it are
restricted to exponents that are not negative, since for these alone the multiples are whole.

## Main results

* `Binary64.readsBack_iff` — the decimals that read back as a whole number
* `Binary64.spell_eq_toDigits_iff` — the decimals that are written as an integer is
* `Num.text_eq_iff` — which equal numbers are written alike
-/

namespace RecordQuery

namespace Binary64

/-! ### Neighbouring magnitudes -/

/-- Between two powers of two, and up to the second one, the values go up evenly. -/
theorem units_binade (shift : Nat) {t : Nat} (hlow : binade ≤ t) (hhigh : t ≤ 2 * binade) :
    units (shift * binade + t) = t * Nat.pow 2 shift := by
  have hbinade : 0 < binade := two_pow_pos 52
  rcases Nat.lt_or_eq_of_le hhigh with hlt | rfl
  · obtain ⟨f, rfl⟩ := Nat.exists_eq_add_of_le hlow
    have hf : f < binade := by omega
    rcases Nat.eq_zero_or_pos shift with rfl | hshift
    · -- in the two lowest binades a magnitude is its own value
      rw [units, Nat.zero_mul, Nat.zero_add, if_pos hlt]
      exact (Nat.mul_one _).symm
    · have hstep : 1 * binade ≤ shift * binade := Nat.mul_le_mul_right binade hshift
      have hsum : shift * binade + (binade + f) = f + binade * (shift + 1) := by
        rw [Nat.mul_add, Nat.mul_comm shift, Nat.mul_one]
        omega
      rw [units, if_neg (by omega), hsum, Nat.add_mul_mod_self_left, Nat.mod_eq_of_lt hf,
        Nat.add_mul_div_left _ _ hbinade, Nat.div_eq_of_lt hf, Nat.zero_add, Nat.add_sub_cancel]
  · -- the second power of two is the first value of the next binade
    have hsum : shift * binade + 2 * binade = binade * (shift + 2) := by
      rw [← Nat.add_mul, Nat.mul_comm]
    have hpow : Nat.pow 2 (shift + 1) = Nat.pow 2 shift * 2 := Nat.pow_succ _ _
    have hshift : shift + 2 - 1 = shift + 1 := by omega
    have hstep : binade * 2 ≤ binade * (shift + 2) := Nat.mul_le_mul_left binade (by omega)
    rw [units, hsum, if_neg (by omega), Nat.mul_mod_right, Nat.mul_div_cancel_left _ hbinade,
      Nat.add_zero, hshift, hpow, Nat.mul_comm 2 binade, Nat.mul_assoc, Nat.mul_comm 2]

theorem units_pred_bounds {shift t : Nat} (hshift : 0 < shift) (hlow : binade ≤ t)
    (hhigh : t < 2 * binade) :
    units (shift * binade + t - 1) < t * Nat.pow 2 shift
      ∧ t * Nat.pow 2 shift ≤ units (shift * binade + t - 1) + Nat.pow 2 shift := by
  have hpos : 0 < Nat.pow 2 shift := two_pow_pos shift
  rcases Nat.lt_or_eq_of_le hlow with hlt | rfl
  · obtain ⟨s, rfl⟩ := Nat.exists_eq_add_of_lt hlt
    have hpred : shift * binade + (binade + s + 1) - 1 = shift * binade + (binade + s) := by omega
    rw [hpred, units_binade shift (by omega) (by omega), Nat.succ_mul]
    omega
  · -- the step below a power of two is half as wide
    obtain ⟨half, rfl⟩ := Nat.exists_eq_add_of_le' hshift
    have hbinade : 0 < binade := two_pow_pos 52
    have hpred : (half + 1) * binade + binade - 1 = half * binade + (2 * binade - 1) := by
      rw [Nat.succ_mul]
      omega
    have hpow : Nat.pow 2 (half + 1) = 2 * Nat.pow 2 half := Nat.pow_succ'
    have hone : 2 * binade - 1 + 1 = 2 * binade := by omega
    have htop : (2 * binade - 1) * Nat.pow 2 half + Nat.pow 2 half
        = binade * (2 * Nat.pow 2 half) := by
      rw [← Nat.succ_mul, Nat.succ_eq_add_one, hone, ← Nat.mul_assoc, Nat.mul_comm binade 2]
    have hhalf : 0 < Nat.pow 2 half := two_pow_pos half
    rw [hpred, units_binade half (by omega) (by omega), hpow, ← htop]
    omega

/-- The magnitude is that of a whole number, and its neighbours are within one of it. -/
structure IsWhole (magnitude k : Nat) : Prop where
  units_eq : units magnitude = k * unitsPerOne
  pred_lt : units (magnitude - 1) < k * unitsPerOne
  le_pred_add : k * unitsPerOne ≤ units (magnitude - 1) + unitsPerOne
  lt_succ : k * unitsPerOne < units (magnitude + 1)
  succ_le_add : units (magnitude + 1) ≤ k * unitsPerOne + unitsPerOne

theorem isWhole_roundMagnitude {k : Nat} (hk : 0 < k) (hbits : k.log2 ≤ 52) :
    IsWhole (roundMagnitude (k * unitsPerOne) 1) k := by
  obtain ⟨hlow, hhigh⟩ := shifted_bounds hk hbits
  have hvalue : k * Nat.pow 2 (52 - k.log2) * Nat.pow 2 (k.log2 + 1022) = k * unitsPerOne := by
    rw [Nat.mul_assoc, pow_mul_pow_eq_unitsPerOne hbits]
  have hstep : Nat.pow 2 (k.log2 + 1022) ≤ unitsPerOne := by
    rw [← pow_mul_pow_eq_unitsPerOne hbits]
    exact Nat.le_mul_of_pos_left _ (two_pow_pos _)
  have hpos : 0 < Nat.pow 2 (k.log2 + 1022) := two_pow_pos _
  have hself := units_binade (k.log2 + 1022) hlow (Nat.le_of_lt hhigh)
  have hsucc := units_binade (k.log2 + 1022) (Nat.le_succ_of_le hlow) hhigh
  have hpred := units_pred_bounds (Nat.succ_pos (k.log2 + 1021)) hlow hhigh
  rw [hvalue] at hself hpred
  rw [Nat.succ_mul (k * Nat.pow 2 (52 - k.log2)), hvalue] at hsucc
  rw [roundMagnitude_of_bits hk hbits]
  exact {
    units_eq := hself
    pred_lt := hpred.1
    le_pred_add := Nat.le_trans hpred.2 (Nat.add_le_add_left hstep _)
    lt_succ := by rw [Nat.add_assoc, hsucc]; omega
    succ_le_add := by rw [Nat.add_assoc, hsucc]; omega }

/-! ### Decimals of whole numbers -/

variable {magnitude k : Nat}

theorem unitsPerOne_pos : 0 < unitsPerOne := by decide +kernel

theorem halfUnits_natCast (e : Nat) : halfUnits e = (Nat.pow 10 e * (2 * unitsPerOne), 1) := by
  rw [halfUnits, if_pos (Int.natCast_nonneg e), Int.toNat_natCast]

/-- **Of the whole multiples of a power of ten, only the number itself reads back.** -/
theorem readsBack_iff (h : IsWhole magnitude k) (digits e : Nat) :
    readsBack magnitude digits e = true ↔ digits * Nat.pow 10 e = k := by
  have hvalue : digits * (Nat.pow 10 e * (2 * unitsPerOne))
      = 2 * (digits * Nat.pow 10 e * unitsPerOne) := by
    rw [← Nat.mul_assoc, Nat.mul_left_comm]
  -- another whole number is at least one away, and the neighbours are not
  have haway : ∀ m n : Nat, m < n → m * unitsPerOne + unitsPerOne ≤ n * unitsPerOne := by
    intro m n hmn
    rw [← Nat.succ_mul]
    exact Nat.mul_le_mul_right _ hmn
  obtain ⟨hself, hpred, hpred', hsucc, hsucc'⟩ := h
  simp only [readsBack, halfUnits_natCast, hvalue, hself, Nat.mul_one]
  generalize digits * Nat.pow 10 e = n
  constructor
  · intro hinside
    rcases Nat.lt_trichotomy n k with hlt | heq | hgt
    · have := haway n k hlt
      split at hinside <;> simp only [Bool.and_eq_true, decide_eq_true_eq] at hinside <;> omega
    · exact heq
    · have := haway k n hgt
      split at hinside <;> simp only [Bool.and_eq_true, decide_eq_true_eq] at hinside <;> omega
  · rintro rfl
    split <;> simp only [Bool.and_eq_true, decide_eq_true_eq] <;> omega

/-- A power of ten has a multiple that reads back if it divides the number. -/
theorem digitsAt?_eq (h : IsWhole magnitude k) (e : Nat) :
    digitsAt? magnitude e = if Nat.pow 10 e ∣ k then some (k / Nat.pow 10 e) else none := by
  have hpos : 0 < Nat.pow 10 e := Nat.pow_pos (by decide)
  have hunits : 0 < 2 * unitsPerOne := Nat.mul_pos Nat.two_pos unitsPerOne_pos
  have hbelow : 2 * units magnitude * 1 / (Nat.pow 10 e * (2 * unitsPerOne))
      = k / Nat.pow 10 e := by
    rw [Nat.mul_one, h.units_eq, Nat.mul_left_comm, Nat.mul_div_mul_right _ _ hunits]
  have habove : readsBack magnitude (k / Nat.pow 10 e + 1) e = false := by
    rw [← Bool.not_eq_true, readsBack_iff h, Nat.succ_mul]
    have := Nat.div_add_mod' k (Nat.pow 10 e)
    have := Nat.mod_lt k hpos
    omega
  have hself : readsBack magnitude (k / Nat.pow 10 e) e = decide (Nat.pow 10 e ∣ k) := by
    rw [Bool.eq_iff_iff, readsBack_iff h, decide_eq_true_eq, Nat.dvd_iff_div_mul_eq]
  simp only [digitsAt?, halfUnits_natCast, hbelow, habove, hself]
  by_cases hdvd : Nat.pow 10 e ∣ k
  · rw [decide_eq_true hdvd, if_pos hdvd]
  · rw [decide_eq_false hdvd, if_neg hdvd]

/-- The decimal is a whole number, of the given value. -/
def Decimal.Denotes (d : Decimal) (n : Nat) : Prop :=
  0 ≤ d.exponent ∧ d.digits * Nat.pow 10 d.exponent.toNat = n

instance (d : Decimal) (n : Nat) : Decidable (d.Denotes n) :=
  inferInstanceAs (Decidable (0 ≤ d.exponent ∧ d.digits * Nat.pow 10 d.exponent.toNat = n))

/-- The search takes a power of ten that divides the number. -/
theorem shortestBelow_natCast (h : IsWhole magnitude k) (e : Nat) :
    shortestBelow magnitude (325 + e)
      = if Nat.pow 10 e ∣ k then ⟨k / Nat.pow 10 e, e⟩ else shortestBelow magnitude (324 + e) := by
  have hexponent : leastExponent + ((324 + e : Nat) : Int) = e := by
    rw [leastExponent]
    omega
  rw [show 325 + e = 324 + e + 1 by omega, shortestBelow, hexponent, digitsAt?_eq h]
  by_cases hdvd : Nat.pow 10 e ∣ k
  · rw [if_pos hdvd, if_pos hdvd]
  · rw [if_neg hdvd, if_neg hdvd]

/-- The search finds the number, at the latest with the exponent zero. -/
theorem denotes_shortestBelow (h : IsWhole magnitude k) (e : Nat) :
    (shortestBelow magnitude (325 + e)).Denotes k := by
  have hfound : ∀ e : Nat, Nat.pow 10 e ∣ k →
      (⟨k / Nat.pow 10 e, e⟩ : Decimal).Denotes k := fun e hdvd =>
    ⟨Int.natCast_nonneg e, by rw [Int.toNat_natCast]; exact Nat.div_mul_cancel hdvd⟩
  induction e with
  | zero =>
    have hone : Nat.pow 10 0 ∣ k := Nat.one_dvd k
    rw [shortestBelow_natCast h, if_pos hone]
    exact hfound 0 hone
  | succ e ih =>
    rw [shortestBelow_natCast h]
    split
    · next hdvd => exact hfound (e + 1) hdvd
    · rwa [show 324 + (e + 1) = 325 + e by omega]

theorem magnitude_ofInt_ne_zero {m : Int} (hm : m ≠ 0) : (ofInt m).magnitude ≠ 0 := by
  have hone : (ofInt 0).magnitude < (ofInt 1).magnitude :=
    magnitude_ofInt_lt (by decide) (by decide)
  have hmono : (ofInt 1).magnitude ≤ (ofInt m).magnitude := magnitude_ofInt_mono (by omega)
  omega

/-- **The shortest decimal of a whole number below `2 ^ 53` is that number.** -/
theorem denotes_shortest_ofInt {m : Int} (hm : m ≠ 0) (hbits : m.natAbs < Nat.pow 2 53) :
    (shortest (ofInt m).magnitude).Denotes m.natAbs := by
  have hpos : 0 < m.natAbs := Int.natAbs_pos.mpr hm
  have hlog : m.natAbs.log2 < 53 := (Nat.log2_lt (by omega)).mpr hbits
  have hwhole : IsWhole (ofInt m).magnitude m.natAbs := isWhole_roundMagnitude hpos (by omega)
  rw [shortest, if_neg (magnitude_ofInt_ne_zero hm)]
  exact denotes_shortestBelow hwhole 308

/-! ### Spelling -/

theorem toDigits_append_zeros {d : Nat} (hd : 0 < d) (e : Nat) :
    Nat.toDigits 10 d ++ List.replicate e '0' = Nat.toDigits 10 (d * Nat.pow 10 e) := by
  induction e with
  | zero => rw [List.replicate_zero, List.append_nil]; exact congrArg _ (Nat.mul_one d).symm
  | succ e ih =>
    have hpos : 0 < d * Nat.pow 10 e := Nat.mul_pos hd (Nat.pow_pos (by decide))
    have hpow : d * Nat.pow 10 (e + 1) = 10 * (d * Nat.pow 10 e) + 0 := by
      rw [Nat.add_zero, Nat.mul_left_comm]
      exact congrArg (d * ·) Nat.pow_succ'
    rw [List.replicate_succ', ← List.append_assoc, ih, hpow,
      ← Nat.toDigits_append_toDigits (by decide) hpos (by decide), Nat.toDigits_zero]

theorem isDigit_of_mem_toDigits (n : Nat) : ∀ c ∈ Nat.toDigits 10 n, c.isDigit = true :=
  fun _ hc => Nat.isDigit_of_mem_toDigits (by decide) (by decide) hc

theorem notMem_of_isDigit {c : Char} (hc : c.isDigit = false) {text : List Char}
    (h : ∀ d ∈ text, d.isDigit = true) : c ∉ text := fun hmem =>
  Bool.eq_false_iff.mp hc (h c hmem)

theorem notMem_toDigits {c : Char} (hc : c.isDigit = false) (n : Nat) : c ∉ Nat.toDigits 10 n :=
  notMem_of_isDigit hc (isDigit_of_mem_toDigits n)

/-- A minus sign in front tells negative numbers from the others. -/
theorem signed_inj {p q : Prop} [Decidable p] [Decidable q] {cs ds : List Char} (hcs : '-' ∉ cs)
    (hds : '-' ∉ ds) :
    (if p then '-' :: cs else cs) = (if q then '-' :: ds else ds) ↔ (p ↔ q) ∧ cs = ds := by
  by_cases hp : p <;> by_cases hq : q
  · simp [hp, hq]
  · rw [if_pos hp, if_neg hq]
    refine iff_of_false ?_ fun h => hq (h.1.mp hp)
    rintro rfl
    exact hds List.mem_cons_self
  · rw [if_neg hp, if_pos hq]
    refine iff_of_false ?_ fun h => hp (h.1.mpr hq)
    rintro rfl
    exact hcs List.mem_cons_self
  · simp [hp, hq]

theorem spell_of_nonneg {d : Decimal} (h : 0 ≤ d.exponent) :
    d.spell = Nat.toDigits 10 d.digits ++ List.replicate d.exponent.toNat '0' := if_pos h

theorem point_mem_spell {d : Decimal} (h : d.exponent < 0) : '.' ∈ d.spell := by
  simp only [Decimal.spell, if_neg (Int.not_le.mpr h)]
  split
  · exact List.mem_append_right _ List.mem_cons_self
  · exact List.mem_cons_of_mem _ List.mem_cons_self

/-- **A decimal is written as a positive number is if it denotes the number.** -/
theorem spell_eq_toDigits_iff (d : Decimal) {n : Nat} (hn : 0 < n) :
    d.spell = Nat.toDigits 10 n ↔ d.Denotes n := by
  rcases Int.lt_or_le d.exponent 0 with hexponent | hexponent
  · constructor
    · intro h
      have hpoint : '.' ∈ Nat.toDigits 10 n := h ▸ point_mem_spell hexponent
      exact absurd hpoint (notMem_toDigits (by decide) n)
    · exact fun h => absurd h.1 (Int.not_le.mpr hexponent)
  · rw [spell_of_nonneg hexponent, Decimal.Denotes, and_iff_right hexponent]
    constructor
    · intro h
      have hvalue := congrArg (Nat.ofDigitChars 10 · 0) h
      simp only [Nat.ofDigitChars_append, Nat.ofDigitChars_ten_toDigits,
        Nat.ofDigitChars_replicate_zero] at hvalue
      rw [Nat.mul_comm]
      exact hvalue
    · rintro rfl
      exact toDigits_append_zeros (Nat.pos_of_mul_pos_right hn) _

theorem eq_or_zeros_of_rank_eq {x y : Binary64} (h : x.rank = y.rank) :
    x = y ∨ ∃ s t, x = ⟨s, 0⟩ ∧ y = ⟨t, 0⟩ := by
  obtain ⟨s, i⟩ := x
  obtain ⟨t, j⟩ := y
  cases s <;> cases t <;> simp [rank] at h ⊢ <;> omega

theorem text_zero (negative : Bool) : text ⟨negative, 0⟩ = if negative then "-0" else "0" := by
  cases negative <;> decide +kernel

theorem text_of_isFinite {x : Binary64} (h : x.isFinite = true) :
    x.text = String.ofList (if x.negative then '-' :: (shortest x.magnitude).spell
      else (shortest x.magnitude).spell) := by
  have hfinite : x.magnitude < infinite := of_decide_eq_true h
  have hnan : x.isNaN = false := decide_eq_false (by omega)
  have hinfinite : x.isInfinite = false := beq_eq_false_iff_ne.mpr (by omega)
  rw [text, hnan, hinfinite]
  rfl

end Binary64

/-! ### Texts of numbers -/

namespace Num

theorem text_int (m : Int) :
    (Num.int m).text = String.ofList (if m < 0 then '-' :: Nat.toDigits 10 m.natAbs
      else Nat.toDigits 10 m.natAbs) := by
  cases m with
  | ofNat n =>
    have hn : ¬ Int.ofNat n < 0 := Int.not_lt.mpr (Int.natCast_nonneg n)
    rw [text, if_neg hn, Nat.repr_eq_ofList_toDigits]
    rfl
  | negSucc n =>
    rw [text, if_pos (Int.negSucc_lt_zero n), Nat.repr_eq_ofList_toDigits,
      ← List.singleton_append, String.ofList_append]
    rfl

/-- **Different integers are written differently.** -/
theorem text_int_inj {m n : Int} : (Num.int m).text = (Num.int n).text ↔ m = n := by
  refine ⟨fun h => ?_, fun h => by rw [h]⟩
  rw [text_int, text_int, String.ofList_inj, Binary64.signed_inj
    (Binary64.notMem_toDigits (by decide) _) (Binary64.notMem_toDigits (by decide) _)] at h
  obtain ⟨hsign, hdigits⟩ := h
  have habs := congrArg (Nat.ofDigitChars 10 · 0) hdigits
  simp only [Nat.ofDigitChars_ten_toDigits] at habs
  omega

/-- Equal numbers that are not written alike. -/
def SpeltApart : Num → Num → Prop
  | .int m, .float x | .float x, .int m =>
    x = .negZero
      ∨ Nat.pow 2 53 ≤ m.natAbs ∧ ¬ (Binary64.shortest x.magnitude).Denotes m.natAbs
  | .float x, .float y => x.isZero = true ∧ x.negative ≠ y.negative
  | .int _, .int _ => False

instance : ∀ a b : Num, Decidable (a.SpeltApart b)
  | .int m, .float x | .float x, .int m =>
    inferInstanceAs (Decidable (x = .negZero
      ∨ Nat.pow 2 53 ≤ m.natAbs ∧ ¬ (Binary64.shortest x.magnitude).Denotes m.natAbs))
  | .float x, .float y =>
    inferInstanceAs (Decidable (x.isZero = true ∧ x.negative ≠ y.negative))
  | .int _, .int _ => inferInstanceAs (Decidable False)

variable {a b : Num}

theorem text_int_eq_iff {m : Int} (hm : m ≠ 0) (h : (Binary64.ofInt m).isFinite = true) :
    (Num.int m).text = (Binary64.ofInt m).text
      ↔ (Binary64.shortest (Binary64.ofInt m).magnitude).Denotes m.natAbs := by
  rw [← Binary64.spell_eq_toDigits_iff _ (Int.natAbs_pos.mpr hm), text_int,
    Binary64.text_of_isFinite h, String.ofList_inj]
  have hnegative : (Binary64.ofInt m).negative = decide (m < 0) := rfl
  by_cases hneg : m < 0 <;> simp [hnegative, hneg, eq_comm]

theorem text_int_eq_float_iff {m : Int} {x : Binary64} (hx : x.isFinite = true)
    (hrank : (Binary64.ofInt m).rank = x.rank) :
    (Num.int m).text = x.text ↔ ¬ SpeltApart (.int m) (.float x) := by
  have hzero : ∀ s, (Num.int 0).text = Binary64.text ⟨s, 0⟩
      ↔ ¬ SpeltApart (.int 0) (.float ⟨s, 0⟩) := by
    intro s
    have htext : (Num.int 0).text = "0" := rfl
    rw [htext, Binary64.text_zero]
    cases s <;> simp [SpeltApart, Binary64.negZero]
  by_cases hm : m = 0
  · subst hm
    rcases Binary64.eq_or_zeros_of_rank_eq hrank with rfl | ⟨-, s, -, rfl⟩
    · rw [Binary64.ofInt_zero]
      exact hzero false
    · exact hzero s
  · have hmagnitude := Binary64.magnitude_ofInt_ne_zero hm
    rcases Binary64.eq_or_zeros_of_rank_eq hrank with rfl | ⟨s, -, hofInt, -⟩
    · have hnegZero : Binary64.ofInt m ≠ .negZero := fun h => hmagnitude (by rw [h]; rfl)
      rw [text_int_eq_iff hm hx, SpeltApart, or_iff_right hnegZero, not_and, not_not]
      constructor
      · exact fun h _ => h
      · intro h
        rcases Nat.lt_or_ge m.natAbs (Nat.pow 2 53) with hlt | hge
        · exact Binary64.denotes_shortest_ofInt hm hlt
        · exact h hge
    · exact absurd (congrArg Binary64.magnitude hofInt) hmagnitude

theorem text_float_eq_iff {x y : Binary64} (hrank : x.rank = y.rank) :
    x.text = y.text ↔ ¬ SpeltApart (.float x) (.float y) := by
  rcases Binary64.eq_or_zeros_of_rank_eq hrank with rfl | ⟨s, t, rfl, rfl⟩
  · simp [SpeltApart]
  · rw [Binary64.text_zero, Binary64.text_zero]
    cases s <;> cases t <;> simp [SpeltApart, Binary64.isZero]

/-- **Equal numbers are written alike unless they are spelt apart.** -/
theorem text_eq_iff (ha : a.InRange) (hb : b.InRange) (h : a.equal b = true) :
    a.text = b.text ↔ ¬ a.SpeltApart b := by
  have hrank := rank_eq_of_equal ha hb h
  cases a with
  | int m =>
    cases b with
    | int n => simp [equal_int.mp h, SpeltApart]
    | float y => exact text_int_eq_float_iff hb hrank
  | float x =>
    cases b with
    | int n => exact eq_comm.trans (text_int_eq_float_iff ha hrank.symm)
    | float y => exact text_float_eq_iff hrank

/-- The double `2 ^ 60` is written `1152921504606847000`, the integer `1152921504606846976`. -/
example : SpeltApart (.int (Nat.pow 2 60)) (.float (.ofInt (Nat.pow 2 60))) := by decide +kernel

end Num

end RecordQuery
