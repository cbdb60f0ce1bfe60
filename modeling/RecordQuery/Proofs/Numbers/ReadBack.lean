import RecordQuery.Proofs.Numbers.Interval
import Mathlib.Data.List.TakeWhile

/-!
# Numbers that are written alike

Different doubles are written differently, and an integer is written as a double is only if the
double is the one nearest to it. So two numbers that are written alike are equal.

What is written can be read: the digits without the point are a number, and the places behind the
point say which power of ten it counts. Decimals that are spelled alike are read as one point, and
that point lies in the rounding interval of one magnitude.

## Why the texts determine the numbers

It is not enough that what is written for a double reads back as that double, since a text could be
what is written for two doubles, and reading decides for one of them. Here reading is not a function
that decides. It gives a point, and that the point lies in the rounding interval of a magnitude is a
property which at most one magnitude has. Both doubles of one text have it, so they have the same
magnitude, and the sign is written in front.

An integer is written exactly, so the point that is read from its text is the integer. It lies in
the rounding interval of the double nearest to it. If the text is also that of a double, the point
lies in the interval of that double, and so this one is the nearest.

## Implementation notes

Leading zeros and trailing zeros do not matter for the point: the former do not change the number
that the digits make, and the latter are what a positive exponent stands for. Therefore
`Binary64.read_spell` is about a product with a power of ten, and not about the digits alone.

The number zero is a case of its own at each step. Two zeros have different signs in their texts,
and zero is the only integer whose text could be confused with theirs.

## Main definitions

* `Binary64.digitsOf`, `Binary64.placesOf` — reading a spelled decimal

## Main results

* `Binary64.read_spell` — what is spelled is read
* `Binary64.text_inj` — different doubles are written differently
* `Num.eq_ofInt_of_text_eq` — an integer and a double that are written alike
* `Num.equal_of_text_eq` — numbers that are written alike are equal
-/

namespace RecordQuery

namespace Binary64

/-! ### Reading a spelled decimal -/

/-- The number that the digits of a text make, leaving out the point. -/
def digitsOf (text : List Char) : Nat := Nat.ofDigitChars 10 (text.filter (· ≠ '.')) 0

/-- The number of places after the point. -/
def placesOf (text : List Char) : Nat := (text.dropWhile (· ≠ '.')).tail.length

theorem filter_of_point_notMem {text : List Char} (h : '.' ∉ text) :
    text.filter (· ≠ '.') = text := by
  rw [List.filter_eq_self]
  intro c hc
  exact decide_eq_true fun hpoint => h (hpoint ▸ hc)

theorem digitsOf_append_point {whole fraction : List Char} (h : '.' ∉ whole ++ fraction) :
    digitsOf (whole ++ '.' :: fraction) = Nat.ofDigitChars 10 (whole ++ fraction) 0 := by
  rw [digitsOf, List.filter_append, List.filter_cons_of_neg (by decide), ← List.filter_append,
    filter_of_point_notMem h]

theorem placesOf_append_point {whole fraction : List Char} (hwhole : '.' ∉ whole) :
    placesOf (whole ++ '.' :: fraction) = fraction.length := by
  rw [placesOf, List.dropWhile_append_of_pos]
  · rfl
  · intro c hc
    exact decide_eq_true fun hpoint => hwhole (hpoint ▸ hc)

theorem placesOf_of_point_notMem {text : List Char} (h : '.' ∉ text) : placesOf text = 0 := by
  have hnil : text.dropWhile (· ≠ '.') = [] := by
    rw [List.dropWhile_eq_nil_iff]
    intro c hc
    exact decide_eq_true fun hpoint => h (hpoint ▸ hc)
  rw [placesOf, hnil]
  rfl

/-- **A decimal with places is spelled as digits with a point in between**: as many digits behind
the point as there are places. -/
theorem exists_spell_eq {d : Decimal} (h : d.exponent < 0) :
    ∃ whole fraction, d.spell = whole ++ '.' :: fraction
      ∧ fraction.length = (-d.exponent).toNat
      ∧ (∀ c ∈ whole ++ fraction, c.isDigit = true)
      ∧ Nat.ofDigitChars 10 (whole ++ fraction) 0 = d.digits := by
  have hdigits := isDigit_of_mem_toDigits d.digits
  have hvalue : Nat.ofDigitChars 10 (Nat.toDigits 10 d.digits) 0 = d.digits :=
    Nat.ofDigitChars_ten_toDigits
  simp only [Decimal.spell, if_neg (Int.not_le.mpr h)]
  generalize (-d.exponent).toNat = places
  split
  · next hlt =>
    refine ⟨_, _, rfl, ?_, ?_, ?_⟩
    · rw [List.length_drop]
      omega
    · rwa [List.take_append_drop]
    · rwa [List.take_append_drop]
  · next hge =>
    -- the zero in front of the point goes with those behind it
    have hzeros : ['0'] ++ (List.replicate (places - (Nat.toDigits 10 d.digits).length) '0'
          ++ Nat.toDigits 10 d.digits)
        = List.replicate (places - (Nat.toDigits 10 d.digits).length + 1) '0'
          ++ Nat.toDigits 10 d.digits := rfl
    refine ⟨['0'], _, rfl, ?_, ?_, ?_⟩
    · rw [List.length_append, List.length_replicate]
      omega
    · rw [hzeros, List.forall_mem_append]
      refine ⟨fun c hc => ?_, hdigits⟩
      rw [List.eq_of_mem_replicate hc]
      rfl
    · rw [hzeros, Nat.ofDigitChars_append, Nat.ofDigitChars_replicate_zero, Nat.mul_zero, hvalue]

theorem isDigit_of_mem_spell {d : Decimal} (h : 0 ≤ d.exponent) :
    ∀ c ∈ d.spell, c.isDigit = true := by
  rw [spell_of_nonneg h, List.forall_mem_append]
  refine ⟨isDigit_of_mem_toDigits d.digits, fun c hc => ?_⟩
  rw [List.eq_of_mem_replicate hc]
  rfl

/-- **What is spelled is read**, up to the zeros that a positive exponent stands for. -/
theorem read_spell (d : Decimal) :
    digitsOf d.spell = d.digits * Nat.pow 10 d.exponent.toNat
      ∧ placesOf d.spell = (-d.exponent).toNat := by
  rcases Int.lt_or_le d.exponent 0 with hexponent | hexponent
  · obtain ⟨whole, fraction, hspell, hlength, hdigits, hvalue⟩ := exists_spell_eq hexponent
    have hpoint : '.' ∉ whole ++ fraction := notMem_of_isDigit (by decide) hdigits
    have hwhole : '.' ∉ whole := fun hmem => hpoint (List.mem_append_left _ hmem)
    have hzero : d.exponent.toNat = 0 := by omega
    rw [hspell, digitsOf_append_point hpoint, placesOf_append_point hwhole, hvalue, hzero]
    exact ⟨(Nat.mul_one _).symm, hlength⟩
  · have hpoint : '.' ∉ d.spell := notMem_of_isDigit (by decide) (isDigit_of_mem_spell hexponent)
    rw [placesOf_of_point_notMem hpoint, digitsOf, filter_of_point_notMem hpoint,
      spell_of_nonneg hexponent, Nat.ofDigitChars_append, Nat.ofDigitChars_ten_toDigits,
      Nat.ofDigitChars_replicate_zero]
    exact ⟨Nat.mul_comm _ _, by omega⟩

/-- **Magnitudes whose decimals are spelled alike are the same**: the decimals are one point, which
lies in both rounding intervals. -/
theorem magnitude_eq_of_spell {m n : Nat} (h : (shortest m).spell = (shortest n).spell) :
    m = n := by
  obtain ⟨hdigits, hplaces⟩ := read_spell (shortest m)
  obtain ⟨hdigits', hplaces'⟩ := read_spell (shortest n)
  rw [h, hdigits'] at hdigits
  rw [h, hplaces'] at hplaces
  have hm := encloses_shortest m
  have hn := encloses_shortest n
  rw [← Nat.mul_assoc, ← hdigits, ← hplaces] at hm
  rw [← Nat.mul_assoc] at hn
  exact hm.unique hn (Nat.pow_pos (by decide))

theorem minus_notMem_spell (d : Decimal) : '-' ∉ d.spell := by
  rcases Int.lt_or_le d.exponent 0 with hexponent | hexponent
  · obtain ⟨whole, fraction, hspell, -, hdigits, -⟩ := exists_spell_eq hexponent
    have hminus : '-' ∉ whole ++ fraction := notMem_of_isDigit (by decide) hdigits
    rw [List.mem_append, not_or] at hminus
    rw [hspell, List.mem_append, List.mem_cons, not_or, not_or]
    exact ⟨hminus.1, by decide, hminus.2⟩
  · exact notMem_of_isDigit (by decide) (isDigit_of_mem_spell hexponent)

/-- **Different doubles are written differently.** -/
theorem text_inj {x y : Binary64} (hx : x.isFinite = true) (hy : y.isFinite = true) :
    x.text = y.text ↔ x = y := by
  refine ⟨fun h => ?_, fun h => by rw [h]⟩
  rw [text_of_isFinite hx, text_of_isFinite hy, String.ofList_inj,
    signed_inj (minus_notMem_spell _) (minus_notMem_spell _)] at h
  obtain ⟨negative, magnitude⟩ := x
  obtain ⟨negative', magnitude'⟩ := y
  obtain ⟨hsign, hspell⟩ := h
  obtain rfl : negative = negative' := Bool.eq_iff_iff.mpr hsign
  exact congrArg (Binary64.mk negative) (magnitude_eq_of_spell hspell)

/-! ### Integers -/

theorem encloses_ofInt {m : Int} (hm : m ≠ 0) (hrange : m.natAbs < Nat.pow 2 64) :
    Encloses (ofInt m).magnitude (m.natAbs * (2 * unitsPerOne)) 1 := by
  have hpos : 0 < m.natAbs := Int.natAbs_pos.mpr hm
  have hbits : m.natAbs.log2 < 64 := (Nat.log2_lt (by omega)).mpr hrange
  have hlog : (m.natAbs * unitsPerOne).log2 = 52 + (m.natAbs.log2 + 1022) := by
    rw [log2_mul_unitsPerOne hpos]
    omega
  rw [Nat.mul_left_comm]
  exact encloses_roundMagnitude hlog (by omega) (by omega)

end Binary64

namespace Num

variable {a b : Num}

/-- **An integer is written as a double is only if the double is the one nearest to it.** -/
theorem eq_ofInt_of_text_eq {m : Int} {x : Binary64} (hm : InRange (.int m))
    (hx : x.isFinite = true) (h : (Num.int m).text = x.text) : x = .ofInt m := by
  rcases eq_or_ne m 0 with rfl | hne
  · have htext : x.text = Binary64.text ⟨false, 0⟩ := h.symm.trans (Binary64.text_zero false).symm
    rw [Binary64.ofInt_zero]
    exact (Binary64.text_inj hx rfl).mp htext
  · have hrange : m.natAbs < Nat.pow 2 64 := by
      obtain ⟨hlow, hhigh⟩ := hm
      have hbound : 2 * exactBound = Nat.pow 2 64 := rfl
      have hhalf : exactBound ≤ Nat.pow 2 64 := by decide
      omega
    rw [text_int, Binary64.text_of_isFinite hx, String.ofList_inj, Binary64.signed_inj
      (Binary64.notMem_toDigits (by decide) _) (Binary64.minus_notMem_spell _)] at h
    obtain ⟨hsign, hdigits⟩ := h
    obtain ⟨hexponent, hvalue⟩ :=
      (Binary64.spell_eq_toDigits_iff _ (Int.natAbs_pos.mpr hne)).mp hdigits.symm
    have hplaces : (-(Binary64.shortest x.magnitude).exponent).toNat = 0 := by omega
    have hone : Nat.pow 10 0 = 1 := rfl
    have hself := Binary64.encloses_shortest x.magnitude
    rw [← Nat.mul_assoc, hvalue, hplaces, hone] at hself
    have hmagnitude := hself.unique (Binary64.encloses_ofInt hne hrange) Nat.one_pos
    obtain ⟨negative, magnitude⟩ := x
    have hnegative : negative = decide (m < 0) := by
      rw [Bool.eq_iff_iff, decide_eq_true_iff]
      exact hsign.symm
    rw [hnegative]
    exact congrArg (Binary64.mk _) hmagnitude

/-- **Numbers that are written alike are equal.** -/
theorem equal_of_text_eq (ha : a.InRange) (hb : b.InRange) (h : a.text = b.text) :
    a.equal b = true := by
  have hmixed : ∀ {m : Int} {x : Binary64}, InRange (.int m) → InRange (.float x) →
      (Num.int m).text = x.text → (Num.int m).equal (.float x) = true := by
    intro m x hm hx htext
    obtain rfl := eq_ofInt_of_text_eq hm hx htext
    exact (toBinary64_equal_iff hm hx).mpr rfl
  cases a with
  | int m =>
    cases b with
    | int n => exact equal_int.mpr (text_int_inj.mp h)
    | float y => exact hmixed ha hb h
  | float x =>
    cases b with
    | int n => exact equal_symm hb ha (hmixed hb ha h.symm)
    | float y =>
      rw [(Binary64.text_inj ha hb).mp h]
      exact equal_refl hb

end Num

end RecordQuery
