import RecordQuery.Proofs.Numbers.Equality

/-!
# Strict equality

Two values are strictly equal if they are numbers of equal value, or else identical. Identity looks
at values from the top down and takes `1` and `1.0` apart, so it is only at the top that numbers
are compared by value.

Identity is an equivalence. Equality inherits that up to the one way in which the equality of
numbers fails to be transitive: a double may stand equal to two integers that differ.

## What may come from outside

A double that is no number does not equal itself, and integers have 64 bits, with sign or without.
`Value.InRange` says that a value has no numbers but those that can come from outside, at any depth.
Reflexivity needs it for doubles. The other laws ask for it as well, since equality goes through
doubles, and larger integers are not considered there.

## The exception

A chain of two equalities fails to close only at the top and only among numbers: two integers that
differ may both equal the double on which they fall. If all three are integers, or all three
doubles, nothing can happen, since each kind by itself is compared exactly. This is why the
exception is stated with a double in the middle, and as an equivalence.

## Implementation notes

Identity goes through items and fields in loops of its own. They are turned into `List.Forall₂`
first, and then the laws are proved by induction on `Value.InRange`, which has a hypothesis for each
item and each field. So the recursion of `Value.identical` is unfolded once per constructor
(`identical_arr_iff`, `identical_obj_iff`) and not once per law.

## Main definitions

* `Value.InRange` — the values that come from outside
* `Value.SameForm` — not an integer on one side and a double on the other

## Main results

* `identical_iff` — identical values are equal and of one form
* `equal_refl_symm_trans` — the laws of equality
-/

namespace RecordQuery

/-- Two lists that are related pointwise, by a relation that may look at where the first values
come from. -/
theorem forall₂_imp_mem {α β : Type} {R S : α → β → Prop} {xs : List α} {ys : List β}
    (h : List.Forall₂ R xs ys) (himp : ∀ x ∈ xs, ∀ y, R x y → S x y) : List.Forall₂ S xs ys := by
  induction h with
  | nil => exact .nil
  | cons hxy _ ih =>
    obtain ⟨hx, hxs⟩ := List.forall_mem_cons.mp himp
    exact .cons (hx _ hxy) (ih hxs)

namespace Value

/-- All numbers in the value, at any depth, are of those that come from outside. -/
inductive InRange : Value → Prop
  | null : InRange .null
  | bool (b : Bool) : InRange (.bool b)
  | num {n : Num} (h : n.InRange) : InRange (.num n)
  | str (s : String) : InRange (.str s)
  | arr {items : List Value} (h : ∀ v ∈ items, InRange v) : InRange (.arr items)
  | obj {fields : List (String × Value)} (h : ∀ entry ∈ fields, InRange entry.2) :
      InRange (.obj fields)

theorem InRange.of_num {n : Num} : InRange (.num n) → n.InRange
  | .num h => h

theorem InRange.of_arr {items : List Value} : InRange (.arr items) → ∀ v ∈ items, v.InRange
  | .arr h => h

theorem InRange.of_obj {fields : Entries Value} :
    InRange (.obj fields) → ∀ entry ∈ fields, entry.2.InRange
  | .obj h => h

/-- Neither of the two is an integer where the other is a double. -/
def SameForm : Value → Value → Prop
  | .num a, .num b => a.SameForm b
  | _, _ => True

variable {a b c : Value}

/-! ### Identity -/

section

attribute [local simp] identical identicalItems identicalFields

theorem identicalItems_iff {as bs : List Value} :
    identicalItems as bs = true ↔ List.Forall₂ (fun a b => identical a b = true) as bs := by
  induction as generalizing bs with
  | nil => cases bs <;> simp
  | cons a as ih => cases bs <;> simp [ih]

theorem identicalFields_iff {fs gs : List (String × Value)} :
    identicalFields fs gs = true
      ↔ List.Forall₂ (fun f g => f.1 = g.1 ∧ identical f.2 g.2 = true) fs gs := by
  induction fs generalizing gs with
  | nil => cases gs <;> simp
  | cons f fs ih => cases gs <;> simp [ih, and_assoc]

theorem identical_null_iff : identical .null b = true ↔ .null = b := by
  cases b <;> simp

theorem identical_bool_iff {p : Bool} : identical (.bool p) b = true ↔ .bool p = b := by
  cases b <;> simp

theorem identical_str_iff {s : String} : identical (.str s) b = true ↔ .str s = b := by
  cases b <;> simp

theorem identical_num_iff {m : Num} :
    identical (.num m) b = true ↔ ∃ n, b = .num n ∧ m.identical n = true := by
  cases b <;> simp

theorem identical_arr_iff {as : List Value} :
    identical (.arr as) b = true
      ↔ ∃ bs, b = .arr bs ∧ List.Forall₂ (fun a b => identical a b = true) as bs := by
  cases b <;> simp [identicalItems_iff]

theorem identical_obj_iff {fs : List (String × Value)} :
    identical (.obj fs) b = true
      ↔ ∃ gs, b = .obj gs
        ∧ List.Forall₂ (fun f g => f.1 = g.1 ∧ identical f.2 g.2 = true) fs gs := by
  cases b <;> simp [identicalFields_iff]

end

theorem identical_refl (ha : a.InRange) : identical a a = true := by
  induction ha with
  | null => exact identical_null_iff.mpr rfl
  | bool p => exact identical_bool_iff.mpr rfl
  | str s => exact identical_str_iff.mpr rfl
  | @num n h =>
    have hform : n.SameForm n := by cases n <;> trivial
    exact identical_num_iff.mpr ⟨n, rfl, Num.identical_iff.mpr ⟨Num.equal_refl h, hform⟩⟩
  | @arr items _ ih => exact identical_arr_iff.mpr ⟨items, rfl, List.forall₂_same.mpr ih⟩
  | @obj fields _ ih =>
    exact identical_obj_iff.mpr ⟨fields, rfl, List.forall₂_same.mpr fun f hf => ⟨rfl, ih f hf⟩⟩

theorem identical_symm (ha : a.InRange) (h : identical a b = true) : identical b a = true := by
  induction ha generalizing b with
  | null => obtain rfl := identical_null_iff.mp h; exact h
  | bool p => obtain rfl := identical_bool_iff.mp h; exact h
  | str s => obtain rfl := identical_str_iff.mp h; exact h
  | num =>
    obtain ⟨n, rfl, hn⟩ := identical_num_iff.mp h
    exact identical_num_iff.mpr ⟨_, rfl, Num.identical_symm hn⟩
  | arr _ ih =>
    obtain ⟨bs, rfl, hbs⟩ := identical_arr_iff.mp h
    have hflip := forall₂_imp_mem (S := fun v w => identical w v = true) hbs
      fun v hv w hvw => ih v hv hvw
    exact identical_arr_iff.mpr ⟨_, rfl, hflip.flip⟩
  | obj _ ih =>
    obtain ⟨gs, rfl, hgs⟩ := identical_obj_iff.mp h
    have hflip := forall₂_imp_mem (S := fun f g => g.1 = f.1 ∧ identical g.2 f.2 = true) hgs
      fun f hf g hfg => ⟨hfg.1.symm, ih f hf hfg.2⟩
    exact identical_obj_iff.mpr ⟨_, rfl, hflip.flip⟩

theorem identical_trans (ha : a.InRange) (hab : identical a b = true)
    (hbc : identical b c = true) : identical a c = true := by
  induction ha generalizing b c with
  | null => rwa [← identical_null_iff.mp hab] at hbc
  | bool p => rwa [← identical_bool_iff.mp hab] at hbc
  | str s => rwa [← identical_str_iff.mp hab] at hbc
  | num =>
    obtain ⟨n, rfl, hn⟩ := identical_num_iff.mp hab
    obtain ⟨k, rfl, hk⟩ := identical_num_iff.mp hbc
    exact identical_num_iff.mpr ⟨k, rfl, Num.identical_trans hn hk⟩
  | arr _ ih =>
    obtain ⟨bs, rfl, hbs⟩ := identical_arr_iff.mp hab
    obtain ⟨cs, rfl, hcs⟩ := identical_arr_iff.mp hbc
    refine identical_arr_iff.mpr ⟨cs, rfl, ?_⟩
    refine forall₂_imp_mem (forall₂_comp_iff.mp ⟨bs, hbs, hcs⟩) ?_
    rintro v hv w ⟨u, hvu, huw⟩
    exact ih v hv hvu huw
  | obj _ ih =>
    obtain ⟨gs, rfl, hgs⟩ := identical_obj_iff.mp hab
    obtain ⟨hs, rfl, hhs⟩ := identical_obj_iff.mp hbc
    refine identical_obj_iff.mpr ⟨hs, rfl, ?_⟩
    refine forall₂_imp_mem (forall₂_comp_iff.mp ⟨gs, hgs, hhs⟩) ?_
    rintro f hf h ⟨g, ⟨hfg, hvfg⟩, hgh, hvgh⟩
    exact ⟨hfg.trans hgh, ih f hf hvfg hvgh⟩

/-- **Identical values are equal values of one form.** -/
theorem identical_iff : identical a b = true ↔ equal a b = true ∧ SameForm a b := by
  cases a <;> cases b <;>
    first | exact Num.identical_iff | exact (and_iff_left trivial).symm

/-! ### The laws of equality -/

theorem equal_num {m n : Num} : equal (.num m) (.num n) = m.equal n := rfl

theorem equal_of_not_number (h : a.kind ≠ .number) : equal a b = identical a b := by
  cases a <;> first | rfl | exact absurd rfl h

/-- Equal values are equal numbers, or else identical. -/
theorem equal_cases (h : equal a b = true) :
    (∃ m n, a = .num m ∧ b = .num n ∧ m.equal n = true)
      ∨ a.kind ≠ .number ∧ b.kind ≠ .number ∧ identical a b = true := by
  cases a <;> cases b <;>
    first
    | exact .inl ⟨_, _, rfl, rfl, h⟩
    | exact .inr ⟨Kind.noConfusion, Kind.noConfusion, h⟩
    | cases h

theorem equal_of_identical (h : identical a b = true) : equal a b = true :=
  (identical_iff.mp h).1

theorem equal_refl (ha : a.InRange) : equal a a = true := equal_of_identical (identical_refl ha)

theorem equal_symm (ha : a.InRange) (hb : b.InRange) (h : equal a b = true) :
    equal b a = true := by
  rcases equal_cases h with ⟨m, n, rfl, rfl, hmn⟩ | ⟨-, -, hab⟩
  · exact Num.equal_symm ha.of_num hb.of_num hmn
  · exact equal_of_identical (identical_symm ha hab)

/-- **Strict equality is reflexive and symmetric. It is transitive except across a double: two
integers that collide there are equal to it and not to each other.** -/
theorem equal_refl_symm_trans (ha : a.InRange) (hb : b.InRange) (hc : c.InRange) :
    equal a a = true
      ∧ (equal a b = true ↔ equal b a = true)
      ∧ (equal a b = true → equal b c = true →
        (equal a c = false ↔ ∃ m x n, a = .int m ∧ b = .num (.float x) ∧ c = .int n
          ∧ Num.Collide m n)) := by
  refine ⟨equal_refl ha, ⟨equal_symm ha hb, equal_symm hb ha⟩, fun hab hbc => ?_⟩
  rcases equal_cases hab with ⟨m, k, rfl, rfl, hmk⟩ | ⟨hnum, hnum', hab⟩
  · rcases equal_cases hbc with ⟨_, n, ⟨⟩, rfl, hkn⟩ | ⟨hnum, -, -⟩
    · rw [equal_num, Num.equal_eq_false_iff ha.of_num hb.of_num hc.of_num hmk hkn]
      simp only [int, num.injEq]
    · exact absurd rfl hnum
  · rcases equal_cases hbc with ⟨k, n, rfl, rfl, hkn⟩ | ⟨-, -, hbc⟩
    · exact absurd rfl hnum'
    · have hac : equal a c = true := equal_of_identical (identical_trans ha hab hbc)
      rw [hac]
      constructor
      · nofun
      · rintro ⟨m, x, n, rfl, -⟩
        exact absurd rfl hnum

/-- The double `2 ^ 64` equals the integers `2 ^ 64 - 1` and `2 ^ 64 - 2`, which differ. -/
theorem equal_refl_symm_trans_top_of_range :
    let x : Binary64 := .ofInt 18446744073709551616
    equal (.int 18446744073709551615) (.num (.float x)) = true
      ∧ equal (.num (.float x)) (.int 18446744073709551614) = true
      ∧ equal (.int 18446744073709551615) (.int 18446744073709551614) = false := by
  intro x
  have ha : InRange (.int 18446744073709551615) := .num (by decide)
  have hb : InRange (.num (.float x)) := .num (by decide +kernel)
  have hc : InRange (.int 18446744073709551614) := .num (by decide)
  have hab : equal (.int 18446744073709551615) (.num (.float x)) = true := by decide +kernel
  have hbc : equal (.num (.float x)) (.int 18446744073709551614) = true := by decide +kernel
  have hcollide : Num.Collide 18446744073709551615 18446744073709551614 :=
    ⟨by decide, by decide +kernel⟩
  exact ⟨hab, hbc, ((equal_refl_symm_trans ha hb hc).2.2 hab hbc).mpr
    ⟨_, _, _, rfl, rfl, rfl, hcollide⟩⟩

/-- Equality is not transitive: the double `2 ^ 53` equals `2 ^ 53 + 1` and `2 ^ 53`. -/
theorem equal_not_trans :
    ¬ ∀ a b c : Value, a.InRange → b.InRange → c.InRange →
      equal a b = true → equal b c = true → equal a c = true := by
  intro h
  have hac := h (.int 9007199254740993) (.num (.float (.ofInt 9007199254740992)))
    (.int 9007199254740992) (.num (by decide)) (.num (by decide +kernel)) (.num (by decide))
    (by decide +kernel) (by decide +kernel)
  exact absurd hac (by decide)

end Value

end RecordQuery
