import RecordQuery.Proofs.Fuzzy.Range
import Mathlib.Data.List.Induction
import Mathlib.Data.List.Nodup

/-!
# The pairs behind the marks

The greedy matching walks through the left list, and every symbol takes the first free partner
within reach. It keeps the marks and forgets who took whom. The pairs bring that back: marks are the
positions that occur in them.

## What decides which pairs there are

Two positions *fit* if they hold the same symbol and are within reach of each other. The pairs that
a walk makes are *settled*: if two positions fit, then one of the two has a partner that is at least
as early as the other one. This says the same of both lists. And it leaves no choice: from the first
position of the left list on, the partner of each is forced by those of the positions before it. So
there is only one way to settle two lists, and a walk through the right list has to end in it too.

Nothing is said about the shape of the windows. They matter for how many pairs there are, not for
whose walk it is.

## Why there is only one way

Let two lists be settled in two ways, and let these agree on all positions of the left list before
`i`. If `i` has a partner `j` in the first one, then `i` and `j` fit, so in the second one, one of
them has a partner that is at least as early. If `j` has, this is `i` itself, since on earlier
positions the two ways agree. If `i` has one that is earlier than `j`, then this one and `i` fit,
and the first way would have settled the two differently: it is free there, and `i` would rather
have it. So strong induction on `i` proves that the pairs are the same. `Settled.mem_of_agree` is
one half of its step.

## Implementation notes

Pairs are kept in a list in the order in which the walk makes them, and a further pair is put behind
it. So the induction over a walk takes the left list apart at its end, while the walk itself goes on
from its head; `Similarity.markFrom_concat` goes from the one to the other. What stands behind a
prefix of the left list is then a symbol whose position is the length of the prefix.

`Settled` extends `Pairing`, and arguments that only count use the latter.

## Main definitions

* `Similarity.Fits` — positions that may be paired
* `Similarity.Pairing` — pairs of positions that fit, none of them used twice
* `Similarity.Settled` — pairs of which no two positions would rather have each other
* `Similarity.marks` — the marks that pairs leave on a list

## Main results

* `Similarity.Settled.concat_of_free`, `Similarity.Settled.concat_of_taken` — one step of a walk
* `Similarity.exists_settled` — a whole walk makes settled pairs and marks them
* `Similarity.Settled.mem_iff` — there is one way to settle two lists
* `Similarity.exists_settled_matching` — matches are counted as pairs
-/

namespace RecordQuery

namespace Similarity

variable {α : Type}

/-! ### Reach -/

theorem near_comm (reach : Int) (i j : Nat) : near reach i j = near reach j i :=
  Bool.and_comm _ _

theorem reach_comm (left right : List α) : reach left right = reach right left := by
  rw [reach, reach, Nat.max_comm]

/-! ### Settled pairs -/

/-- Two positions may be paired: they hold the same symbol and are within reach of each other. -/
def Fits (reach : Int) (left right : List α) (i j : Nat) : Prop :=
  near reach i j = true ∧ ∃ c, left[i]? = some c ∧ right[j]? = some c

/-- Two positions fit if they hold the same symbol and are at most half the longer length, less one,
apart. -/
theorem fits_reach_iff {left right : List α} {i j : Nat} :
    Fits (reach left right) left right i j
      ↔ ∃ c, left[i]? = some c ∧ right[j]? = some c
        ∧ |(i : Int) - j| ≤ ((max left.length right.length / 2 : Nat) : Int) - 1 := by
  have hnear : near (reach left right) i j = true
      ↔ |(i : Int) - j| ≤ ((max left.length right.length / 2 : Nat) : Int) - 1 := by
    rw [near, Bool.and_eq_true, decide_eq_true_iff, decide_eq_true_iff, abs_le, reach]
    omega
  rw [Fits, hnear]
  constructor
  · rintro ⟨hle, c, hleft, hright⟩
    exact ⟨c, hleft, hright, hle⟩
  · rintro ⟨c, hleft, hright, hle⟩
    exact ⟨hle, c, hleft, hright⟩

/-- Pairs of positions that fit, each position used at most once. -/
structure Pairing (reach : Int) (left right : List α) (pairs : List (Nat × Nat)) : Prop where
  /-- Paired positions fit. -/
  fits : ∀ pair ∈ pairs, Fits reach left right pair.1 pair.2
  /-- No position of the left list is used twice. -/
  left_nodup : (pairs.map Prod.fst).Nodup
  /-- No position of the right list is used twice. -/
  right_nodup : (pairs.map Prod.snd).Nodup

/-- A pairing in which no two positions that fit would rather have each other: one of them has a
partner that is at least as early. -/
structure Settled (reach : Int) (left right : List α) (pairs : List (Nat × Nat)) : Prop
    extends Pairing reach left right pairs where
  /-- If two positions fit, then one of them has a partner that is at least as early as the
  other. -/
  settled : ∀ i j, Fits reach left right i j →
    (∃ j' ≤ j, (i, j') ∈ pairs) ∨ ∃ i' ≤ i, (i', j) ∈ pairs

theorem Fits.swap {reach : Int} {left right : List α} {i j : Nat} (h : Fits reach left right i j) :
    Fits reach right left j i := by
  obtain ⟨hnear, c, hleft, hright⟩ := h
  exact ⟨near_comm reach i j ▸ hnear, c, hright, hleft⟩

theorem mem_map_swap {pairs : List (Nat × Nat)} {i j : Nat} :
    (j, i) ∈ pairs.map Prod.swap ↔ (i, j) ∈ pairs := by
  rw [List.mem_map_of_involutive Prod.swap_swap]
  rfl

namespace Pairing

variable {reach : Int} {left right : List α} {pairs : List (Nat × Nat)} {i i' j j' : Nat}

theorem right_unique (h : Pairing reach left right pairs) (hj : (i, j) ∈ pairs)
    (hj' : (i, j') ∈ pairs) : j = j' :=
  congrArg Prod.snd (List.inj_on_of_nodup_map h.left_nodup hj hj' rfl)

theorem left_unique (h : Pairing reach left right pairs) (hi : (i, j) ∈ pairs)
    (hi' : (i', j) ∈ pairs) : i = i' :=
  congrArg Prod.fst (List.inj_on_of_nodup_map h.right_nodup hi hi' rfl)

end Pairing

namespace Settled

variable {reach : Int} {left right : List α} {pairs pairs' : List (Nat × Nat)}

/-- **Settled pairs look the same from both sides.** -/
theorem swap (h : Settled reach left right pairs) :
    Settled reach right left (pairs.map Prod.swap) where
  fits := by
    rintro ⟨j, i⟩ hpair
    exact (h.fits (i, j) (mem_map_swap.mp hpair)).swap
  left_nodup := by
    rw [List.map_map]
    exact h.right_nodup
  right_nodup := by
    rw [List.map_map]
    exact h.left_nodup
  settled j i hfits := by
    simp only [mem_map_swap]
    exact (h.settled i j hfits.swap).symm

/-- A pair is in any other settled pairs, if these agree on all earlier positions of the left
list. -/
theorem mem_of_agree (h : Settled reach left right pairs) (h' : Settled reach left right pairs')
    {i j : Nat} (hagree : ∀ i' < i, ∀ j', (i', j') ∈ pairs ↔ (i', j') ∈ pairs')
    (hpair : (i, j) ∈ pairs) : (i, j) ∈ pairs' := by
  rcases h'.settled i j (h.fits (i, j) hpair) with ⟨j', hle, hpair'⟩ | ⟨i', hle, hpair'⟩
  · rcases Nat.eq_or_lt_of_le hle with rfl | hlt
    · exact hpair'
    -- the position has an earlier partner there, which is free here
    · rcases h.settled i j' (h'.fits (i, j') hpair') with ⟨j'', hle', hpair''⟩ | ⟨i', hle', hpair''⟩
      · have heq : j'' = j := h.toPairing.right_unique hpair'' hpair
        omega
      · rcases Nat.eq_or_lt_of_le hle' with rfl | hlt'
        · have heq : j' = j := h.toPairing.right_unique hpair'' hpair
          omega
        · have heq : i' = i := h'.toPairing.left_unique ((hagree i' hlt' j').mp hpair'') hpair'
          omega
  · rcases Nat.eq_or_lt_of_le hle with rfl | hlt
    · exact hpair'
    · have heq : i' = i := h.toPairing.left_unique ((hagree i' hlt j).mpr hpair') hpair
      omega

/-- **There is one way to settle two lists.** -/
theorem mem_iff (h : Settled reach left right pairs) (h' : Settled reach left right pairs')
    (i j : Nat) : (i, j) ∈ pairs ↔ (i, j) ∈ pairs' := by
  induction i using Nat.strong_induction_on generalizing j with
  | _ i ih =>
    exact ⟨h.mem_of_agree h' ih, h'.mem_of_agree h fun i' hlt j' => (ih i' hlt j').symm⟩

end Settled

/-! ### Marks at positions -/

/-- A list with marks at the given positions. -/
def marks (symbols : List α) (positions : List Nat) : Marked α :=
  symbols.mapIdx fun i c => (c, decide (i ∈ positions))

theorem marks_nil (symbols : List α) : marks symbols [] = symbols.map (·, false) := by
  refine List.ext_getElem? fun i => ?_
  simp [marks]

theorem marks_congr (symbols : List α) {positions positions' : List Nat}
    (h : ∀ i, i ∈ positions ↔ i ∈ positions') :
    marks symbols positions = marks symbols positions' := by
  simp only [marks, h]

theorem getElem?_marks (symbols : List α) (positions : List Nat) (i : Nat) :
    (marks symbols positions)[i]? = symbols[i]?.map fun c => (c, decide (i ∈ positions)) :=
  List.getElem?_mapIdx

theorem getElem?_marks_eq_unmarked {symbols : List α} {positions : List Nat} {i : Nat} {c : α} :
    (marks symbols positions)[i]? = some (c, false) ↔ symbols[i]? = some c ∧ i ∉ positions := by
  rw [getElem?_marks, Option.map_eq_some_iff]
  simp

theorem marks_concat (symbols : List α) (c : α) (positions : List Nat) :
    marks (symbols ++ [c]) positions
      = marks symbols positions ++ [(c, decide (symbols.length ∈ positions))] :=
  List.mapIdx_concat

theorem set_marks {symbols : List α} {positions : List Nat} {j : Nat} {c : α}
    (h : symbols[j]? = some c) :
    (marks symbols positions).set j (c, true) = marks symbols (positions ++ [j]) := by
  refine List.ext_getElem? fun i => ?_
  obtain ⟨hlt, -⟩ := List.getElem?_eq_some_iff.mp h
  have hlength : j < (marks symbols positions).length := by rwa [marks, List.length_mapIdx]
  rw [List.getElem?_set, getElem?_marks, getElem?_marks]
  by_cases hij : j = i
  · subst hij
    simp [hlength, h]
  · simp [hij, Ne.symm hij]

theorem marks_concat_of_length_le {symbols : List α} {positions : List Nat} {i : Nat}
    (h : symbols.length ≤ i) : marks symbols (positions ++ [i]) = marks symbols positions := by
  refine List.ext_getElem? fun k => ?_
  rw [getElem?_marks, getElem?_marks]
  by_cases hk : k < symbols.length
  · have hne : k ≠ i := by omega
    simp [hne]
  · simp [List.getElem?_eq_none (Nat.le_of_not_lt hk)]

theorem markCount_marks {symbols : List α} {positions : List Nat} (hnodup : positions.Nodup)
    (hlt : ∀ i ∈ positions, i < symbols.length) :
    markCount (marks symbols positions) = positions.length := by
  have hflags : (marks symbols positions).map Prod.snd
      = (List.range symbols.length).map fun i => decide (i ∈ positions) := by
    refine List.ext_getElem? fun i => ?_
    rw [List.getElem?_map, getElem?_marks, List.getElem?_map]
    by_cases h : i < symbols.length <;> simp [h]
  have hsame : ((List.range symbols.length).filter fun i => decide (i ∈ positions)).Perm
      positions := by
    rw [List.perm_ext_iff_of_nodup (List.nodup_range.filter _) hnodup]
    intro i
    simp only [List.mem_filter, List.mem_range, decide_eq_true_eq]
    exact and_iff_right_of_imp (hlt i)
  calc markCount (marks symbols positions)
      = ((marks symbols positions).map Prod.snd).countP id := by
        rw [List.countP_map]
        rfl
    _ = (List.range symbols.length).countP fun i => decide (i ∈ positions) := by
        rw [hflags, List.countP_map]
        rfl
    _ = positions.length := by rw [List.countP_eq_length_filter, hsame.length_eq]

/-! ### One step of a walk -/

section Step

variable [DecidableEq α] {reach : Int} {i j : Nat} {c : α} {right marked : Marked α}

/-- A symbol without a partner has found all that are within reach taken. -/
theorem near_of_mark?_eq_none (h : mark? reach i c j right = none) {k : Nat}
    (hk : right[k]? = some (c, false)) : near reach i (j + k) = false := by
  induction right generalizing j k with
  | nil => cases hk
  | cons entry rest ih =>
    obtain ⟨d, used⟩ := entry
    rw [mark?] at h
    split at h
    · cases h
    · next hfirst =>
      cases k with
      | zero =>
        obtain ⟨rfl, rfl⟩ : d = c ∧ used = false := by simpa using hk
        simpa using hfirst
      | succ k =>
        rw [← Nat.succ_add_eq_add_succ]
        exact ih (Option.map_eq_none_iff.mp h) hk

/-- A symbol takes the first free partner within reach. -/
theorem exists_of_mark?_eq_some (h : mark? reach i c j right = some marked) :
    ∃ k, right[k]? = some (c, false) ∧ near reach i (j + k) = true
      ∧ (∀ l < k, right[l]? = some (c, false) → near reach i (j + l) = false)
      ∧ marked = right.set k (c, true) := by
  induction right generalizing j marked with
  | nil => cases h
  | cons entry rest ih =>
    obtain ⟨d, used⟩ := entry
    rw [mark?] at h
    split at h
    · next hfirst =>
      obtain ⟨⟨hnear, rfl⟩, rfl⟩ : (near reach i j = true ∧ used = false) ∧ d = c := by
        simpa using hfirst
      cases h
      exact ⟨0, rfl, hnear, fun l hl => absurd hl (Nat.not_lt_zero l), rfl⟩
    · next hfirst =>
      obtain ⟨marked', hmarked, rfl⟩ := Option.map_eq_some_iff.mp h
      obtain ⟨k, hfree, hnear, hearlier, rfl⟩ := ih hmarked
      refine ⟨k + 1, hfree, by rwa [← Nat.succ_add_eq_add_succ], fun l hl hl' => ?_, rfl⟩
      cases l with
      | zero =>
        obtain ⟨rfl, rfl⟩ : d = c ∧ used = false := by simpa using hl'
        simpa using hfirst
      | succ l =>
        rw [← Nat.succ_add_eq_add_succ]
        exact hearlier l (Nat.lt_of_succ_lt_succ hl) hl'

/-- A walk over one more symbol is a walk and one step. -/
theorem markFrom_concat (reach : Int) (i : Nat) (left : List α) (c : α) (right : Marked α) :
    markFrom reach i (left ++ [c]) right =
      let (left', right') := markFrom reach i left right
      match mark? reach (i + left.length) c 0 right' with
      | none => (left' ++ [(c, false)], right')
      | some marked => (left' ++ [(c, true)], marked) := by
  induction left generalizing i right with
  | nil =>
    cases hmark : mark? reach i c 0 right <;> simp [markFrom, hmark]
  | cons d left ih =>
    have hposition : i + (d :: left).length = i + 1 + left.length := by
      rw [List.length_cons]
      omega
    rw [List.cons_append, markFrom, markFrom, hposition]
    cases mark? reach i d 0 right with
    | none =>
      simp only [ih]
      cases mark? reach (i + 1 + left.length) c 0 (markFrom reach (i + 1) left right).2 <;> rfl
    | some marked =>
      simp only [ih]
      cases mark? reach (i + 1 + left.length) c 0 (markFrom reach (i + 1) left marked).2 <;> rfl

end Step

/-! ### A whole walk -/

theorem Fits.lt_length {reach : Int} {left right : List α} {i j : Nat}
    (h : Fits reach left right i j) : i < left.length := by
  obtain ⟨-, c, hleft, -⟩ := h
  exact (List.getElem?_eq_some_iff.mp hleft).1

theorem fits_concat_of_lt {reach : Int} {left right : List α} {c : α} {i j : Nat}
    (h : i < left.length) : Fits reach (left ++ [c]) right i j ↔ Fits reach left right i j := by
  rw [Fits, Fits, List.getElem?_append_left h]

theorem fits_concat_length {reach : Int} {left right : List α} {c : α} {j : Nat} :
    Fits reach (left ++ [c]) right left.length j
      ↔ near reach left.length j = true ∧ right[j]? = some c := by
  simp [Fits]

namespace Settled

variable {reach : Int} {left right : List α} {pairs : List (Nat × Nat)} {c : α}

theorem nil (reach : Int) (right : List α) : Settled reach [] right [] where
  fits := List.forall_mem_nil _
  left_nodup := List.nodup_nil
  right_nodup := List.nodup_nil
  settled _ _ hfits := absurd hfits.lt_length (Nat.not_lt_zero _)

theorem length_notMem (h : Settled reach left right pairs) :
    left.length ∉ pairs.map Prod.fst := by
  intro hmem
  obtain ⟨pair, hpair, hlength⟩ := List.mem_map.mp hmem
  exact (h.fits pair hpair).lt_length.ne hlength

/-- The positions that fit by now are those that fitted before and those of the further symbol. -/
theorem cases_concat {i j : Nat} (h : Fits reach (left ++ [c]) right i j) :
    Fits reach left right i j ∨ i = left.length := by
  have hlt := h.lt_length
  rw [List.length_append, List.length_singleton, Nat.lt_succ_iff_lt_or_eq] at hlt
  exact hlt.imp_left fun hlt => (fits_concat_of_lt hlt).mp h

/-- **A further symbol stays alone** if all positions that it fits are taken. -/
theorem concat_of_taken (h : Settled reach left right pairs)
    (htaken : ∀ j, Fits reach (left ++ [c]) right left.length j → j ∈ pairs.map Prod.snd) :
    Settled reach (left ++ [c]) right pairs where
  fits pair hpair := (fits_concat_of_lt (h.fits pair hpair).lt_length).mpr (h.fits pair hpair)
  left_nodup := h.left_nodup
  right_nodup := h.right_nodup
  settled i j hfits := by
    rcases cases_concat hfits with hfits' | rfl
    · exact h.settled i j hfits'
    · obtain ⟨⟨i', _⟩, hpair, rfl⟩ := List.mem_map.mp (htaken j hfits)
      exact .inr ⟨i', (h.fits _ hpair).lt_length.le, hpair⟩

/-- **A further symbol takes the first free position** of those that it fits. -/
theorem concat_of_free (h : Settled reach left right pairs) {j : Nat}
    (hfits : Fits reach (left ++ [c]) right left.length j) (hfree : j ∉ pairs.map Prod.snd)
    (hearlier : ∀ j' < j, Fits reach (left ++ [c]) right left.length j' →
      j' ∈ pairs.map Prod.snd) :
    Settled reach (left ++ [c]) right (pairs ++ [(left.length, j)]) where
  fits := by
    rw [List.forall_mem_append, List.forall_mem_singleton]
    exact ⟨fun pair hpair =>
      (fits_concat_of_lt (h.fits pair hpair).lt_length).mpr (h.fits pair hpair), hfits⟩
  left_nodup := by
    rw [List.map_append, List.map_singleton, ← List.concat_eq_append]
    exact h.left_nodup.concat h.length_notMem
  right_nodup := by
    rw [List.map_append, List.map_singleton, ← List.concat_eq_append]
    exact h.right_nodup.concat hfree
  settled i j' hfits' := by
    simp only [List.mem_append, List.mem_singleton, Prod.mk.injEq]
    rcases cases_concat hfits' with hold | rfl
    · rcases h.settled i j' hold with ⟨j'', hle, hpair⟩ | ⟨i', hle, hpair⟩
      · exact .inl ⟨j'', hle, .inl hpair⟩
      · exact .inr ⟨i', hle, .inl hpair⟩
    · rcases Nat.lt_or_ge j' j with hlt | hge
      · obtain ⟨⟨i', _⟩, hpair, rfl⟩ := List.mem_map.mp (hearlier j' hlt hfits')
        exact .inr ⟨i', (h.fits _ hpair).lt_length.le, .inl hpair⟩
      · exact .inl ⟨j, hge, .inr ⟨rfl, rfl⟩⟩

end Settled

/-- **A walk settles the lists it has seen**, and marks the positions of its pairs. -/
theorem exists_settled [DecidableEq α] (reach : Int) (left right : List α) :
    ∃ pairs, Settled reach left right pairs
      ∧ markFrom reach 0 left (right.map (·, false))
        = (marks left (pairs.map Prod.fst), marks right (pairs.map Prod.snd)) := by
  induction left using List.reverseRecOn with
  | nil =>
    refine ⟨[], Settled.nil reach right, ?_⟩
    rw [List.map_nil, List.map_nil, marks_nil right]
    rfl
  | append_singleton left c ih =>
    obtain ⟨pairs, hsettled, hmarks⟩ := ih
    have hbehind := hsettled.length_notMem
    rw [markFrom_concat, hmarks, Nat.zero_add]
    cases hmark : mark? reach left.length c 0 (marks right (pairs.map Prod.snd)) with
    | none =>
      refine ⟨pairs, hsettled.concat_of_taken fun j hfits => ?_, ?_⟩
      · obtain ⟨hnear, hc⟩ := fits_concat_length.mp hfits
        by_contra hfree
        have hfar := near_of_mark?_eq_none hmark (getElem?_marks_eq_unmarked.mpr ⟨hc, hfree⟩)
        rw [Nat.zero_add, hnear] at hfar
        cases hfar
      · simp [hmark, marks_concat, hbehind]
    | some marked =>
      obtain ⟨j, hj, hnear, hearlier, rfl⟩ := exists_of_mark?_eq_some hmark
      rw [Nat.zero_add] at hnear
      obtain ⟨hc, hfree⟩ := getElem?_marks_eq_unmarked.mp hj
      refine ⟨pairs ++ [(left.length, j)],
        hsettled.concat_of_free (fits_concat_length.mpr ⟨hnear, hc⟩) hfree ?_, ?_⟩
      · intro j' hlt hfits
        obtain ⟨hnear', hc'⟩ := fits_concat_length.mp hfits
        by_contra hfree'
        have hfar := hearlier j' hlt (getElem?_marks_eq_unmarked.mpr ⟨hc', hfree'⟩)
        rw [Nat.zero_add, hnear'] at hfar
        cases hfar
      · simp only [hmark]
        rw [List.map_append, List.map_append, List.map_singleton, List.map_singleton, set_marks hc,
          marks_concat, marks_concat_of_length_le le_rfl]
        simp

/-- The matching of two lists counts the pairs of a settled pairing. -/
theorem exists_settled_matching [DecidableEq α] (left right : List α) :
    ∃ pairs, Settled (reach left right) left right pairs
      ∧ markCount (matching left right).1 = pairs.length := by
  obtain ⟨pairs, hsettled, hmarks⟩ := exists_settled (reach left right) left right
  refine ⟨pairs, hsettled, ?_⟩
  rw [matching, hmarks, markCount_marks hsettled.left_nodup, List.length_map]
  intro i hi
  obtain ⟨pair, hpair, rfl⟩ := List.mem_map.mp hi
  exact (hsettled.fits pair hpair).lt_length

end Similarity

end RecordQuery
