import RecordQuery.Similarity
import Mathlib.Tactic.Linarith
import Mathlib.Tactic.NormNum
import Mathlib.Tactic.Positivity

/-!
# Bounds on matches and shares

A similarity is put together from counts. The greedy matching sets as many marks on the right as on
the left, so no list has more matches than symbols, and read in exact arithmetic none of the three
shares exceeds one. The bonus closes at most four tenths of the gap to one.

## Counts and shares

The bounds on counts hold of the marks alone and come by recursion over the walk. Each step either
marks one symbol on both sides or none. Nothing about who took whom is needed for them, and lists
may hold whatever can be compared.

The bounds on shares are about exact rational numbers. A share of matched symbols is a quotient of
counts. For a list that is not matched throughout, it is strictly below one, which is what keeps
lists that differ from being fully alike. The third share is that of the matches in order: two
symbols out of order count as one transposition, so at most half of it can be lost.

A quotient by zero is zero here. It does not come up in a score, since lists without matches have no
shares computed, but the bounds need not exclude it.

## Main results

* `Similarity.markCount_markFrom` — every match marks one symbol on either side
* `Similarity.markCount_matching_le_left`, `Similarity.markCount_matching_le_right` — no list has
  more matches than symbols
* `Similarity.weight_pos`, `Similarity.weight_lt_one` — the mean of the shares
* `Similarity.boosted_bounds` — the bonus leaves most of the gap to one
-/

namespace RecordQuery

namespace Similarity

variable {α : Type} [DecidableEq α]

/-! ### Marks -/

omit [DecidableEq α] in
theorem markCount_cons (c : α) (used : Bool) (rest : Marked α) :
    markCount ((c, used) :: rest) = markCount rest + used.toNat := by
  cases used with
  | false => exact List.countP_cons_of_neg Bool.false_ne_true
  | true => exact List.countP_cons_of_pos rfl

omit [DecidableEq α] in
theorem markCount_le_length (marked : Marked α) : markCount marked ≤ marked.length :=
  List.countP_le_length

omit [DecidableEq α] in
theorem markCount_unmarked (right : List α) : markCount (right.map (·, false)) = 0 := by
  rw [markCount, List.countP_map, List.countP_eq_zero]
  exact fun _ _ => Bool.false_ne_true

theorem markCount_mark? {reach : Int} {i j : Nat} {c : α} {right marked : Marked α}
    (h : mark? reach i c j right = some marked) : markCount marked = markCount right + 1 := by
  induction right generalizing j marked with
  | nil => cases h
  | cons entry rest ih =>
    obtain ⟨d, used⟩ := entry
    rw [mark?] at h
    split at h
    · next hfree =>
      have hunused : used = false := by simp_all
      cases h
      rw [markCount_cons, markCount_cons, hunused]
      rfl
    · obtain ⟨marked', hmarked, rfl⟩ := Option.map_eq_some_iff.mp h
      rw [markCount_cons, markCount_cons, ih hmarked]
      omega

/-- **Every match marks one symbol on either side.** -/
theorem markCount_markFrom (reach : Int) (i : Nat) (left : List α) (right : Marked α) :
    markCount (markFrom reach i left right).2
      = markCount right + markCount (markFrom reach i left right).1 := by
  induction left generalizing i right with
  | nil => rfl
  | cons c rest ih =>
    rw [markFrom]
    split
    · exact ih (i + 1) right
    · next marked hmarked =>
      show markCount (markFrom reach (i + 1) rest marked).2
        = markCount right + markCount ((c, true) :: (markFrom reach (i + 1) rest marked).1)
      rw [ih (i + 1) marked, markCount_mark? hmarked, markCount_cons, Bool.toNat_true]
      omega

theorem markCount_matching (left right : List α) :
    markCount (matching left right).2 = markCount (matching left right).1 := by
  rw [matching, markCount_markFrom, markCount_unmarked, Nat.zero_add]

theorem symbols_matching_fst (left right : List α) :
    (matching left right).1.map Prod.fst = left :=
  symbols_markFrom_fst _ _ _ _

theorem symbols_matching_snd (left right : List α) :
    (matching left right).2.map Prod.fst = right := by
  rw [matching, symbols_markFrom_snd, List.map_map]
  exact List.map_id right

theorem markCount_matching_le_left (left right : List α) :
    markCount (matching left right).1 ≤ left.length := by
  have hle := markCount_le_length (matching left right).1
  rwa [← List.length_map Prod.fst, symbols_matching_fst] at hle

theorem markCount_matching_le_right (left right : List α) :
    markCount (matching left right).1 ≤ right.length := by
  have hle := markCount_le_length (matching left right).2
  rwa [← List.length_map Prod.fst, symbols_matching_snd, markCount_matching] at hle

/-! ### The score -/

theorem weight_rat (k t left right : Nat) :
    weight Rat k t left right
      = ((k : ℚ) / left + (k : ℚ) / right + (k - (t : ℚ) / 2) / k) / 3 := rfl

theorem share_le_one {k length : Nat} (h : k ≤ length) : (k : ℚ) / length ≤ 1 :=
  div_le_one_of_le₀ (by exact_mod_cast h) (by positivity)

theorem share_lt_one {k length : Nat} (h : k < length) : (k : ℚ) / length < 1 := by
  have hlength : (0 : ℚ) < length := by exact_mod_cast Nat.zero_lt_of_lt h
  rw [div_lt_one hlength]
  exact_mod_cast h

theorem ordered_le_one (k t : Nat) : ((k : ℚ) - (t : ℚ) / 2) / k ≤ 1 := by
  refine div_le_one_of_le₀ ?_ (by positivity)
  have ht : (0 : ℚ) ≤ (t : ℚ) / 2 := by positivity
  linarith

/-- If some match is out of order, the share of those in order is not full. -/
theorem ordered_lt_one {k t : Nat} (hk : 0 < k) (ht : 0 < t) :
    ((k : ℚ) - (t : ℚ) / 2) / k < 1 := by
  have hk' : (0 : ℚ) < k := by exact_mod_cast hk
  have ht' : (0 : ℚ) < t := by exact_mod_cast ht
  rw [div_lt_one hk']
  linarith

/-- If at most all matches are out of order, half of them are left. -/
theorem ordered_pos {k t : Nat} (hk : 0 < k) (ht : t ≤ k) : 0 < ((k : ℚ) - (t : ℚ) / 2) / k := by
  have hk' : (0 : ℚ) < k := by exact_mod_cast hk
  have ht' : (t : ℚ) ≤ k := by exact_mod_cast ht
  exact div_pos (by linarith) hk'

/-- **A score is above zero** if there are matches. -/
theorem weight_pos {k t : Nat} (hk : 0 < k) (ht : t ≤ k) (left right : Nat) :
    0 < weight Rat k t left right := by
  have hl : (0 : ℚ) ≤ (k : ℚ) / left := by positivity
  have hr : (0 : ℚ) ≤ (k : ℚ) / right := by positivity
  have horder := ordered_pos hk ht
  rw [weight_rat]
  linarith

/-- **A score is below one** if one of the three shares is. -/
theorem weight_lt_one {k t left right : Nat} (hk : 0 < k) (hleft : k ≤ left) (hright : k ≤ right)
    (h : k < left ∨ k < right ∨ 0 < t) : weight Rat k t left right < 1 := by
  have hl := share_le_one hleft
  have hr := share_le_one hright
  have ht := ordered_le_one k t
  rw [weight_rat]
  rcases h with hlt | hlt | hlt
  · linarith [share_lt_one hlt]
  · linarith [share_lt_one hlt]
  · linarith [ordered_lt_one hk hlt]

theorem sharedStart_le (left right : List α) : sharedStart left right ≤ startLimit := by
  have hbegins := (List.takeWhile_sublist (fun cd : α × α => cd.1 == cd.2)
    (l := (left.zip right).take startLimit)).length_le
  exact hbegins.trans (List.length_take_le _ _)

/-- **The bonus closes at most four tenths of the gap to one.** -/
theorem boosted_bounds {score : Rat} {shared : Nat} (hscore : score ≤ 1)
    (hshared : shared ≤ startLimit) :
    score ≤ boosted Rat score shared ∧ boosted Rat score shared ≤ score + 0.4 * (1 - score) := by
  rw [boosted]
  split
  · show score ≤ score + shared * (0.1 : ℚ) * ((1 : Nat) - score)
      ∧ score + shared * (0.1 : ℚ) * ((1 : Nat) - score) ≤ _
    have hfour : (shared : ℚ) ≤ 4 := by exact_mod_cast hshared
    have hgap : (0 : ℚ) ≤ (shared : ℚ) * 0.1 * (1 - score) :=
      mul_nonneg (by positivity) (by linarith)
    have hgap' : (shared : ℚ) * 0.1 * (1 - score) ≤ 0.4 * (1 - score) := by
      refine mul_le_mul_of_nonneg_right ?_ (by linarith)
      linarith
    push_cast
    constructor <;> linarith
  · constructor <;> linarith

end Similarity

end RecordQuery
