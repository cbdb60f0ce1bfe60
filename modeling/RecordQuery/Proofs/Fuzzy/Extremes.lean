import RecordQuery.Proofs.Fuzzy.Loop
import RecordQuery.Proofs.Fuzzy.Symmetry

/-!
# What zero and one mean

In exact arithmetic, a similarity is one for equal lists that are not empty, and for no others. It
is zero if there is nothing to compare or nothing matches, and only then.

For lists that differ, but have a match, the score lies strictly in between. It is above zero since
at most all matches are out of order, which leaves half of them in the third share. It is below one
since one of three things holds: a list has a symbol without a match, or the other one has, or some
match is out of order. Otherwise the matched symbols would be all symbols of either list, in the
same order. The bonus leaves more than half of the gap to one.

## Where exact arithmetic is needed

That a score is *equal* to one, or above zero, is a statement about exact scores. In doubles, shares
that are not full may round to a mean that is. The counts below the score know nothing of this, and
so do the two loops: `Similarity.markCount_matching_eq_zero_iff`, `Similarity.transpositions_le` and
`Similarity.eq_of_all_in_order` are about lists and marks.

## Lists of one symbol

Half the longer length, less one, is minus one for lists of at most one symbol. Then no positions
are within reach, not even a position and itself. Equal lists do not notice, since they are not
matched at all. So the condition for zero has to say that the lists differ, and does so separately
from what is within reach.

## Main results

* `Similarity.markCount_matching_eq_zero_iff` — when nothing matches
* `Similarity.transpositions_le` — no more symbols are out of order than there are matches
* `Similarity.eq_of_all_in_order` — lists that match throughout and in order are equal
* `Similarity.jaroWinkler_eq_one_iff`, `Similarity.jaroWinkler_eq_zero_iff`
* `Similarity.jaroWinkler_extremes` — range, extremes, counts and the loop in bounds
-/

namespace RecordQuery

namespace Similarity

variable {α : Type} [DecidableEq α]

/-! ### Matches -/

/-- **Nothing matches if no positions fit.** -/
theorem markCount_matching_eq_zero_iff (left right : List α) :
    markCount (matching left right).1 = 0
      ↔ ¬ ∃ i j, Fits (reach left right) left right i j := by
  obtain ⟨pairs, hsettled, hcount⟩ := exists_settled_matching left right
  rw [hcount, List.length_eq_zero_iff]
  constructor
  · rintro rfl ⟨i, j, hfits⟩
    rcases hsettled.settled i j hfits with ⟨_, -, hpair⟩ | ⟨_, -, hpair⟩ <;> cases hpair
  · intro hnone
    rw [List.eq_nil_iff_forall_not_mem]
    intro pair hpair
    exact hnone ⟨_, _, hsettled.fits pair hpair⟩

omit [DecidableEq α] in
theorem matched_eq_symbols {marked : Marked α} (h : markCount marked = marked.length) :
    matched marked = marked.map Prod.fst := by
  rw [matched, List.filter_eq_self.mpr (List.countP_eq_length.mp h)]

/-- **No more symbols are out of order than there are matches.** -/
theorem transpositions_le (left right : Marked α) :
    transpositions left right ≤ markCount left := by
  induction left generalizing right with
  | nil => exact Nat.zero_le _
  | cons entry left ih =>
    obtain ⟨c, used⟩ := entry
    rw [markCount_cons]
    cases used with
    | false => exact ih right
    | true =>
      rw [transpositions, Bool.toNat_true]
      split
      · exact Nat.add_le_add_right (ih right) 1
      · next rest _ =>
        have hrest := ih rest
        split <;> omega

/-- **Lists that match throughout and in order are equal.** -/
theorem eq_of_all_in_order {left right : List α}
    (hleft : markCount (matching left right).1 = left.length)
    (hright : markCount (matching left right).1 = right.length)
    (horder : transpositions (matching left right).1 (matching left right).2 = 0) :
    left = right := by
  have hsame := markCount_matching left right
  have hmatched : matched (matching left right).1 = left := by
    rw [matched_eq_symbols, symbols_matching_fst]
    rw [hleft, ← List.length_map Prod.fst, symbols_matching_fst]
  have hmatched' : matched (matching left right).2 = right := by
    rw [matched_eq_symbols, symbols_matching_snd]
    rw [hsame, hright, ← List.length_map Prod.fst, symbols_matching_snd]
  rw [transpositions_eq_countP hsame, hmatched, hmatched', List.countP_eq_zero] at horder
  rw [← List.forall₂_eq_eq_eq, List.forall₂_iff_zip]
  refine ⟨hleft.symm.trans hright, fun {c d} hcd => ?_⟩
  simpa using horder _ hcd

/-! ### Similarity -/

variable {left right : List α}

theorem jaroWinkler_of_nil (h : left = [] ∨ right = []) : jaroWinkler Rat left right = 0 := by
  have hempty : (left.isEmpty || right.isEmpty) = true := by simpa using h
  rw [jaroWinkler, if_pos hempty, Nat.cast_zero]

theorem jaroWinkler_self (h : left ≠ []) : jaroWinkler Rat left left = 1 := by
  have hempty : (left.isEmpty || left.isEmpty) ≠ true := by simpa using h
  rw [jaroWinkler, if_neg hempty, if_pos rfl, Nat.cast_one]

theorem jaroWinkler_of_no_match (hne : left ≠ right)
    (h : markCount (matching left right).1 = 0) : jaroWinkler Rat left right = 0 := by
  have hunfold : jaroWinkler Rat left right
      = if left.isEmpty || right.isEmpty then ((0 : Nat) : Rat) else ((0 : Nat) : Rat) := by
    simp only [jaroWinkler, if_neg hne, if_pos h]
  rw [hunfold, ite_self, Nat.cast_zero]

/-- **Lists that differ score strictly between zero and one** if something matches. -/
theorem jaroWinkler_of_match (hne : left ≠ right) (h : 0 < markCount (matching left right).1) :
    0 < jaroWinkler Rat left right ∧ jaroWinkler Rat left right < 1 := by
  have hleft := markCount_matching_le_left left right
  have hright := markCount_matching_le_right left right
  have hempty : (left.isEmpty || right.isEmpty) ≠ true := by
    rw [Ne, Bool.or_eq_true, List.isEmpty_iff_length_eq_zero, List.isEmpty_iff_length_eq_zero]
    omega
  have hunfold : jaroWinkler Rat left right
      = boosted Rat (weight Rat (markCount (matching left right).1)
        (transpositions (matching left right).1 (matching left right).2) left.length right.length)
        (sharedStart left right) := by
    simp only [jaroWinkler, if_neg hempty, if_neg hne, if_neg h.ne']
  have horder := transpositions_le (matching left right).1 (matching left right).2
  have hgap : markCount (matching left right).1 < left.length
      ∨ markCount (matching left right).1 < right.length
      ∨ 0 < transpositions (matching left right).1 (matching left right).2 := by
    by_contra hfull
    exact hne (eq_of_all_in_order (by omega) (by omega) (by omega))
  have hpos := weight_pos h horder left.length right.length
  have hlt := weight_lt_one h hleft hright hgap
  obtain ⟨habove, hbelow⟩ := boosted_bounds hlt.le (sharedStart_le left right)
  rw [hunfold]
  exact ⟨hpos.trans_le habove, hbelow.trans_lt (by linarith)⟩

/-- Lists are fully alike, not alike at all, or in between. -/
theorem jaroWinkler_cases (left right : List α) :
    (left = right ∧ left ≠ [] ∧ jaroWinkler Rat left right = 1)
      ∨ ((left = [] ∨ right = [] ∨ left ≠ right ∧ markCount (matching left right).1 = 0)
        ∧ jaroWinkler Rat left right = 0)
      ∨ (0 < jaroWinkler Rat left right ∧ jaroWinkler Rat left right < 1) := by
  by_cases hnil : left = [] ∨ right = []
  · exact .inr (.inl ⟨hnil.imp_right .inl, jaroWinkler_of_nil hnil⟩)
  rw [not_or] at hnil
  by_cases hequal : left = right
  · subst hequal
    exact .inl ⟨rfl, hnil.1, jaroWinkler_self hnil.1⟩
  rcases Nat.eq_zero_or_pos (markCount (matching left right).1) with hcount | hcount
  · exact .inr (.inl ⟨.inr (.inr ⟨hequal, hcount⟩), jaroWinkler_of_no_match hequal hcount⟩)
  · exact .inr (.inr (jaroWinkler_of_match hequal hcount))

theorem jaroWinkler_nonneg (left right : List α) : 0 ≤ jaroWinkler Rat left right := by
  rcases jaroWinkler_cases left right with ⟨-, -, hone⟩ | ⟨-, hzero⟩ | ⟨hpos, -⟩
  · rw [hone]
    exact zero_le_one
  · exact hzero.ge
  · exact hpos.le

theorem jaroWinkler_le_one (left right : List α) : jaroWinkler Rat left right ≤ 1 := by
  rcases jaroWinkler_cases left right with ⟨-, -, hone⟩ | ⟨-, hzero⟩ | ⟨-, hlt⟩
  · exact hone.le
  · rw [hzero]
    exact zero_le_one
  · exact hlt.le

/-- **Equal lists that are not empty are fully alike**, and no others. -/
theorem jaroWinkler_eq_one_iff :
    jaroWinkler Rat left right = 1 ↔ left = right ∧ left ≠ [] ∧ right ≠ [] := by
  constructor
  · intro hone
    rcases jaroWinkler_cases left right with ⟨rfl, hne, -⟩ | ⟨-, hzero⟩ | ⟨-, hlt⟩
    · exact ⟨rfl, hne, hne⟩
    · exact absurd (hzero.symm.trans hone) zero_ne_one
    · exact absurd hone hlt.ne
  · rintro ⟨rfl, hne, -⟩
    exact jaroWinkler_self hne

/-- **Lists are not alike at all if nothing matches**, and else they are, unless one is empty. -/
theorem jaroWinkler_eq_zero_iff :
    jaroWinkler Rat left right = 0
      ↔ left = [] ∨ right = [] ∨ left ≠ right ∧ markCount (matching left right).1 = 0 := by
  constructor
  · intro hzero
    rcases jaroWinkler_cases left right with ⟨-, -, hone⟩ | ⟨hnone, -⟩ | ⟨hpos, -⟩
    · exact absurd (hzero.symm.trans hone) zero_ne_one
    · exact hnone
    · exact absurd hzero hpos.ne'
  · rw [← or_assoc]
    rintro (hnil | ⟨hne, hcount⟩)
    · exact jaroWinkler_of_nil hnil
    · exact jaroWinkler_of_no_match hne hcount

/-- **The range of similarity and its ends.** A similarity lies between zero and one. It is one for
equal lists that are not empty. It is zero if one list is empty, or if they differ and no two
positions that are at most half the longer length, less one, apart hold the same symbol. No more
symbols are out of order than there are matches, and no list has more matches than symbols. The loop
over positions makes all its accesses in bounds and ends with the marks and their number. -/
theorem jaroWinkler_extremes (left right : List α) :
    (0 ≤ jaroWinkler Rat left right ∧ jaroWinkler Rat left right ≤ 1)
      ∧ (jaroWinkler Rat left right = 1 ↔ left = right ∧ left ≠ [] ∧ right ≠ [])
      ∧ (jaroWinkler Rat left right = 0 ↔ left = [] ∨ right = [] ∨ left ≠ right
        ∧ ¬ ∃ (i j : Nat) (c : α), left[i]? = some c ∧ right[j]? = some c
          ∧ |(i : Int) - j| ≤ ((max left.length right.length / 2 : Nat) : Int) - 1)
      ∧ transpositions (matching left right).1 (matching left right).2
        ≤ markCount (matching left right).1
      ∧ markCount (matching left right).1 ≤ min left.length right.length
      ∧ matchingLoop? left right = some ⟨(matching left right).1.map Prod.snd,
        (matching left right).2.map Prod.snd, markCount (matching left right).1⟩ := by
  refine ⟨⟨jaroWinkler_nonneg left right, jaroWinkler_le_one left right⟩, jaroWinkler_eq_one_iff,
    ?_, transpositions_le _ _, ?_, matchingLoop?_eq left right⟩
  · rw [jaroWinkler_eq_zero_iff, markCount_matching_eq_zero_iff]
    simp only [fits_reach_iff]
  · exact le_min (markCount_matching_le_left left right) (markCount_matching_le_right left right)

/-- The same symbols, but none within reach. -/
example : jaroWinkler Rat ['a', 'b'] ['b', 'a'] = 0 := by decide +kernel

end Similarity

end RecordQuery
