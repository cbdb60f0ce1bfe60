import RecordQuery.Proofs.Fuzzy.Distribution

/-!
# Full scores

There are two ways to a score of one. A word of the needle occurs verbatim in the haystack, or it is
equal to a word of the haystack. Neither follows from the other. A word may occur within a longer
word or across spaces and punctuation, and a word of the haystack need not occur in it, because
characters that do not count were dropped from it: `wor-ld` has the word `world`. There is no third
way, since words that differ are never fully alike.

The empty word is a case of its own. It is not like itself, but it occurs in every text.

## Full and not full

A score that is not full is one that is less than one, since no score is greater. So the condition
for full scores is the negation of the one for scores below one. That one is an instance of
`Fuzzy.Options.score_iff`: the greater of two scores is below one exactly if both are, and zero is.

A needle without words has nothing to reach, and its score is zero. It matches no text at any limit
above that.

## Main results

* `Fuzzy.Options.score_lt_one_iff` — when a score is not full
* `Fuzzy.Options.score_full` — the range of scores, full scores, and scores without any words
-/

namespace RecordQuery

namespace Fuzzy

namespace Options

variable (options : Options Rat)

theorem score_nonneg (needle haystack : String) :
    0 ≤ (options.evaluate needle haystack).score :=
  ((options.score_le_iff needle haystack).mp le_rfl).1

theorem score_le_one (needle haystack : String) :
    (options.evaluate needle haystack).score ≤ 1 :=
  (options.score_le_iff needle haystack).mpr
    ⟨zero_le_one, fun word _ =>
      ⟨fun _ => le_rfl, fun other _ => Similarity.jaroWinkler_le_one word other⟩⟩

/-- **A score is not full** if no word of the needle occurs in the haystack or is one of its
words. -/
theorem score_lt_one_iff (needle haystack : String) :
    (options.evaluate needle haystack).score < 1
      ↔ ∀ word ∈ words options.minLength (options.normalize needle),
        ¬ word <:+: options.normalize haystack
          ∧ word ∉ words options.minLength (options.normalize haystack) := by
  rw [options.score_iff (R := (· < 1)) fun _ _ => max_lt_iff]
  refine (and_iff_right zero_lt_one).trans (forall₂_congr fun word _ => ?_)
  constructor
  · rintro ⟨hverbatim, hclose⟩
    have hmiss : ¬ word <:+: options.normalize haystack := fun hoccurs =>
      lt_irrefl 1 (hverbatim hoccurs)
    refine ⟨hmiss, fun hword => ?_⟩
    have hne : word ≠ [] := by
      rintro rfl
      exact hmiss List.nil_infix
    exact (hclose word hword).ne (Similarity.jaroWinkler_self hne)
  · rintro ⟨hmiss, hnot⟩
    refine ⟨fun hoccurs => absurd hoccurs hmiss, fun other hother => ?_⟩
    refine lt_of_le_of_ne (Similarity.jaroWinkler_le_one word other) fun hone => ?_
    obtain ⟨rfl, -⟩ := Similarity.jaroWinkler_eq_one_iff.mp hone
    exact hnot hother

theorem score_eq_one_iff (needle haystack : String) :
    (options.evaluate needle haystack).score = 1
      ↔ ∃ word ∈ words options.minLength (options.normalize needle),
        word <:+: options.normalize haystack
          ∨ word ∈ words options.minLength (options.normalize haystack) := by
  rw [← not_iff_not, ← Ne, ← (options.score_le_one needle haystack).lt_iff_ne, score_lt_one_iff]
  simp only [not_exists, not_and, not_or]

/-- **Full scores.** A score lies between zero and one. It is one if some word of the needle occurs
verbatim in the haystack or is equal to a word of the haystack, and otherwise it is not. So a text
that has a word scores one against itself. A needle without words scores zero. -/
theorem score_full (needle haystack : String) :
    (0 ≤ (options.evaluate needle haystack).score
        ∧ (options.evaluate needle haystack).score ≤ 1)
      ∧ ((options.evaluate needle haystack).score = 1
        ↔ ∃ word ∈ words options.minLength (options.normalize needle),
          word <:+: options.normalize haystack
            ∨ word ∈ words options.minLength (options.normalize haystack))
      ∧ (words options.minLength (options.normalize needle) ≠ [] →
        (options.evaluate needle needle).score = 1)
      ∧ (words options.minLength (options.normalize needle) = [] →
        (options.evaluate needle haystack).score = 0) := by
  refine ⟨⟨options.score_nonneg needle haystack, options.score_le_one needle haystack⟩,
    options.score_eq_one_iff needle haystack, fun hsome => ?_, fun hnone => ?_⟩
  · obtain ⟨word, hword⟩ := List.exists_mem_of_ne_nil _ hsome
    exact (options.score_eq_one_iff needle needle).mpr ⟨word, hword, .inr hword⟩
  · refine le_antisymm ?_ (options.score_nonneg needle haystack)
    rw [options.score_le_iff, hnone]
    exact ⟨le_rfl, List.forall_mem_nil _⟩

/-- A hyphen keeps a word from occurring in its own text, and short pieces are not words. -/
theorem score_full_hyphen :
    let options : Options Rat := ⟨true, 3, 3 / 4⟩
    words options.minLength (options.normalize "Wor-ld") ≠ []
      ∧ (¬ "world".toList <:+: options.normalize "Wor-ld")
      ∧ (options.evaluate "Wor-ld" "Wor-ld").score = 1
      ∧ words options.minLength (options.normalize "is a") = []
      ∧ (options.evaluate "is a" "Wor-ld").score = 0 := by
  intro options
  have hsome : words options.minLength (options.normalize "Wor-ld") ≠ [] := by decide +kernel
  have hmiss : ¬ "world".toList <:+: options.normalize "Wor-ld" := by decide +kernel
  have hnone : words options.minLength (options.normalize "is a") = [] := by decide +kernel
  exact ⟨hsome, hmiss, (score_full options "Wor-ld" "Wor-ld").2.2.1 hsome, hnone,
    (score_full options "is a" "Wor-ld").2.2.2 hnone⟩

end Options

end Fuzzy

end RecordQuery
