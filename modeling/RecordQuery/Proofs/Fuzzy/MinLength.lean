import RecordQuery.Proofs.Fuzzy.BestPair
import RecordQuery.Proofs.Fuzzy.Distribution

/-!
# Shorter words

Asking for shorter words keeps the words that there were, in the needle and in the haystack, and
adds others. More words can reach more, and a score is the least upper bound of what they reach. So
no score gets smaller, and no match is lost. The path to the score may change: a short word may
occur in a haystack in which no long word does. Then the score is one, and no pair of words scores
more.

This last step is what it takes of similarity: to be at most one. Doubles satisfy it as well, so
what holds of exact scores holds of the rounded ones.

## Why not by monotonicity of the best pair alone

The two lengths may lead to different ways of scoring, and there are three cases. Both find a word
verbatim, or neither does, or only the smaller length does. The fourth cannot be: a word of the
greater length that occurs is a word of the smaller length, too.

* Exact scores have one characterisation that covers all cases, `Fuzzy.Options.score_le_iff`. So
  the score under the smaller length is an upper bound of everything that the greater length can
  reach.
* Rounded scores have none. The cases are gone through, and the third one is where it matters that
  a rounded score is a number and at most one.

## Texts that fit into memory

A rounded score is a number only if the lengths it is computed from are finite doubles. The texts
are therefore shorter than `sizeLimit` where rounded scores are compared. Exact scores need no such
bound.

## Main results

* `Fuzzy.words_sublist` — words of a greater length are among those of a smaller one
* `Fuzzy.Options.score_le_of_shorter`, `rounded_score_le_of_shorter` — scores under two lengths
* `Fuzzy.Options.shorter_words_match` — exact and rounded scores, and matches
-/

namespace RecordQuery

namespace Fuzzy

open Binary64 Similarity

variable {short long : Nat}

theorem words_sublist (h : short ≤ long) (text : List Char) :
    (words long text).Sublist (words short text) :=
  List.monotone_filter_right _ fun word hword => by
    rw [decide_eq_true_iff] at hword ⊢
    exact h.trans hword

namespace Options

variable {S : Type} [Scale S]

/-- The same options with another length. -/
def withMinLength (options : Options S) (length : Nat) : Options S :=
  { options with minLength := length }

theorem acceptsValue_iff {options : Options S} {reference : String} {value : Value} :
    options.acceptsValue reference value = true
      ↔ ∃ text, value = .str text ∧ text ≠ ""
        ∧ options.limit ≤ (options.evaluate reference text).score := by
  cases value with
  | str text =>
    rw [acceptsValue, accepts_iff]
    simp
  | _ => simp [acceptsValue]

/-! ### Exact scores -/

theorem score_le_of_shorter (options : Options Rat) (h : short ≤ long) (needle haystack : String) :
    ((options.withMinLength long).evaluate needle haystack).score
      ≤ ((options.withMinLength short).evaluate needle haystack).score := by
  obtain ⟨hzero, hall⟩ := ((options.withMinLength short).score_le_iff needle haystack).mp le_rfl
  rw [score_le_iff]
  refine ⟨hzero, fun word hword => ?_⟩
  obtain ⟨hoccurs, hclose⟩ := hall word ((words_sublist h _).subset hword)
  exact ⟨hoccurs, fun other hother => hclose other ((words_sublist h _).subset hother)⟩

/-! ### Rounded scores -/

section Rounded

variable {options : Options Binary64} {needle haystack : String}

/-- A score is a number from zero to one. -/
theorem score_atMost (hneedle : (options.normalize needle).length < sizeLimit)
    (hhaystack : (options.normalize haystack).length < sizeLimit) :
    (options.evaluate needle haystack).score.AtMost oneMagnitude := by
  by_cases hhit : ∃ word ∈ words options.minLength (options.normalize needle),
      word <:+: options.normalize haystack
  · rw [score_of_hit hhit]
    exact atMost_natCast le_rfl
  · push Not at hhit
    have hall : ∀ c ∈ candidates (words options.minLength (options.normalize needle))
        (words options.minLength (options.normalize haystack)), c.Sound :=
      fun _ => sound_of_mem_candidates hneedle hhaystack
    rw [evaluate_of_miss hhit]
    exact (leads_bestPair hall).atMost hall

/-- More words have no smaller best pair. -/
theorem score_bestPair_le {asked found asked' found' : List Word} (hasked : asked ⊆ asked')
    (hfound : found ⊆ found') (hall : ∀ c ∈ candidates asked found, c.Sound)
    (hall' : ∀ c ∈ candidates asked' found', c.Sound) :
    (bestPair asked found : Best Binary64).score
      ≤ (bestPair asked' found' : Best Binary64).score := by
  rcases bestPair_cases hall with ⟨hbest, -⟩ | ⟨score, i, j, word, other, hbest, -, hfirst⟩
  · rw [hbest, le_iff_magnitude zero_atMost ((leads_bestPair hall').atMost hall'), magnitude_zero]
    exact Nat.zero_le _
  · have hword := hasked (List.mem_of_getElem? hfirst.left)
    have hother := hfound (List.mem_of_getElem? hfirst.right)
    rw [hbest, ← hfirst.score_eq]
    exact (bestPair_isGreatest hall' (List.ne_nil_of_mem hword) (List.ne_nil_of_mem hother)).2
      word hword other hother

theorem rounded_score_le_of_shorter (h : short ≤ long)
    (hneedle : (options.normalize needle).length < sizeLimit)
    (hhaystack : (options.normalize haystack).length < sizeLimit) :
    ((options.withMinLength long).evaluate needle haystack).score
      ≤ ((options.withMinLength short).evaluate needle haystack).score := by
  by_cases hhit : ∃ word ∈ words short (options.normalize needle),
      word <:+: options.normalize haystack
  · have hone : ((options.withMinLength short).evaluate needle haystack).score
        = ((1 : Nat) : Binary64) := score_of_hit hhit
    have hlong : ((options.withMinLength long).evaluate needle haystack).score.AtMost
      oneMagnitude := score_atMost hneedle hhaystack
    rw [hone, le_iff_magnitude hlong (atMost_natCast le_rfl)]
    exact hlong.le
  · push Not at hhit
    -- without a hit of a short word there is none of a long one
    have hmiss : ∀ word ∈ words long (options.normalize needle),
        ¬ word <:+: options.normalize haystack := fun word hword =>
      hhit word ((words_sublist h _).subset hword)
    have hshortPairs : (options.withMinLength short).evaluate needle haystack
        = closest (words short (options.normalize needle))
          (words short (options.normalize haystack)) := evaluate_of_miss hhit
    have hlongPairs : (options.withMinLength long).evaluate needle haystack
        = closest (words long (options.normalize needle))
          (words long (options.normalize haystack)) := evaluate_of_miss hmiss
    rw [hshortPairs, hlongPairs]
    exact score_bestPair_le (words_sublist h _).subset (words_sublist h _).subset
      (fun _ => sound_of_mem_candidates hneedle hhaystack)
      fun _ => sound_of_mem_candidates hneedle hhaystack

end Rounded

/-! ### Matches -/

/-- **Shorter words lose no match.** If options differ only in the length from which on words count,
then under the smaller length no score is smaller, and whatever matched under the greater length
still does. This holds of exact scores, and of rounded ones for texts that fit into an index. -/
theorem shorter_words_match (h : short ≤ long) :
    (∀ (options : Options Rat) needle haystack,
        ((options.withMinLength long).evaluate needle haystack).score
          ≤ ((options.withMinLength short).evaluate needle haystack).score)
      ∧ (∀ (options : Options Rat) reference value,
        (options.withMinLength long).acceptsValue reference value = true →
          (options.withMinLength short).acceptsValue reference value = true)
      ∧ ∀ (options : Options Binary64) reference text,
        (options.normalize reference).length < sizeLimit →
        (options.normalize text).length < sizeLimit →
          ((options.withMinLength long).evaluate reference text).score
              ≤ ((options.withMinLength short).evaluate reference text).score
            ∧ ((options.withMinLength long).acceptsValue reference (.str text) = true →
              (options.withMinLength short).acceptsValue reference (.str text) = true) := by
  refine ⟨fun options => options.score_le_of_shorter h, fun options reference value hlong => ?_,
    fun options reference text hreference htext => ?_⟩
  · obtain ⟨text, rfl, hne, hlimit⟩ := acceptsValue_iff.mp hlong
    exact acceptsValue_iff.mpr
      ⟨text, rfl, hne, hlimit.trans (options.score_le_of_shorter h reference text)⟩
  · have hscore := rounded_score_le_of_shorter h hreference htext
    refine ⟨hscore, fun hlong => ?_⟩
    obtain ⟨_, hvalue, hne, hlimit⟩ := acceptsValue_iff.mp hlong
    cases hvalue
    exact acceptsValue_iff.mpr ⟨text, rfl, hne, Binary64.le_trans hlimit hscore⟩

/-- A word of one letter occurs where no word of three does, and a close word matches still. -/
theorem shorter_words_match_single_letter :
    let options : Options Rat := .standard
    1 ≤ 3
      ∧ (¬ ∃ word ∈ words 3 (options.normalize "a rest"), word <:+: options.normalize "a test")
      ∧ (∃ word ∈ words 1 (options.normalize "a rest"), word <:+: options.normalize "a test")
      ∧ (options.withMinLength 3).acceptsValue "a rest" (.str "a test") = true
      ∧ (options.withMinLength 1).acceptsValue "a rest" (.str "a test") = true := by
  intro options
  have hlong : (options.withMinLength 3).acceptsValue "a rest" (.str "a test") = true := by
    decide +kernel
  exact ⟨by decide, by decide +kernel, by decide +kernel, hlong,
    (shorter_words_match (by decide)).2.1 options "a rest" (.str "a test") hlong⟩

end Options

end Fuzzy

end RecordQuery
