import RecordQuery.Predicate.Fuzzy
import RecordQuery.Proofs.Fuzzy.Extremes
import RecordQuery.Proofs.Fuzzy.Verbatim
import RecordQuery.Proofs.Text.Lowercase
import Mathlib.Order.Lattice

/-!
# Scores distribute over words

A score is an upper bound, and the least one: it bounds zero, the similarity of every word of the
needle with every word of the haystack, and one if some word of the needle occurs verbatim. So the
score of joined texts is the greater score of their parts, on either side. The two ways of scoring
agree in this because similarity is at most one: a word that occurs verbatim through one part is not
outdone by the other.

Scores are exact here. Case may be ignored or not, since joining with a space does not change how
the parts are taken in lower case.

## Upper bounds in general

Being at most `x` is not the only property that the greater of two scores has if both have it. Being
less than `x` is another, and full scores are about that one. `Fuzzy.Options.score_iff` is therefore
about any property `R` with `R (max x y) ↔ R x ∧ R y`. Such a property goes down to all smaller
scores. So a verbatim hit, which has `R 1`, has it of all similarities at once, as none is above
one.

## The joint

A joined needle has the words of both parts. A joined haystack has the words of both parts as well,
and what occurs in it verbatim occurs in one of the two, since a word has no space to reach across
the joint. Neither needs to know which way of scoring is taken.

Lower case is the one operation that looks at what stands around a character: a sigma at the end of
a word is another one than in its middle. A space ends a word, so the two sides of the joint do not
see each other.

## Main results

* `Fuzzy.Options.score_iff` — a score is the greatest of what words reach
* `Fuzzy.Options.score_le_iff` — a score is the least upper bound
* `Fuzzy.Options.score_distributes` — scores and matching of joined texts
-/

namespace RecordQuery

namespace Fuzzy

/-! ### The best pair -/

theorem score_consider (best : Best Rat) (left right : Word × Nat) :
    (best.consider left right).score
      = max best.score (Similarity.jaroWinkler Rat left.1 right.1) := by
  rw [Best.consider]
  split
  · next hbetter => exact (max_eq_right hbetter.le).symm
  · next hworse => exact (max_eq_left (not_lt.mp hworse)).symm

/-- What holds after a fold, if each step adds one condition. -/
theorem foldl_iff {β γ : Type} {step : γ → β → γ} {R : γ → Prop} {P : β → Prop}
    (hstep : ∀ best b, R (step best b) ↔ R best ∧ P b) (best : γ) (items : List β) :
    R (items.foldl step best) ↔ R best ∧ ∀ b ∈ items, P b := by
  induction items generalizing best with
  | nil => simp
  | cons b items ih => rw [List.foldl_cons, ih, hstep, List.forall_mem_cons, and_assoc]

theorem forall_mem_zipIdx {β : Type} {items : List β} {P : β → Prop} :
    (∀ item ∈ items.zipIdx, P item.1) ↔ ∀ b ∈ items, P b := by
  rw [← List.forall_mem_map (f := Prod.fst), List.zipIdx_map_fst]

/-- **The best pair has the greatest similarity**, zero included: it satisfies what all pairs do, if
the greater of two scores satisfies what both do. -/
theorem score_bestPair_iff {R : Rat → Prop} (hR : ∀ x y, R (max x y) ↔ R x ∧ R y)
    (needle haystack : List Word) :
    R (bestPair needle haystack : Best Rat).score
      ↔ R 0 ∧ ∀ word ∈ needle, ∀ other ∈ haystack, R (Similarity.jaroWinkler Rat word other) := by
  have hinner : ∀ (best : Best Rat) (left : Word × Nat),
      R (haystack.zipIdx.foldl (fun best right => best.consider left right) best).score
        ↔ R best.score ∧ ∀ other ∈ haystack, R (Similarity.jaroWinkler Rat left.1 other) := by
    intro best left
    rw [foldl_iff (R := fun best : Best Rat => R best.score)
        (P := fun right => R (Similarity.jaroWinkler Rat left.1 right.1))
        fun best right => by rw [score_consider, hR],
      forall_mem_zipIdx (P := fun other => R (Similarity.jaroWinkler Rat left.1 other))]
  rw [bestPair, foldl_iff (R := fun best : Best Rat => R best.score) hinner,
    forall_mem_zipIdx (P := fun word =>
      ∀ other ∈ haystack, R (Similarity.jaroWinkler Rat word other))]
  exact and_congr_left fun _ => by rw [Nat.cast_zero]

/-! ### Scores -/

namespace Options

variable (options : Options Rat)

/-- Joining two texts by a space joins the texts as they are compared. -/
theorem normalize_append_space (left right : String) :
    options.normalize (left ++ " " ++ right)
      = options.normalize left ++ ' ' :: options.normalize right := by
  have hlist : (left ++ " " ++ right).toList = left.toList ++ ' ' :: right.toList := by
    simp [String.toList_append]
  rw [normalize, normalize, normalize, hlist]
  split
  · exact Text.lowercase_append_space _ _
  · rfl

/-- **A score is the greatest of what the words of the needle reach**: it satisfies what all of them
do, if the greater of two scores satisfies what both do. -/
theorem score_iff {R : Rat → Prop} (hR : ∀ x y, R (max x y) ↔ R x ∧ R y)
    (needle haystack : String) :
    R (options.evaluate needle haystack).score
      ↔ R 0 ∧ ∀ word ∈ words options.minLength (options.normalize needle),
        (word <:+: options.normalize haystack → R 1)
          ∧ ∀ other ∈ words options.minLength (options.normalize haystack),
            R (Similarity.jaroWinkler Rat word other) := by
  by_cases hhit : ∃ word ∈ words options.minLength (options.normalize needle),
      word <:+: options.normalize haystack
  · rw [score_of_hit hhit, Nat.cast_one]
    obtain ⟨word, hword, hoccurs⟩ := hhit
    -- the hit scores one, and so no pair of words scores more
    constructor
    · intro hone
      have hbelow : ∀ x ≤ 1, R x := fun x hx => ((hR x 1).mp (by rwa [max_eq_right hx])).1
      exact ⟨hbelow 0 zero_le_one, fun word _ =>
        ⟨fun _ => hone, fun other _ => hbelow _ (Similarity.jaroWinkler_le_one word other)⟩⟩
    · rintro ⟨-, hall⟩
      exact (hall word hword).1 hoccurs
  · push Not at hhit
    rw [evaluate_of_miss hhit, closest, score_bestPair_iff hR]
    refine and_congr_right fun _ => forall₂_congr fun word hword => ?_
    exact (and_iff_right fun hoccurs => absurd hoccurs (hhit word hword)).symm

theorem score_le_iff (needle haystack : String) {x : Rat} :
    (options.evaluate needle haystack).score ≤ x
      ↔ 0 ≤ x ∧ ∀ word ∈ words options.minLength (options.normalize needle),
        (word <:+: options.normalize haystack → 1 ≤ x)
          ∧ ∀ other ∈ words options.minLength (options.normalize haystack),
            Similarity.jaroWinkler Rat word other ≤ x :=
  options.score_iff (R := (· ≤ x)) (fun _ _ => max_le_iff) needle haystack

theorem score_append_needle (left right haystack : String) :
    (options.evaluate (left ++ " " ++ right) haystack).score
      = max (options.evaluate left haystack).score (options.evaluate right haystack).score := by
  refine eq_of_forall_ge_iff fun x => ?_
  rw [max_le_iff, score_le_iff, score_le_iff, score_le_iff, normalize_append_space,
    words_append_space, List.forall_mem_append, and_and_left]

theorem score_append_haystack (needle left right : String) :
    (options.evaluate needle (left ++ " " ++ right)).score
      = max (options.evaluate needle left).score (options.evaluate needle right).score := by
  refine eq_of_forall_ge_iff fun x => ?_
  rw [max_le_iff, score_le_iff, score_le_iff, score_le_iff, normalize_append_space,
    words_append_space, ← and_and_left, ← forall₂_and]
  refine and_congr_right fun _ => forall₂_congr fun word hword => ?_
  rw [word_isInfix_append_space_iff hword, or_imp, List.forall_mem_append, and_and_and_comm]

theorem accepts_iff {S : Type} [Scale S] {options : Options S} {reference text : String} :
    options.accepts reference text = true
      ↔ text ≠ "" ∧ options.limit ≤ (options.evaluate reference text).score := by
  rw [accepts, Bool.and_eq_true, decide_eq_true_iff, Bool.not_eq_true', String.isEmpty_eq_false_iff]

/-- **Scores distribute over words.** The score of texts joined by a space, as the needle or as the
haystack, is the greater score of the parts. So a joined needle matches if one of its parts does,
and a joined haystack of two texts that are not empty matches if one of them does. -/
theorem score_distributes (needle needle' haystack haystack' : String) :
    (options.evaluate (needle ++ " " ++ needle') haystack).score
        = max (options.evaluate needle haystack).score (options.evaluate needle' haystack).score
      ∧ (options.evaluate needle (haystack ++ " " ++ haystack')).score
        = max (options.evaluate needle haystack).score (options.evaluate needle haystack').score
      ∧ options.acceptsValue (needle ++ " " ++ needle') (.str haystack)
        = (options.acceptsValue needle (.str haystack)
          || options.acceptsValue needle' (.str haystack))
      ∧ (haystack ≠ "" → haystack' ≠ "" →
        options.acceptsValue needle (.str (haystack ++ " " ++ haystack'))
          = (options.acceptsValue needle (.str haystack)
            || options.acceptsValue needle (.str haystack'))) := by
  refine ⟨options.score_append_needle needle needle' haystack,
    options.score_append_haystack needle haystack haystack', ?_, fun hne hne' => ?_⟩
  · rw [Bool.eq_iff_iff, Bool.or_eq_true]
    simp only [acceptsValue, accepts_iff]
    rw [score_append_needle, le_max_iff, and_or_left]
  · have hjoined : haystack ++ " " ++ haystack' ≠ "" := by
      simp [hne]
    rw [Bool.eq_iff_iff, Bool.or_eq_true]
    simp only [acceptsValue, accepts_iff]
    rw [score_append_haystack, le_max_iff, and_iff_right hjoined, and_iff_right hne,
      and_iff_right hne']

/-- A word that is only close to one of the haystack's words matches the whole haystack. -/
theorem score_distributes_close_word :
    let options : Options Rat := ⟨true, 3, 3 / 4⟩
    "Mary" ≠ "" ∧ "jon" ≠ ""
      ∧ options.acceptsValue "Jhon" (.str "Mary") = false
      ∧ options.acceptsValue "Jhon" (.str "jon") = true
      ∧ options.acceptsValue "Jhon" (.str ("Mary" ++ " " ++ "jon")) = true := by
  intro options
  have hne : "Mary" ≠ "" := by decide
  have hne' : "jon" ≠ "" := by decide
  have hfar : options.acceptsValue "Jhon" (.str "Mary") = false := by decide +kernel
  have hclose : options.acceptsValue "Jhon" (.str "jon") = true := by decide +kernel
  refine ⟨hne, hne', hfar, hclose, ?_⟩
  rw [(score_distributes options "Jhon" "" "Mary" "jon").2.2.2 hne hne', hfar, hclose]
  rfl

end Options

end Fuzzy

end RecordQuery
