import RecordQuery.Proofs.Fuzzy.Pairing

/-!
# Similarity is symmetric

Two lists are as alike from the one side as from the other. The matching is the part where this is
not on the surface: it is a walk through the left list, but the pairs that it makes are the only way
to settle the lists, so a walk through the right list sets the same marks. From there on it is a
matter of the formula. Symbols out of order are places where the two lists of matched symbols
differ, the shared start is a shared start from either side, and the shares of matched symbols are
added up in one order or the other.

That last step is all that is asked of the arithmetic: addition has to commute. Doubles and exact
rationals both do that.

## Greedy from either side

A walk gives each symbol of *its* list the first free partner, so the two walks make their choices
in different orders. That they end alike does not follow from any step of theirs. It follows from
what both achieve: the pairs of the first walk, with the sides exchanged, are settled, and so are
those of the second. Marks are the positions in the pairs, and settled pairs are unique.

## Counting places

Symbols out of order are counted by a recursion that treats its two lists differently: it takes the
left symbols one by one and looks for the next matched one on the right. `matched` takes this
difference away. If both sides have as many matches, the count is the number of places in which two
lists of the same length differ, and that has no sides. The hypothesis cannot be dropped: a left
symbol without a counterpart counts, a right one does not.

## Main definitions

* `Similarity.matched` — the matched symbols of a list, in order

## Main results

* `Similarity.matching_swap` — a walk from either side sets the same marks
* `Similarity.transpositions_eq_countP` — symbols out of order, counted place by place
* `Similarity.score_comm`, `Similarity.jaroWinkler_comm` — similarity is symmetric
-/

namespace RecordQuery

namespace Similarity

variable {α : Type}

/-! ### Matched symbols -/

/-- The matched symbols of a list, in order. -/
def matched (marked : Marked α) : List α := (marked.filter Prod.snd).map Prod.fst

theorem length_matched (marked : Marked α) : (matched marked).length = markCount marked := by
  rw [matched, List.length_map, markCount, List.countP_eq_length_filter]

/-- The first matched symbol stands behind all unmarked ones. -/
theorem matched_eq_cons {marked : Marked α} {c : α} {symbols : List α}
    (h : matched marked = c :: symbols) :
    ∃ rest, marked.dropWhile (!·.2) = (c, true) :: rest ∧ matched rest = symbols := by
  induction marked with
  | nil => cases h
  | cons entry rest ih =>
    obtain ⟨d, used⟩ := entry
    cases used with
    | false => exact ih h
    | true =>
      obtain ⟨rfl, rfl⟩ := List.cons.inj h
      exact ⟨rest, rfl, rfl⟩

variable [DecidableEq α]

/-! ### The matching -/

/-- **A walk from either side sets the same marks.** -/
theorem matching_swap (left right : List α) : matching right left = (matching left right).swap := by
  obtain ⟨pairs, hsettled, hmarks⟩ := exists_settled (reach left right) left right
  obtain ⟨pairs', hsettled', hmarks'⟩ := exists_settled (reach left right) right left
  have hsame : ∀ i j, (j, i) ∈ pairs' ↔ (i, j) ∈ pairs := fun i j =>
    (hsettled'.mem_iff hsettled.swap j i).trans mem_map_swap
  have hright : ∀ j, j ∈ pairs'.map Prod.fst ↔ j ∈ pairs.map Prod.snd := by
    intro j
    simp [hsame]
  have hleft : ∀ i, i ∈ pairs'.map Prod.snd ↔ i ∈ pairs.map Prod.fst := by
    intro i
    simp [hsame]
  rw [matching, matching, reach_comm right left, hmarks, hmarks', marks_congr right hright,
    marks_congr left hleft, Prod.swap_prod_mk]

theorem markCount_matching_comm (left right : List α) :
    markCount (matching right left).1 = markCount (matching left right).1 := by
  rw [matching_swap left right]
  exact markCount_matching left right

/-! ### Symbols out of order -/

/-- **Symbols out of order are places where the matched symbols differ**, if there are as many on
either side. -/
theorem transpositions_eq_countP {left right : Marked α} (h : markCount right = markCount left) :
    transpositions left right
      = ((matched left).zip (matched right)).countP fun (c, d) => decide (c ≠ d) := by
  induction left generalizing right with
  | nil => rfl
  | cons entry left ih =>
    obtain ⟨c, used⟩ := entry
    rw [markCount_cons] at h
    cases used with
    | false => exact ih h
    | true =>
      rw [← length_matched right, Bool.toNat_true] at h
      obtain ⟨d, symbols, hright⟩ := List.exists_cons_of_length_eq_add_one h
      obtain ⟨rest, hrest, hsymbols⟩ := matched_eq_cons hright
      have hcount : markCount rest = markCount left := by
        rw [← length_matched rest, hsymbols]
        rw [hright, List.length_cons] at h
        exact Nat.succ.inj h
      have hleft : matched ((c, true) :: left) = c :: matched left := rfl
      rw [transpositions, hrest, hleft, hright, ← hsymbols, List.zip_cons_cons,
        List.countP_cons, ← ih hcount]
      by_cases hcd : c = d <;> simp [hcd, Ne.symm]

theorem transpositions_comm {left right : Marked α} (h : markCount right = markCount left) :
    transpositions right left = transpositions left right := by
  have hswap : (fun cd : α × α => decide (cd.1 ≠ cd.2)) ∘ Prod.swap
      = fun cd => decide (cd.1 ≠ cd.2) := by
    funext cd
    exact decide_eq_decide.mpr ne_comm
  rw [transpositions_eq_countP h, transpositions_eq_countP h.symm, ← List.zip_swap,
    List.countP_map]
  exact congrArg (List.countP · _) hswap

theorem transpositions_matching_comm (left right : List α) :
    transpositions (matching right left).1 (matching right left).2
      = transpositions (matching left right).1 (matching left right).2 := by
  rw [matching_swap left right]
  exact transpositions_comm (markCount_matching left right)

/-! ### The score -/

theorem sharedStart_comm (left right : List α) :
    sharedStart right left = sharedStart left right := by
  have hswap : (fun cd : α × α => cd.1 == cd.2) ∘ Prod.swap = fun cd => cd.1 == cd.2 := by
    funext cd
    exact Bool.beq_comm
  show (((right.zip left).take startLimit).takeWhile fun cd => cd.1 == cd.2).length = _
  rw [← List.zip_swap, ← List.map_take, List.takeWhile_map, List.length_map, hswap]
  rfl

variable {S : Type} [Scale S]

theorem weight_comm (hadd : ∀ x y : S, x + y = y + x) (k t left right : Nat) :
    weight S k t right left = weight S k t left right := by
  rw [weight, weight, hadd ((k : S) / (right : S))]

theorem score_comm (hadd : ∀ x y : S, x + y = y + x) (left right : List α) :
    jaroWinkler S right left = jaroWinkler S left right := by
  have hempty : (right.isEmpty || left.isEmpty) = (left.isEmpty || right.isEmpty) :=
    Bool.or_comm _ _
  have hequal : (right = left) = (left = right) := propext eq_comm
  have hweight := weight_comm hadd (markCount (matching left right).1)
    (transpositions (matching left right).1 (matching left right).2) left.length right.length
  simp only [jaroWinkler, hempty, hequal, markCount_matching_comm left right,
    transpositions_matching_comm left right, hweight, sharedStart_comm left right]

/-- **Similarity is symmetric**, in doubles and in any other arithmetic in which addition commutes.
A walk through either list sets the same marks on both, as many on the one as on the other, and
finds the same number of symbols out of order. -/
theorem jaroWinkler_comm (left right : List α) :
    jaroWinkler Binary64 right left = jaroWinkler Binary64 left right
      ∧ (∀ (S : Type) [Scale S], (∀ x y : S, x + y = y + x) →
        jaroWinkler S right left = jaroWinkler S left right)
      ∧ matching right left = (matching left right).swap
      ∧ markCount (matching right left).1 = markCount (matching left right).1
      ∧ transpositions (matching right left).1 (matching right left).2
        = transpositions (matching left right).1 (matching left right).2 :=
  ⟨score_comm Binary64.add_comm left right, fun _ _ hadd => score_comm hadd left right,
    matching_swap left right, markCount_matching_comm left right,
    transpositions_matching_comm left right⟩

/-- Five matches, three of them out of order, whichever list is walked through. -/
theorem jaroWinkler_comm_shifted_words :
    let left := ['a', 'b', 'c', 'a', 'b']
    let right := ['b', 'c', 'a', 'x', 'a', 'b']
    (∀ x y : Rat, x + y = y + x)
      ∧ matching left right = (left.map (·, true), right.map fun c => (c, decide (c ≠ 'x')))
      ∧ matching right left = (right.map fun c => (c, decide (c ≠ 'x')), left.map (·, true))
      ∧ transpositions (matching left right).1 (matching left right).2 = 3
      ∧ transpositions (matching right left).1 (matching right left).2 = 3
      ∧ jaroWinkler Rat right left = jaroWinkler Rat left right
      ∧ jaroWinkler Binary64 right left = jaroWinkler Binary64 left right := by
  intro left right
  have hmatching : matching left right
      = (left.map (·, true), right.map fun c => (c, decide (c ≠ 'x'))) := by decide
  have htranspositions : transpositions (matching left right).1 (matching left right).2 = 3 := by
    decide
  obtain ⟨hdoubles, hscales, hswap, -, hsame⟩ := jaroWinkler_comm left right
  exact ⟨add_comm, hmatching, hswap.trans (congrArg Prod.swap hmatching), htranspositions,
    hsame.trans htranspositions, hscales Rat add_comm, hdoubles⟩

end Similarity

end RecordQuery
