import RecordQuery.Proofs.Fuzzy.Loop
import RecordQuery.Proofs.Fuzzy.Symmetry

/-!
# Comparing matched symbols by position

Once two lists are matched, a program counts the symbols out of order in a second loop. It walks
through the left list and passes over what is not flagged. For each flagged symbol it moves a cursor
through the right list, on to the next flagged position, and compares the two symbols. The cursor
could run off the end; then there would be nothing to compare with, and the symbol would count as
out of order.

That this never happens is a matter of counting: from the cursor on there are as many flags as from
the position in the left list on, since both lists have as many flags as there are matches. So the
first flagged symbol is compared with the first one of the other list, the second with the second,
and so on.

Marks are set in pairs of equal symbols. The matched symbols of one list are therefore those of the
other in some order, and two such lists cannot differ at one place only.

## Following the cursor

The invariant has the positions that are still to come and not those that were compared:
`setFrom next (flags.drop next)` are the flagged positions from the cursor on. A step takes the
first of them away. As long as there are at least as many of these as marks in the rest of the left
list, there is a first one, and a step keeps it so. The record of what is compared is the zip of the
two lists of positions.

## Why not exactly one

Suppose that two lists of the same symbols differ at one place, with `c` in the one and something
else in the other. At all other places they are equal, so `c` occurs once more in the first list
than in the second. But rearranging a list does not change how often a symbol occurs. No property of
the matching but its pairs of equal symbols goes into this.

## Main definitions

* `Similarity.setFrom` — the positions of set flags
* `Similarity.compareAt?`, `Similarity.comparingLoop?` — the loop, with a record of what it compares

## Main results

* `Similarity.findM?_cursor` — the cursor stops at the next set flag
* `Similarity.compareAt?_of_set`, `foldlM_compareAt?` — one step of the loop, and the rest of a run
* `Similarity.matched_matching_perm` — the matched symbols of both lists
* `Similarity.countP_ne_one_of_perm` — rearranged lists do not differ at one place only
* `Similarity.compared_in_order` — the summary
-/

namespace RecordQuery

namespace Similarity

variable {α : Type}

/-! ### Positions of set flags -/

/-- The positions of the set flags in order, the first flag being at position `j`. -/
def setFrom (j : Nat) (flags : List Bool) : List Nat :=
  ((flags.zipIdx j).filter Prod.fst).map Prod.snd

@[simp] theorem setFrom_nil (j : Nat) : setFrom j [] = [] := rfl

@[simp] theorem setFrom_true (j : Nat) (flags : List Bool) :
    setFrom j (true :: flags) = j :: setFrom (j + 1) flags := rfl

@[simp] theorem setFrom_false (j : Nat) (flags : List Bool) :
    setFrom j (false :: flags) = setFrom (j + 1) flags := rfl

theorem mem_setFrom_zero {flags : List Bool} {j : Nat} :
    j ∈ setFrom 0 flags ↔ flags[j]? = some true := by
  simp [setFrom, List.mem_zipIdx_iff_getElem?]

theorem length_setFrom (j : Nat) (marked : Marked α) :
    (setFrom j (marked.map Prod.snd)).length = markCount marked := by
  induction marked generalizing j with
  | nil => rfl
  | cons entry marked ih =>
    obtain ⟨c, used⟩ := entry
    cases used <;> simp [markCount_cons, ih]

/-- At these positions are the matched symbols. -/
theorem map_getElem?_setFrom (before : List α) (marked : Marked α) :
    (setFrom before.length (marked.map Prod.snd)).map ((before ++ marked.map Prod.fst)[·]?)
      = (matched marked).map some := by
  induction marked generalizing before with
  | nil => rfl
  | cons entry marked ih =>
    obtain ⟨c, used⟩ := entry
    have hrest := ih (before ++ [c])
    rw [List.length_append, List.length_singleton, List.append_assoc, List.singleton_append]
      at hrest
    cases used with
    | false => exact hrest
    | true =>
      have hfirst : matched ((c, true) :: marked) = c :: matched marked := rfl
      rw [hfirst, List.map_cons (f := some), ← hrest]
      simp

theorem zip_flags {symbols : List α} {marked : Marked α} (h : marked.map Prod.fst = symbols) :
    symbols.zip (marked.map Prod.snd) = marked := by
  rw [← h]
  exact (List.zip_of_prod rfl rfl).symm

theorem count_flags (marked : Marked α) : (marked.map Prod.snd).count true = markCount marked := by
  rw [List.count, List.countP_map, markCount]
  refine List.countP_congr fun entry _ => ?_
  simp

/-- The flag at the first of the positions is set, and the others are those behind it. -/
theorem of_setFrom_drop {flags : List Bool} {next j : Nat} {rest : List Nat}
    (h : setFrom next (flags.drop next) = j :: rest) :
    flags[j]? = some true ∧ setFrom (j + 1) (flags.drop (j + 1)) = rest := by
  generalize hlater : flags.drop next = later at h
  induction later generalizing next with
  | nil => cases h
  | cons flag later ih =>
    have hflag : flags[next]? = some flag := by
      rw [← List.head?_drop, hlater, List.head?_cons]
    have htail : flags.drop (next + 1) = later := by
      rw [← List.tail_drop, hlater, List.tail_cons]
    cases flag with
    | false => exact ih htail h
    | true =>
      rw [setFrom_true, List.cons.injEq] at h
      obtain ⟨rfl, rfl⟩ := h
      exact ⟨hflag, by rw [htail]⟩

/-! ### The loop -/

/-- What the loop keeps track of. -/
structure Comparing where
  /-- Where the cursor stands in the right list. -/
  next : Nat
  /-- The number of symbols out of order. -/
  transpositions : Nat
  /-- The positions of the left list so far, each with the position that the cursor found, or none
  if it ran off the end. -/
  compared : List (Nat × Option Nat)

variable [DecidableEq α]

/-- One step of the loop. If the symbol `c` at position `i` is flagged, then the cursor moves on to
the next flagged position of the right list, and the symbol there, if any, is compared with `c`. -/
def compareAt? (right : List α) (flags : Flags) (state : Comparing) (entry : α × Nat) :
    Option Comparing := do
  if ← read? flags.left entry.2 then
    let found ← (List.range' state.next (right.length - state.next)).findM?
      fun j : Nat => read? flags.right j
    let position := found.getD (max state.next right.length)
    return ⟨found.elim state.next (· + 1),
      state.transpositions + if right[position]? = some entry.1 then 0 else 1,
      state.compared ++ [(entry.2, found)]⟩
  else
    return state

/-- The loop. It fails if a flag is read out of bounds. -/
def comparingLoop? (left right : List α) (flags : Flags) : Option Comparing :=
  left.zipIdx.foldlM (compareAt? right flags) ⟨0, 0, []⟩

/-- **The cursor stops at the next set flag**, and runs off the end if there is none. -/
theorem findM?_cursor (flags : List Bool) (next : Nat) :
    (List.range' next (flags.length - next)).findM? (fun j : Nat => read? flags j)
      = some (setFrom next (flags.drop next)).head? := by
  rw [← List.length_drop]
  generalize hlater : flags.drop next = later
  induction later generalizing next with
  | nil => rfl
  | cons flag later ih =>
    have hflag : flags[next]? = some flag := by
      rw [← List.head?_drop, hlater, List.head?_cons]
    have htail : flags.drop (next + 1) = later := by
      rw [← List.tail_drop, hlater, List.tail_cons]
    rw [List.length_cons, List.range'_succ, List.findM?, read?_natCast, hflag]
    cases flag with
    | false => exact ih (next + 1) htail
    | true => rfl

section Step

variable {right : List α} {flags : Flags} {state : Comparing} {c : α} {i : Nat}

theorem compareAt?_of_unset (h : flags.left[i]? = some false) :
    compareAt? right flags state (c, i) = some state := by
  simp [compareAt?, read?_natCast, h]

/-- **A flagged symbol is compared with the next flagged one**, if there is one. -/
theorem compareAt?_of_set (hlength : flags.right.length = right.length)
    (h : flags.left[i]? = some true) {j : Nat} {rest : List Nat}
    (hnext : setFrom state.next (flags.right.drop state.next) = j :: rest) :
    compareAt? right flags state (c, i)
      = some ⟨j + 1, state.transpositions + (if right[j]? = some c then 0 else 1),
        state.compared ++ [(i, some j)]⟩ := by
  have hfound : (List.range' state.next (right.length - state.next)).findM?
      (fun j : Nat => read? flags.right j) = some (some j) := by
    rw [← hlength, findM?_cursor, hnext, List.head?_cons]
  rw [compareAt?, hfound, read?_natCast, h]
  rfl

end Step

/-- The rest of a run, from any position on, if from the cursor on there are enough flags: the
flagged symbols are compared with the symbols at the flagged positions one by one. -/
theorem foldlM_compareAt? {right : List α} (flags : Flags)
    (hlength : flags.right.length = right.length) (marked : Marked α) (i next : Nat)
    (hleft : flags.left.drop i = marked.map Prod.snd)
    (hcount : markCount marked ≤ (setFrom next (flags.right.drop next)).length) (count : Nat)
    (done : List (Nat × Option Nat)) :
    ∃ next', ((marked.map Prod.fst).zipIdx i).foldlM (compareAt? right flags) ⟨next, count, done⟩
      = some ⟨next',
        count + ((matched marked).zip (setFrom next (flags.right.drop next))).countP
          (fun pair => decide (right[pair.2]? ≠ some pair.1)),
        done ++ (setFrom i (marked.map Prod.snd)).zip
          ((setFrom next (flags.right.drop next)).map some)⟩ := by
  induction marked generalizing i next count done with
  | nil => exact ⟨next, by simp [matched]⟩
  | cons entry marked ih =>
    obtain ⟨c, used⟩ := entry
    have hflag : flags.left[i]? = some used := by
      rw [← List.head?_drop, hleft, List.map_cons, List.head?_cons]
    have htail : flags.left.drop (i + 1) = marked.map Prod.snd := by
      rw [← List.tail_drop, hleft, List.map_cons, List.tail_cons]
    rw [List.map_cons, List.zipIdx_cons, List.foldlM_cons]
    rw [markCount_cons] at hcount
    cases used with
    | false =>
      rw [Bool.toNat_false, Nat.add_zero] at hcount
      rw [compareAt?_of_unset hflag]
      exact ih (i + 1) next htail hcount count done
    | true =>
      rw [Bool.toNat_true] at hcount
      obtain ⟨j, rest, hnext⟩ := List.exists_cons_of_length_pos (Nat.zero_lt_of_lt hcount)
      have hrest := (of_setFrom_drop hnext).2
      rw [hnext, List.length_cons, ← hrest] at hcount
      obtain ⟨next', hrun⟩ := ih (i + 1) (j + 1) htail (Nat.le_of_succ_le_succ hcount)
        (count + if right[j]? = some c then 0 else 1) (done ++ [(i, some j)])
      have hfirst : matched ((c, true) :: marked) = c :: matched marked := rfl
      have hdiffers : (if decide (right[j]? ≠ some c) = true then 1 else 0)
          = if right[j]? = some c then 0 else 1 := by
        by_cases h : right[j]? = some c <;> simp [h]
      refine ⟨next', ?_⟩
      rw [compareAt?_of_set hlength hflag hnext, hnext, hfirst, List.zip_cons_cons,
        List.countP_cons, hdiffers, List.map_cons, setFrom_true, List.map_cons, List.zip_cons_cons,
        Nat.add_comm (List.countP _ _), ← Nat.add_assoc, ← hrest]
      rw [List.append_assoc, List.singleton_append] at hrun
      exact hrun

/-! ### Matched symbols -/

/-- A mark on a symbol `c` adds `c` to the matched symbols. -/
theorem matched_mark?_perm {reach : Int} {i j : Nat} {c : α} {right marked : Marked α}
    (h : mark? reach i c j right = some marked) : (matched marked).Perm (c :: matched right) := by
  induction right generalizing j marked with
  | nil => cases h
  | cons entry right ih =>
    obtain ⟨d, used⟩ := entry
    rw [mark?] at h
    split at h
    · next hfirst =>
      obtain ⟨⟨-, rfl⟩, rfl⟩ : (near reach i j = true ∧ used = false) ∧ d = c := by
        simpa using hfirst
      obtain rfl := Option.some.inj h
      exact List.Perm.refl _
    · obtain ⟨marked', hmarked, rfl⟩ := Option.map_eq_some_iff.mp h
      have hrest := ih hmarked
      cases used with
      | false => exact hrest
      | true => exact (hrest.cons d).trans (List.Perm.swap c d _)

/-- A walk adds the same symbols on either side. -/
theorem matched_markFrom_perm (reach : Int) (i : Nat) (left : List α) (right : Marked α) :
    (matched (markFrom reach i left right).2).Perm
      (matched (markFrom reach i left right).1 ++ matched right) := by
  induction left generalizing i right with
  | nil => exact List.Perm.refl _
  | cons c left ih =>
    rw [markFrom]
    cases h : mark? reach i c 0 right with
    | none => exact ih (i + 1) right
    | some marked =>
      exact ((ih (i + 1) marked).trans ((matched_mark?_perm h).append_left _)).trans
        List.perm_middle

/-- **The matched symbols of one list are those of the other**, in some order. -/
theorem matched_matching_perm (left right : List α) :
    (matched (matching left right).1).Perm (matched (matching left right).2) := by
  have hnone : matched (right.map (·, false)) = [] := by simp [matched]
  have hperm := matched_markFrom_perm (reach left right) 0 left (right.map (·, false))
  rw [hnone, List.append_nil] at hperm
  exact hperm.symm

theorem eq_of_countP_eq_zero {xs ys : List α} (hlength : xs.length = ys.length)
    (h : (xs.zip ys).countP (fun pair => decide (pair.1 ≠ pair.2)) = 0) : xs = ys := by
  rw [List.countP_eq_zero] at h
  calc xs = (xs.zip ys).map Prod.fst := (List.map_fst_zip hlength.le).symm
    _ = (xs.zip ys).map Prod.snd :=
      List.map_congr_left fun pair hpair => by simpa using h pair hpair
    _ = ys := List.map_snd_zip hlength.ge

/-- If lists differ at one place, then one of them has a symbol once more than the other. -/
theorem exists_count_of_countP_eq_one {xs ys : List α} (hlength : xs.length = ys.length)
    (h : (xs.zip ys).countP (fun pair => decide (pair.1 ≠ pair.2)) = 1) :
    ∃ c, xs.count c = ys.count c + 1 := by
  induction xs generalizing ys with
  | nil => cases h
  | cons x xs ih =>
    cases ys with
    | nil => cases h
    | cons y ys =>
      rw [List.length_cons, List.length_cons, Nat.succ_inj] at hlength
      rw [List.zip_cons_cons, List.countP_cons] at h
      by_cases hxy : x = y
      · subst hxy
        obtain ⟨c, hc⟩ := ih hlength (by simpa using h)
        refine ⟨c, ?_⟩
        rw [List.count_cons, List.count_cons, hc]
        omega
      · obtain rfl := eq_of_countP_eq_zero hlength (by simpa [hxy] using h)
        refine ⟨x, ?_⟩
        rw [List.count_cons_self, List.count_cons_of_ne (Ne.symm hxy)]

/-- **Rearranged lists do not differ at one place only.** -/
theorem countP_ne_one_of_perm {xs ys : List α} (h : xs.Perm ys) :
    (xs.zip ys).countP (fun pair => decide (pair.1 ≠ pair.2)) ≠ 1 := by
  intro hone
  obtain ⟨c, hc⟩ := exists_count_of_countP_eq_one h.length_eq hone
  rw [h.count_eq c] at hc
  omega

/-! ### The whole loop -/

/-- Differences from the symbols at the set positions are differences from the matched symbols. -/
theorem countP_setFrom (symbols : List α) (marked : Marked α) :
    (symbols.zip (setFrom 0 (marked.map Prod.snd))).countP
        (fun pair => decide ((marked.map Prod.fst)[pair.2]? ≠ some pair.1))
      = (symbols.zip (matched marked)).countP fun pair => decide (pair.1 ≠ pair.2) := by
  have hsymbols := map_getElem?_setFrom [] marked
  calc (symbols.zip (setFrom 0 (marked.map Prod.snd))).countP
        (fun pair => decide ((marked.map Prod.fst)[pair.2]? ≠ some pair.1))
      = (symbols.zip ((setFrom 0 (marked.map Prod.snd)).map ((marked.map Prod.fst)[·]?))).countP
          fun pair => decide (pair.2 ≠ some pair.1) := by
        rw [List.zip_map_right, List.countP_map]
        rfl
    _ = (symbols.zip ((matched marked).map some)).countP
          fun pair => decide (pair.2 ≠ some pair.1) := by rw [← hsymbols]; rfl
    _ = (symbols.zip (matched marked)).countP fun pair => decide (pair.1 ≠ pair.2) := by
        rw [List.zip_map_right, List.countP_map]
        refine List.countP_congr fun pair _ => ?_
        show decide (some pair.2 ≠ some pair.1) = true ↔ _
        rw [decide_eq_true_iff, decide_eq_true_iff, ne_comm, ne_eq, Option.some_inj]

/-- **The second loop after the first** compares the set positions one by one. -/
theorem comparingLoop?_eq (left right : List α) :
    let l := (matching left right).1
    let r := (matching left right).2
    ∃ next, comparingLoop? left right ⟨l.map Prod.snd, r.map Prod.snd, markCount l⟩
      = some ⟨next, ((matched l).zip (matched r)).countP (fun pair => decide (pair.1 ≠ pair.2)),
        (setFrom 0 (l.map Prod.snd)).zip ((setFrom 0 (r.map Prod.snd)).map some)⟩ := by
  intro l r
  have hleft : l.map Prod.fst = left := symbols_matching_fst left right
  have hright : r.map Prod.fst = right := symbols_matching_snd left right
  have hlength : (r.map Prod.snd).length = right.length := by
    rw [← hright, List.length_map, List.length_map]
  have hcount : markCount l ≤ (setFrom 0 (r.map Prod.snd)).length := by
    rw [length_setFrom]
    exact (markCount_matching left right).ge
  obtain ⟨next, hrun⟩ := foldlM_compareAt? ⟨l.map Prod.snd, r.map Prod.snd, markCount l⟩ hlength l
    0 0 rfl hcount 0 []
  have hdiffer := countP_setFrom (matched l) r
  rw [hright] at hdiffer
  rw [List.drop_zero, hdiffer, hleft, Nat.zero_add, List.nil_append] at hrun
  exact ⟨next, hrun⟩

/-- **Matched symbols are compared in order.** After the first loop either list has as many flags as
there are matches. In the second loop the cursor always finds a flagged position, and the flagged
positions of the two lists are compared one by one: the first with the first, and so on. The symbols
there are the matched symbols of the one list and those of the other, which are the same symbols in
some order. So the symbols out of order are counted by the places where the two differ, as the score
has it, and there is never exactly one. -/
theorem compared_in_order (left right : List α) :
    ∃ l r flags state, matching left right = (l, r)
      ∧ matchingLoop? left right = some flags
      ∧ comparingLoop? left right flags = some state
      ∧ (left.zip flags.left = l ∧ right.zip flags.right = r)
      ∧ (flags.left.count true = flags.count ∧ flags.right.count true = flags.count)
      ∧ state.compared = (setFrom 0 flags.left).zip ((setFrom 0 flags.right).map some)
      ∧ (∀ pair ∈ state.compared, ∃ j, pair.2 = some j ∧ flags.right[j]? = some true)
      ∧ ((setFrom 0 flags.left).map (left[·]?) = (matched l).map some
        ∧ (setFrom 0 flags.right).map (right[·]?) = (matched r).map some)
      ∧ (matched l).Perm (matched r)
      ∧ state.transpositions
        = ((matched l).zip (matched r)).countP (fun pair => decide (pair.1 ≠ pair.2))
      ∧ state.transpositions = transpositions l r
      ∧ state.transpositions ≠ 1 := by
  let l := (matching left right).1
  let r := (matching left right).2
  have hleft : l.map Prod.fst = left := symbols_matching_fst left right
  have hright : r.map Prod.fst = right := symbols_matching_snd left right
  have hcount : markCount r = markCount l := markCount_matching left right
  have hperm : (matched l).Perm (matched r) := matched_matching_perm left right
  have hleftSymbols := map_getElem?_setFrom [] l
  have hrightSymbols := map_getElem?_setFrom [] r
  rw [List.nil_append, hleft] at hleftSymbols
  rw [List.nil_append, hright] at hrightSymbols
  obtain ⟨next, hrun⟩ := comparingLoop?_eq left right
  refine ⟨l, r, _, _, rfl, matchingLoop?_eq left right, hrun, ⟨zip_flags hleft, zip_flags hright⟩,
    ⟨count_flags l, (count_flags r).trans hcount⟩, rfl, fun pair hpair => ?_,
    ⟨hleftSymbols, hrightSymbols⟩, hperm, rfl, (transpositions_eq_countP hcount).symm,
    countP_ne_one_of_perm hperm⟩
  obtain ⟨j, hj, hfound⟩ := List.mem_map.mp (List.of_mem_zip hpair).2
  exact ⟨j, hfound.symm, mem_setFrom_zero.mp hj⟩

/-- Of two letters that cross, each is compared with the other, and both are out of order. -/
theorem compared_in_order_crossing :
    ∃ flags state, matchingLoop? "martha".toList "marhta".toList = some flags
      ∧ comparingLoop? "martha".toList "marhta".toList flags = some state
      ∧ state.compared
        = [(0, some 0), (1, some 1), (2, some 2), (3, some 3), (4, some 4), (5, some 5)]
      ∧ (∃ j, some 3 = some j ∧ flags.right[j]? = some true)
      ∧ state.transpositions = 2 := by
  obtain ⟨l, r, flags, state, hmatching, hflags, hstate, -, -, hcompared, hfound, -, -, hcount, -⟩ :=
    compared_in_order "martha".toList "marhta".toList
  have hset : matchingLoop? "martha".toList "marhta".toList
      = some ⟨List.replicate 6 true, List.replicate 6 true, 6⟩ := rfl
  obtain rfl := Option.some.inj (hset.symm.trans hflags)
  obtain ⟨rfl, rfl⟩ := Prod.mk.inj hmatching
  have hpairs := hcompared.trans (rfl : _
    = [(0, some 0), (1, some 1), (2, some 2), (3, some 3), (4, some 4), (5, some 5)])
  exact ⟨_, state, hflags, hstate, hpairs, hfound (3, some 3) (by rw [hpairs]; decide),
    hcount.trans rfl⟩

end Similarity

end RecordQuery
