import RecordQuery.Scale

/-!
# Jaro–Winkler similarity

How alike two lists of symbols are, as a score from zero to one. A symbol of the left list matches
an equal symbol of the right one if their positions are close: at most half the longer length,
less one, apart. Matching is greedy from left to right, each symbol being used once. The score
averages the matched share of either list and the share of matches that are in order; lists that
are alike enough get a bonus for what they share at the start.

## Main definitions

* `Similarity.reach` — how far apart matching positions may be
* `Similarity.markFrom` — the greedy matching, as marks on both lists
* `Similarity.transpositions` — matched symbols that are out of order
* `Similarity.jaroWinkler` — the score, in any `Scale`

## Main results

* `Similarity.symbols_markFrom_fst`, `symbols_markFrom_snd` — matching only sets marks
-/

namespace RecordQuery

namespace Similarity

variable {α : Type} [DecidableEq α]

/-! ### Matching -/

/-- A list of symbols, each marked with whether it is matched. -/
abbrev Marked (α : Type) := List (α × Bool)

/-- How far apart the positions of matching symbols may be. It is `-1` if neither list has a second
symbol: then nothing matches. -/
def reach (left right : List α) : Int :=
  ((max left.length right.length / 2 : Nat) : Int) - 1

/-- Whether two positions are within reach of each other. -/
def near (reach : Int) (i j : Nat) : Bool := (i : Int) - j ≤ reach && (j : Int) - i ≤ reach

/-- Marks the first unmarked occurrence of `c` within reach of position `i`, if there is one. The
head of the list is at position `j`. -/
def mark? (reach : Int) (i : Nat) (c : α) (j : Nat) : Marked α → Option (Marked α)
  | [] => none
  | (d, used) :: rest =>
    if near reach i j && !used && d == c then some ((d, true) :: rest)
    else (mark? reach i c (j + 1) rest).map ((d, used) :: ·)

/-- Matches the symbols of the left list one after the other, the head being at position `i`, with
unmarked symbols of the right list. The outcome has the marks of both lists. -/
def markFrom (reach : Int) (i : Nat) : List α → Marked α → Marked α × Marked α
  | [], right => ([], right)
  | c :: rest, right =>
    match mark? reach i c 0 right with
    | none =>
      let (left, right) := markFrom reach (i + 1) rest right
      ((c, false) :: left, right)
    | some right =>
      let (left, right) := markFrom reach (i + 1) rest right
      ((c, true) :: left, right)

/-- Marking changes no symbol. -/
theorem symbols_mark? {reach : Int} {i j : Nat} {c : α} {right marked : Marked α}
    (h : mark? reach i c j right = some marked) :
    marked.map Prod.fst = right.map Prod.fst := by
  induction right generalizing j marked with
  | nil => simp [mark?] at h
  | cons entry rest ih =>
    obtain ⟨d, used⟩ := entry
    simp only [mark?] at h
    split at h
    · rw [← Option.some.inj h]
      rfl
    · obtain ⟨marked', hm, rfl⟩ := Option.map_eq_some_iff.mp h
      simp [ih hm]

/-- The left marks stand on the symbols of the left list. -/
theorem symbols_markFrom_fst (reach : Int) (i : Nat) (left : List α) (right : Marked α) :
    (markFrom reach i left right).1.map Prod.fst = left := by
  induction left generalizing i right with
  | nil => rfl
  | cons c rest ih =>
    simp only [markFrom]
    split <;> simp [ih]

/-- The right marks stand on the symbols of the right list. -/
theorem symbols_markFrom_snd (reach : Int) (i : Nat) (left : List α) (right : Marked α) :
    (markFrom reach i left right).2.map Prod.fst = right.map Prod.fst := by
  induction left generalizing i right with
  | nil => rfl
  | cons c rest ih =>
    simp only [markFrom]
    split
    · exact ih _ _
    · next h => rw [ih, symbols_mark? h]

/-- The greedy matching of two lists. -/
def matching (left right : List α) : Marked α × Marked α :=
  markFrom (reach left right) 0 left (right.map (·, false))

/-- The number of marked symbols. -/
def markCount (marked : Marked α) : Nat := marked.countP Prod.snd

/-- The number of matched symbols that are out of order. The matched symbols of the left list are
taken one by one, and each is compared with the next matched symbol of the right list. -/
def transpositions : Marked α → Marked α → Nat
  | [], _ => 0
  | (_, false) :: left, right => transpositions left right
  | (c, true) :: left, right =>
    match right.dropWhile (!·.2) with
    | [] => transpositions left right + 1
    | (d, _) :: rest => transpositions left rest + if d = c then 0 else 1

/-! ### Score -/

/-- The longest shared start that counts. -/
def startLimit : Nat := 4

/-- The length of the shared start of two lists, as far as it counts. -/
def sharedStart (left right : List α) : Nat :=
  (((left.zip right).take startLimit).takeWhile fun (c, d) => c == d).length

variable (S : Type) [Scale S]

/-- The score of `k` matches with `t` symbols out of order between lists of the given lengths: the
mean of three shares. -/
def weight (k t left right : Nat) : S :=
  ((k : S) / (left : S) + (k : S) / (right : S) + ((k : S) - (t : S) / ((2 : Nat) : S)) / (k : S))
    / ((3 : Nat) : S)

/-- Above a score of `0.7`, each symbol of the shared start closes a tenth of the gap to one. -/
def boosted (score : S) (shared : Nat) : S :=
  if (0.7 : S) < score then score + (shared : S) * (0.1 : S) * (((1 : Nat) : S) - score) else score

/-- How alike two lists are. Nothing is like the empty list, and only equal lists are fully
alike. -/
def jaroWinkler (left right : List α) : S :=
  if left.isEmpty || right.isEmpty then ((0 : Nat) : S)
  else if left = right then ((1 : Nat) : S)
  else
    let (l, r) := matching left right
    if markCount l = 0 then ((0 : Nat) : S)
    else
      boosted S (weight S (markCount l) (transpositions l r) left.length right.length)
        (sharedStart left right)

end Similarity

end RecordQuery
