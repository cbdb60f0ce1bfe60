import RecordQuery.Proofs.Fuzzy.Pairing

/-!
# Matching as a loop over positions

A program matches two lists by position. It has a list of flags for either side and computes for
each symbol of the left list where its window in the right list begins and ends, in signed
arithmetic and cut off at the ends of the list. Then it looks through the window for a free equal
symbol. Every access to a list or to its flags could go wrong: the position might be negative or too
large.

The loop here is that program with *checked* accesses, so that one access out of bounds makes the
whole run fail. It is shown that it never fails and that its flags are the marks of
`Similarity.matching`. Two facts carry this. A window consists of the positions within reach that
the right list has, whatever was cut off. And the first position of a window that passes a test is
the first position within reach that does.

## Marks and flags

Marks and flags are the same data, kept in two ways. A `Marked` list has each symbol beside its
mark. The loop has symbols and flags in lists of their own, as two projections of a `Marked` list,
and the invariant of the loop says exactly that. It also has the part of the left list that is done
already: its flags are final, and those of the rest are not set.

## What could go wrong

* The start of a window is a difference that may be negative.
* The end of a window is before its start if nothing is within reach, and for an empty right list
  it is minus one.
* The search reads a flag first and the symbol only if that is not set.

`Similarity.mem_window` settles the first two for all lists. Reaches of minus one are no special
case: the window is empty.

## Main definitions

* `Similarity.read?`, `Similarity.write?` — accesses that fail out of bounds
* `Similarity.window` — the positions that are looked at
* `Similarity.matchingLoop?` — the loop

## Main results

* `Similarity.mem_window` — what a window consists of
* `Similarity.matchAt?_eq` — one step of the loop
* `Similarity.matchingLoop?_eq` — the loop stays in bounds and makes the matching
-/

namespace RecordQuery

namespace Similarity

variable {α β : Type}

/-! ### Checked accesses -/

/-- The entry at a position, unless that is out of bounds. -/
def read? (entries : List β) (position : Int) : Option β :=
  if 0 ≤ position then entries[position.toNat]? else none

/-- Replaces the entry at a position, unless that is out of bounds. -/
def write? (entries : List β) (position : Int) (entry : β) : Option (List β) :=
  (read? entries position).map fun _ => entries.set position.toNat entry

theorem read?_natCast (entries : List β) (k : Nat) : read? entries k = entries[k]? := by
  simp [read?]

theorem write?_natCast {entries : List β} {k : Nat} (h : k < entries.length) (entry : β) :
    write? entries k entry = some (entries.set k entry) := by
  simp [write?, read?_natCast, h]

/-! ### Windows -/

/-- The first position that is looked at for position `i`. -/
def windowStart (reach : Int) (i : Nat) : Int := if reach ≤ i then i - reach else 0

/-- The last position that is looked at for position `i`, in a list of the given length. -/
def windowEnd (reach : Int) (length i : Nat) : Int := min (i + reach) (length - 1)

/-- The positions that are looked at for position `i`, in a list of the given length. There are none
if the last one is before the first one. -/
def window (reach : Int) (length i : Nat) : List Int :=
  (List.range (windowEnd reach length i + 1 - windowStart reach i).toNat).map
    fun offset : Nat => windowStart reach i + offset

/-- **A window consists of the positions within reach** that the list has. -/
theorem mem_window {reach : Int} {length i : Nat} {j : Int} :
    j ∈ window reach length i ↔ 0 ≤ j ∧ j < length ∧ near reach i j.toNat = true := by
  simp only [window, List.mem_map, List.mem_range, near, Bool.and_eq_true, decide_eq_true_eq,
    windowEnd, windowStart]
  constructor
  · rintro ⟨offset, hoffset, rfl⟩
    split at * <;> omega
  · intro hj
    refine ⟨(j - windowStart reach i).toNat, ?_⟩
    simp only [windowStart]
    split <;> omega

/-- The first position of a window that passes a test. -/
theorem find?_window {reach : Int} {length i k : Nat} {test : Int → Bool}
    (hk : (k : Int) ∈ window reach length i) (hpass : test k = true)
    (hearlier : ∀ l : Nat, l < k → (l : Int) ∈ window reach length i → test l = false) :
    (window reach length i).find? test = some (k : Int) := by
  obtain ⟨offset, hoffset, hk'⟩ := List.mem_map.mp hk
  have hfirst : (List.range (windowEnd reach length i + 1 - windowStart reach i).toNat).find?
      (test ∘ fun offset : Nat => windowStart reach i + offset) = some offset := by
    rw [List.find?_range_eq_some]
    refine ⟨by rw [Function.comp_apply, hk', hpass], hoffset, fun offset' hlt => ?_⟩
    have hmem : windowStart reach i + offset' ∈ window reach length i :=
      List.mem_map_of_mem (List.mem_range.mpr (hlt.trans (List.mem_range.mp hoffset)))
    obtain ⟨l, hl⟩ := Int.eq_ofNat_of_zero_le (mem_window.mp hmem).1
    rw [Function.comp_apply, hl, hearlier l (by omega) (hl ▸ hmem)]
    rfl
  rw [window, List.find?_map, hfirst, Option.map_some, hk']

/-! ### The loop -/

/-- What the loop keeps track of. -/
structure Flags where
  /-- Which symbols of the left list are matched. -/
  left : List Bool
  /-- Which symbols of the right list are matched. -/
  right : List Bool
  /-- The number of matches. -/
  count : Nat

variable [DecidableEq α]

/-- Whether a position of the right list holds the symbol `c` and is not matched yet. The symbol is
not looked at if it is. -/
def free? (right : List α) (flags : List Bool) (c : α) (j : Int) : Option Bool := do
  if ← read? flags j then return false
  else return (← read? right j) == c

/-- One step of the loop: a symbol of the left list, with its position, is matched with the first
free position of its window, if there is one. -/
def matchAt? (reach : Int) (right : List α) (flags : Flags) (entry : α × Nat) : Option Flags := do
  match ← (window reach right.length entry.2).findM? (free? right flags.right entry.1) with
  | none => return flags
  | some j =>
    return ⟨← write? flags.left entry.2 true, ← write? flags.right j true, flags.count + 1⟩

/-- The loop. It fails if one of its accesses is out of bounds. -/
def matchingLoop? (left right : List α) : Option Flags :=
  left.zipIdx.foldlM (matchAt? (reach left right) right)
    ⟨List.replicate left.length false, List.replicate right.length false, 0⟩

/-! ### One step -/

section Step

variable {reach : Int} {i : Nat} {c : α} {marked marked' : Marked α}

theorem free?_of_lt {k : Nat} (h : k < marked.length) (c : α) :
    free? (marked.map Prod.fst) (marked.map Prod.snd) c k
      = some (decide (marked[k]? = some (c, false))) := by
  obtain ⟨⟨d, used⟩, hentry⟩ : ∃ entry, marked[k]? = some entry := ⟨_, List.getElem?_eq_getElem h⟩
  cases used <;> simp [free?, read?_natCast, hentry, beq_eq_decide]

omit [DecidableEq α] in
/-- A search through entries that all can be tested succeeds. -/
theorem findM?_eq_find? {test? : β → Option Bool} {test : β → Bool} {entries : List β}
    (h : ∀ entry ∈ entries, test? entry = some (test entry)) :
    entries.findM? test? = some (entries.find? test) := by
  induction entries with
  | nil => rfl
  | cons entry entries ih =>
    obtain ⟨hentry, hentries⟩ := List.forall_mem_cons.mp h
    rw [List.findM?, hentry, List.find?, ih hentries]
    cases test entry <;> rfl

theorem findM?_window (reach : Int) (i : Nat) (c : α) (marked : Marked α) :
    (window reach marked.length i).findM? (free? (marked.map Prod.fst) (marked.map Prod.snd) c)
      = some ((window reach marked.length i).find?
        fun j => decide (marked[j.toNat]? = some (c, false))) := by
  refine findM?_eq_find? fun j hj => ?_
  obtain ⟨hzero, hlt, -⟩ := mem_window.mp hj
  obtain ⟨k, rfl⟩ := Int.eq_ofNat_of_zero_le hzero
  rw [free?_of_lt (by omega), Int.toNat_natCast]

theorem find?_of_mark?_eq_none (h : mark? reach i c 0 marked = none) :
    (window reach marked.length i).find?
      (fun j => decide (marked[j.toNat]? = some (c, false))) = none := by
  rw [List.find?_eq_none]
  intro j hj hfree
  have hfar := near_of_mark?_eq_none h (of_decide_eq_true hfree)
  rw [Nat.zero_add, (mem_window.mp hj).2.2] at hfar
  cases hfar

theorem find?_of_mark?_eq_some (h : mark? reach i c 0 marked = some marked') :
    ∃ k < marked.length, marked' = marked.set k (c, true)
      ∧ (window reach marked.length i).find?
        (fun j => decide (marked[j.toNat]? = some (c, false))) = some (k : Int) := by
  obtain ⟨k, hfree, hnear, hearlier, rfl⟩ := exists_of_mark?_eq_some h
  have hlt : k < marked.length := (List.getElem?_eq_some_iff.mp hfree).1
  rw [Nat.zero_add] at hnear
  have hmem : (k : Int) ∈ window reach marked.length i :=
    mem_window.mpr ⟨by omega, by omega, hnear⟩
  refine ⟨k, hlt, rfl, find?_window hmem (decide_eq_true hfree) fun l hl hmem' => ?_⟩
  rw [decide_eq_false_iff_not]
  intro hfree'
  have hfar := hearlier l hl hfree'
  rw [Nat.zero_add, ← Int.toNat_natCast l, (mem_window.mp hmem').2.2] at hfar
  cases hfar

/-- **One step of the loop** stays in bounds and marks what a step of the walk marks. -/
theorem matchAt?_eq {flags : List Bool} {count : Nat} (hi : i < flags.length) :
    matchAt? reach (marked.map Prod.fst) ⟨flags, marked.map Prod.snd, count⟩ (c, i)
      = some (match mark? reach i c 0 marked with
        | none => ⟨flags, marked.map Prod.snd, count⟩
        | some marked' => ⟨flags.set i true, marked'.map Prod.snd, count + 1⟩) := by
  rw [matchAt?, List.length_map, findM?_window]
  cases h : mark? reach i c 0 marked with
  | none =>
    rw [find?_of_mark?_eq_none h]
    rfl
  | some marked' =>
    obtain ⟨k, hk, rfl, hfind⟩ := find?_of_mark?_eq_some h
    have hk' : k < (marked.map Prod.snd).length := by rwa [List.length_map]
    simp only [hfind, write?_natCast hi, write?_natCast hk', List.map_set, Option.bind_eq_bind,
      Option.bind_some, Option.pure_def]

end Step

/-! ### The whole loop -/

/-- The rest of a run, from any position on: the flags before it stay, and those from it on are the
marks of the walk through the rest. -/
theorem foldlM_matchAt? (reach : Int) (rest : List α) (marked : Marked α) (done : List Bool)
    (count : Nat) :
    (rest.zipIdx done.length).foldlM (matchAt? reach (marked.map Prod.fst))
        ⟨done ++ List.replicate rest.length false, marked.map Prod.snd, count⟩
      = some ⟨done ++ (markFrom reach done.length rest marked).1.map Prod.snd,
          (markFrom reach done.length rest marked).2.map Prod.snd,
          count + markCount (markFrom reach done.length rest marked).1⟩ := by
  induction rest generalizing done marked count with
  | nil => simp [markFrom, markCount]
  | cons c rest ih =>
    have hi : done.length < (done ++ List.replicate (c :: rest).length false).length := by simp
    rw [List.zipIdx_cons, List.foldlM_cons, matchAt?_eq hi, markFrom]
    cases h : mark? reach done.length c 0 marked with
    | none =>
      have hrest := ih marked (done ++ [false]) count
      rw [List.length_append, List.length_singleton, List.append_assoc, List.append_assoc] at hrest
      simpa [markCount_cons, List.replicate_succ] using hrest
    | some marked' =>
      have hset : (done ++ List.replicate (c :: rest).length false).set done.length true
          = done ++ ([true] ++ List.replicate rest.length false) := by
        simp [List.replicate_succ]
      have hrest := ih marked' (done ++ [true]) (count + 1)
      rw [List.length_append, List.length_singleton, symbols_mark? h, List.append_assoc,
        List.append_assoc, ← hset] at hrest
      simpa [markCount_cons, Nat.add_assoc, Nat.add_comm 1] using hrest

/-- **The loop stays in bounds and makes the matching**: its flags are the marks, and it counts
them. -/
theorem matchingLoop?_eq (left right : List α) :
    matchingLoop? left right = some ⟨(matching left right).1.map Prod.snd,
      (matching left right).2.map Prod.snd, markCount (matching left right).1⟩ := by
  have hrun := foldlM_matchAt? (reach left right) left (right.map (·, false)) [] 0
  have hsymbols : (right.map (·, false)).map Prod.fst = right := by
    rw [List.map_map]
    exact List.map_id right
  rw [hsymbols] at hrun
  simpa [matchingLoop?, matching, Function.comp_def] using hrun

end Similarity

end RecordQuery
