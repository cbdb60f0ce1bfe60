import RecordQuery.Proofs.Grouping.Classes

/-!
# The frontier

Grouping by several columns changes one tree in place, level after level. Between two levels the
only memory is a frontier of paths: a path that leads nowhere, and a key without a leaf, are passed
over in silence. So the loop is right only as long as its frontier is. The invariant that keeps it
so has two sides:

* the tree is *layered*, which means that all its leaves are at the same depth, and the keys of
  every branch are different (`Part.Layered`);
* the frontier is the list of all paths to the lowest branches, in order (`Part.frontier`).

Then one round of the loop splits every leaf of the tree and does nothing else, and its outcome has
the invariant one level further down.

## Passing over, or raising an alarm

`Grouping.deepenOr` is the loop with a choice of what to do where it would pass something over. The
round is computed for every choice at once, so the choice is never exercised.

## One round, piece by piece

A round works off the frontier path by path. Each path is followed from the root, the leaves below
it are split, and the root is replaced by a tree with the split leaves in their place. To see what
the round does to the whole tree, the frontier is cut up:

* along the list, since two parts of a frontier are worked off one after the other
  (`Grouping.deepenOr_append`);
* along the tree, since paths that begin with one key are worked off inside the branch under that
  key (`Grouping.deepenOr_map_cons`);
* at the bottom, where the only path is the empty one and the leaves are the entries themselves
  (`Grouping.splitLeavesOr_keys`).

The induction is on the depth of the tree, and inside it on the entries that are still to do. Those
that are done stand in front of them with other keys, so that a look-up finds the right entry
(`Entries.lookup_append_cons`, `Entries.put_append_cons`). This is what distinct keys are needed
for.

## Implementation notes

`Part.refine` says what a round should do. It splits leaves where they are, without paths, and fails
with the first leaf that cannot be split. The equation for a round includes the failures, since the
loop comes to the leaves in the same order.

## Main results

* `Part.layered_refine` — splitting all leaves keeps the tree layered
* `Grouping.deepenOr_frontier` — one round of the loop splits all leaves, whatever the choice
-/

namespace RecordQuery

/-! ### Entries with different keys -/

namespace Entries

variable {α : Type} {key : String} {before after : Entries α}

theorem keys_append (left right : Entries α) : keys (left ++ right) = keys left ++ keys right :=
  List.map_append

/-- The first entry with a key is found whatever follows. -/
theorem lookup_append_cons (h : key ∉ keys before) (value : α) :
    (before ++ (key, value) :: after).lookup key = some value := by
  induction before with
  | nil => simp
  | cons entry before ih =>
    obtain ⟨k, v⟩ := entry
    rw [keys_cons, List.mem_cons, not_or] at h
    rw [List.cons_append, lookup_cons_eq, if_neg h.1, ih h.2]

theorem put_append_cons (h : key ∉ keys before) (value other : α) :
    put key other (before ++ (key, value) :: after) = before ++ (key, other) :: after := by
  induction before with
  | nil => simp [put]
  | cons entry before ih =>
    rw [keys_cons, List.mem_cons, not_or] at h
    rw [List.cons_append, put, if_neg (Ne.symm h.1), ih h.2, List.cons_append]

theorem put_put (value other : α) (entries : Entries α) :
    put key other (put key value entries) = put key other entries := by
  induction entries with
  | nil => simp [put]
  | cons entry rest ih =>
    by_cases h : entry.1 = key
    · simp [put, h]
    · simp [put, h, ih]

theorem put_of_lookup {value : α} {entries : Entries α} (h : entries.lookup key = some value) :
    put key value entries = entries := by
  induction entries with
  | nil => cases h
  | cons entry rest ih =>
    obtain ⟨k, v⟩ := entry
    rw [lookup_cons_eq] at h
    by_cases hk : key = k
    · rw [if_pos hk] at h
      rw [put, if_pos hk.symm, Option.some.inj h]
    · rw [if_neg hk] at h
      rw [put, if_neg (Ne.symm hk), ih h]

theorem key_notMem_of_nodup {value : α} (h : (keys (before ++ (key, value) :: after)).Nodup) :
    key ∉ keys before := by
  rw [keys_append, keys_cons] at h
  intro hmem
  exact (List.nodup_append.mp h).2.2 key hmem key List.mem_cons_self rfl

theorem keys_eq_of_forall₂ {β : Type} {old : Entries α} {new : Entries β}
    (h : List.Forall₂ (fun old new => new.1 = old.1) old new) : keys new = keys old := by
  induction h with
  | nil => rfl
  | cons hfirst _ ih => rw [keys_cons, keys_cons, hfirst, ih]

end Entries

namespace Part

/-! ### Splitting all leaves -/

mutual

/-- Splits every leaf of a part by a column, one after the other. -/
def refine (c : Column) : Part → Except QueryError Part
  | .leaf records => return (← records.split c).toPart
  | .branch entries => return .branch (← refineEntries c entries)

/-- Splits every leaf of some entries. -/
def refineEntries (c : Column) :
    List (String × Part) → Except QueryError (List (String × Part))
  | [] => return []
  | (key, part) :: rest => do
    let part ← part.refine c
    return (key, part) :: (← refineEntries c rest)

end

/-- The parts are refined one by one, and keep their keys. -/
theorem refineEntries_eq_ok_iff {c : Column} {entries refined : List (String × Part)} :
    refineEntries c entries = .ok refined
      ↔ List.Forall₂ (fun old new => new.1 = old.1 ∧ old.2.refine c = .ok new.2)
          entries refined := by
  induction entries generalizing refined with
  | nil => rw [refineEntries, pure_eq_ok_iff, List.forall₂_nil_left_iff, eq_comm]
  | cons entry rest ih =>
    obtain ⟨key, part⟩ := entry
    rw [refineEntries, List.forall₂_cons_left_iff]
    simp only [bind_eq_ok_iff, pure_eq_ok_iff, ih]
    constructor
    · rintro ⟨new, hnew, rest', hrest, rfl⟩
      exact ⟨(key, new), rest', ⟨rfl, hnew⟩, hrest, rfl⟩
    · rintro ⟨⟨_, new⟩, rest', ⟨rfl, hnew⟩, hrest, rfl⟩
      exact ⟨new, hnew, rest', hrest, rfl⟩

theorem keys_refineEntries {c : Column} {entries refined : List (String × Part)}
    (h : refineEntries c entries = .ok refined) : Entries.keys refined = Entries.keys entries :=
  Entries.keys_eq_of_forall₂ ((refineEntries_eq_ok_iff.mp h).imp fun _ _ h => h.1)

/-! ### Layered trees -/

/-- All leaves of the part are `depth` steps down, and keys differ in every branch. -/
def Layered : Nat → Part → Prop
  | 0, .leaf _ => True
  | depth + 1, .branch entries =>
    (Entries.keys entries).Nodup ∧ ∀ entry ∈ entries, entry.2.Layered depth
  | _, _ => False

/-- The paths of the branches `depth` steps below a part, in order. -/
def frontier : Nat → Part → List (List String)
  | 0, _ => [[]]
  | depth + 1, .branch entries =>
    entries.flatMap fun (key, part) => (part.frontier depth).map (key :: ·)
  | _ + 1, .leaf _ => []

theorem frontier_cons (depth : Nat) (key : String) (part : Part) (rest : List (String × Part)) :
    (branch ((key, part) :: rest)).frontier (depth + 1)
      = (part.frontier depth).map (key :: ·) ++ (branch rest).frontier (depth + 1) := rfl

theorem frontier_one (entries : List (String × Part)) :
    (branch entries).frontier 1 = (Entries.keys entries).map ([·]) := by
  induction entries with
  | nil => rfl
  | cons entry rest ih => rw [frontier_cons, ih]; rfl

theorem Layered.exists_leaf {part : Part} (h : part.Layered 0) :
    ∃ records, part = .leaf records := by
  cases part with
  | leaf records => exact ⟨records, rfl⟩
  | branch entries => exact h.elim

theorem Layered.exists_branch {part : Part} {depth : Nat} (h : part.Layered (depth + 1)) :
    ∃ entries, part = .branch entries := by
  cases part with
  | leaf records => exact h.elim
  | branch entries => exact ⟨entries, rfl⟩

/-- The classes of a column, each as a leaf, are one layer. -/
theorem layered_split {records : Records} {c : Column} {grouping : Grouping}
    (h : records.split c = .ok grouping) : grouping.toPart.Layered 1 := by
  simp only [Records.split_eq, Records.classes, bind_eq_ok_iff, pure_eq_ok_iff] at h
  obtain ⟨classes, ⟨keys, -, rfl⟩, rfl⟩ := h
  refine ⟨?_, fun entry hentry => ?_⟩
  · have hkeys := Entries.keys_gather (keys.zip records.toList)
    simp only [Entries.keys, List.map_map, Function.comp_def] at hkeys ⊢
    rw [hkeys]
    exact nodup_eraseDups _
  · obtain ⟨_, _, rfl⟩ := List.mem_map.mp hentry
    exact trivial

/-- **Splitting all leaves of a layered tree adds a layer.** -/
theorem layered_refine {c : Column} {depth : Nat} {part refined : Part} (hl : part.Layered depth)
    (h : part.refine c = .ok refined) : refined.Layered (depth + 1) := by
  induction depth generalizing part refined with
  | zero =>
    obtain ⟨records, rfl⟩ := hl.exists_leaf
    simp only [refine, bind_eq_ok_iff, pure_eq_ok_iff] at h
    obtain ⟨grouping, hsplit, rfl⟩ := h
    exact layered_split hsplit
  | succ depth ih =>
    obtain ⟨entries, rfl⟩ := hl.exists_branch
    simp only [refine, bind_eq_ok_iff, pure_eq_ok_iff] at h
    obtain ⟨entries', hentries, rfl⟩ := h
    refine ⟨keys_refineEntries hentries ▸ hl.1, fun entry' hentry' => ?_⟩
    obtain ⟨entry, hentry, -, hrefine⟩ :=
      exists_of_mem_forall₂ (refineEntries_eq_ok_iff.mp hentries) hentry'
    exact ih (hl.2 entry hentry) hrefine

end Part

namespace Grouping

/-! ### The loop with a choice

`skip` says what to do with a path that leads to no grouping, and with a key that has no leaf: raise
an error, or pass it over. -/

/-- Goes on with what is next, or raises the alarm if there is one. -/
def passOver {α : Type} (skip : Option QueryError) (next : Except QueryError α) :
    Except QueryError α :=
  match skip with
  | none => next
  | some alarm => .error alarm

/-- `Grouping.splitLeaves` with a choice of what to do about keys without a leaf. -/
def splitLeavesOr (skip : Option QueryError) (c : Column) (grouping : Grouping) :
    List String → Except QueryError (Grouping × List String)
  | [] => .ok (grouping, [])
  | key :: rest =>
    match grouping.get? key with
    | some (.leaf records) => do
      let inner ← records.split c
      let (grouping, done) ← splitLeavesOr skip c (grouping.set key inner.toPart) rest
      return (grouping, key :: done)
    | _ => passOver skip (splitLeavesOr skip c grouping rest)

/-- `Grouping.deepen` with a choice of what to do about paths and keys without a target. -/
def deepenOr (skip : Option QueryError) (c : Column) (root : Grouping) :
    List (List String) → Except QueryError (Grouping × List (List String))
  | [] => .ok (root, [])
  | path :: frontier =>
    match root.descend? path with
    | none => passOver skip (deepenOr skip c root frontier)
    | some grouping => do
      let (grouping, done) ← splitLeavesOr skip c grouping grouping.keys
      let (root, next) ← deepenOr skip c (root.replaceAt path grouping) frontier
      return (root, done.map (path ++ [·]) ++ next)

theorem splitLeavesOr_none (c : Column) (grouping : Grouping) (keys : List String) :
    splitLeavesOr none c grouping keys = splitLeaves c grouping keys := by
  induction keys generalizing grouping with
  | nil => rfl
  | cons key rest ih =>
    rw [splitLeavesOr, splitLeaves]
    cases grouping.get? key with
    | none => exact ih grouping
    | some part =>
      cases part with
      | leaf records => simp only [ih]
      | branch entries => exact ih grouping

/-- Passing over is what the loop does. -/
theorem deepenOr_none (c : Column) (root : Grouping) (frontier : List (List String)) :
    deepenOr none c root frontier = deepen c root frontier := by
  induction frontier generalizing root with
  | nil => rfl
  | cons path frontier ih =>
    rw [deepenOr, deepen]
    cases root.descend? path with
    | none => exact ih root
    | some grouping => simp only [splitLeavesOr_none, ih]

variable (skip : Option QueryError) (c : Column)

/-! ### One round -/

/-- Splitting the leaves under the last keys of a grouping refines the entries under them. -/
theorem splitLeavesOr_keys (done : Entries Part) {todo : Entries Part}
    (hkeys : (Entries.keys (done ++ todo)).Nodup) (hleaf : ∀ entry ∈ todo, entry.2.Layered 0) :
    splitLeavesOr skip c ⟨done ++ todo⟩ (Entries.keys todo) = do
      let refined ← Part.refineEntries c todo
      return (⟨done ++ refined⟩, Entries.keys todo) := by
  induction todo generalizing done with
  | nil => rfl
  | cons entry todo ih =>
    obtain ⟨key, part⟩ := entry
    obtain ⟨records, rfl⟩ : ∃ records, part = .leaf records :=
      (hleaf _ List.mem_cons_self).exists_leaf
    have hkey := Entries.key_notMem_of_nodup hkeys
    have hget : (Grouping.mk (done ++ (key, .leaf records) :: todo)).get? key
        = some (.leaf records) := Entries.lookup_append_cons hkey _
    rw [Entries.keys_cons, splitLeavesOr, hget, Part.refineEntries, Part.refine]
    simp only [bind_assoc, pure_bind]
    congr 1
    funext inner
    have hset : (Grouping.mk (done ++ (key, .leaf records) :: todo)).set key inner.toPart
        = ⟨(done ++ [(key, inner.toPart)]) ++ todo⟩ := by
      rw [set, Entries.put_append_cons hkey, List.append_assoc, List.singleton_append]
    have hkeys' : (Entries.keys ((done ++ [(key, inner.toPart)]) ++ todo)).Nodup := by
      simpa [Entries.keys_append] using hkeys
    rw [hset, ih _ hkeys' fun entry hentry => hleaf entry (List.mem_cons_of_mem _ hentry)]
    simp only [bind_assoc, pure_bind, List.append_assoc, List.singleton_append]

/-- A frontier in two parts is worked off one part after the other. -/
theorem deepenOr_append (root : Grouping) (left right : List (List String)) :
    deepenOr skip c root (left ++ right) = do
      let (root, nextLeft) ← deepenOr skip c root left
      let (root, nextRight) ← deepenOr skip c root right
      return (root, nextLeft ++ nextRight) := by
  induction left generalizing root with
  | nil =>
    rw [List.nil_append, deepenOr]
    exact (bind_pure _).symm
  | cons path left ih =>
    rw [List.cons_append, deepenOr, deepenOr]
    cases root.descend? path with
    | none =>
      cases skip with
      | none => exact ih root
      | some alarm => rfl
    | some grouping => simp only [ih, bind_assoc, pure_bind, List.append_assoc]

/-- Paths that begin with the key of a branch are worked off inside that branch. -/
theorem deepenOr_map_cons {root : Grouping} {key : String} {entries : Entries Part}
    (h : root.get? key = some (.branch entries)) (paths : List (List String)) :
    deepenOr skip c root (paths.map (key :: ·)) = do
      let (inner, next) ← deepenOr skip c ⟨entries⟩ paths
      return (root.set key inner.toPart, next.map (key :: ·)) := by
  induction paths generalizing root entries with
  | nil =>
    have hset : root.set key (.branch entries) = root :=
      congrArg Grouping.mk (Entries.put_of_lookup h)
    rw [List.map_nil, deepenOr, deepenOr, ← hset]
    simp [toPart, set, Entries.put_put]
  | cons path paths ih =>
    have hdescend : root.descend? (key :: path) = (Grouping.mk entries).descend? path := by
      rw [descend?, h]
    rw [List.map_cons, deepenOr, deepenOr, hdescend]
    cases (Grouping.mk entries).descend? path with
    | none =>
      cases skip with
      | none => exact ih h
      | some alarm => rfl
    | some grouping =>
      simp only [bind_assoc, pure_bind]
      congr 1
      funext outcome
      have hreplace : root.replaceAt (key :: path) outcome.1
          = root.set key ((Grouping.mk entries).replaceAt path outcome.1).toPart := by
        rw [replaceAt, h]
      have hget : (root.set key ((Grouping.mk entries).replaceAt path outcome.1).toPart).get? key
          = some (.branch ((Grouping.mk entries).replaceAt path outcome.1).entries) := by
        rw [get?, set, Entries.lookup_put, if_pos rfl, toPart]
      rw [hreplace, ih hget]
      simp [set, Entries.put_put, Function.comp_def]

/-- The last entries of a grouping are refined one after the other, if a round refines each of the
branches under them. -/
theorem deepenOr_entries {depth : Nat}
    (hround : ∀ entries, (Part.branch entries).Layered (depth + 1) →
      deepenOr skip c ⟨entries⟩ ((Part.branch entries).frontier depth) = do
        let refined ← Part.refineEntries c entries
        return (⟨refined⟩, (Part.branch refined).frontier (depth + 1)))
    (done : Entries Part) {todo : Entries Part} (hkeys : (Entries.keys (done ++ todo)).Nodup)
    (htodo : ∀ entry ∈ todo, entry.2.Layered (depth + 1)) :
    deepenOr skip c ⟨done ++ todo⟩ ((Part.branch todo).frontier (depth + 1)) = do
      let refined ← Part.refineEntries c todo
      return (⟨done ++ refined⟩, (Part.branch refined).frontier (depth + 2)) := by
  induction todo generalizing done with
  | nil => rfl
  | cons entry todo ih =>
    obtain ⟨key, part⟩ := entry
    have hpart := htodo _ List.mem_cons_self
    obtain ⟨entries, rfl⟩ : ∃ entries, part = .branch entries := hpart.exists_branch
    have hkey := Entries.key_notMem_of_nodup hkeys
    have hget : (Grouping.mk (done ++ (key, .branch entries) :: todo)).get? key
        = some (.branch entries) := Entries.lookup_append_cons hkey _
    -- the paths of the first branch stand in front, and all of them stay inside it
    rw [Part.frontier_cons, deepenOr_append, deepenOr_map_cons skip c hget, hround entries hpart,
      Part.refineEntries, Part.refine]
    simp only [bind_assoc, pure_bind]
    congr 1
    funext inner
    have hset : (Grouping.mk (done ++ (key, .branch entries) :: todo)).set key (.branch inner)
        = ⟨(done ++ [(key, .branch inner)]) ++ todo⟩ := by
      rw [set, Entries.put_append_cons hkey, List.append_assoc, List.singleton_append]
    have hkeys' : (Entries.keys ((done ++ [(key, .branch inner)]) ++ todo)).Nodup := by
      simpa [Entries.keys_append] using hkeys
    rw [toPart, hset, ih _ hkeys' fun entry hentry => htodo entry (List.mem_cons_of_mem _ hentry)]
    simp only [bind_assoc, pure_bind, List.append_assoc, List.singleton_append, Part.frontier_cons]

/-- **One round splits all leaves.** On a layered tree the loop, given the paths of the lowest
branches, refines the tree and returns the paths of the new lowest branches. It finds a target for
every path and every key, so what it would do without one does not matter. -/
theorem deepenOr_frontier {depth : Nat} {entries : Entries Part}
    (h : (Part.branch entries).Layered (depth + 1)) :
    deepenOr skip c ⟨entries⟩ ((Part.branch entries).frontier depth) = do
      let refined ← Part.refineEntries c entries
      return (⟨refined⟩, (Part.branch refined).frontier (depth + 1)) := by
  induction depth generalizing entries with
  | zero =>
    have hsplit : splitLeavesOr skip c ⟨entries⟩ (keys ⟨entries⟩) = _ :=
      splitLeavesOr_keys skip c [] h.1 h.2
    rw [Part.frontier, deepenOr, descend?_nil]
    simp only [hsplit]
    cases hrefine : Part.refineEntries c entries with
    | error e => rfl
    | ok refined =>
      have hnext : (Entries.keys entries).map ([] ++ [·]) ++ []
          = (Part.branch refined).frontier 1 := by
        rw [Part.frontier_one, Part.keys_refineEntries hrefine, List.append_nil]
        rfl
      exact congrArg (fun next => Except.ok (Grouping.mk refined, next)) hnext
  | succ depth ih =>
    exact deepenOr_entries skip c (fun _ => ih) [] h.1 h.2

end Grouping

end RecordQuery
