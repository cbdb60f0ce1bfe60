import RecordQuery.Proofs.Grouping.JsonForm
import RecordQuery.Proofs.Keyed.Foremost

/-!
# Groupings as ordered maps

Parts can be set in a grouping, any number of them and in any order. One update touches one entry:
a key that is there keeps its place and gets the part, and a new key goes last. Whether a leaf takes
the place of a branch or a branch that of a leaf makes no difference.

So a grouping after some updates is known from what it was before and from what was set. Its keys
are the old ones, then the new ones as they were first set. Under each key is the part that was set
last, or else the old one, with everything below it.

The views of a grouping go through its entries in one order, each in a loop of its own. They agree
place by place. Only the object is in another order, that of the keys, and it has exactly the
entries because no key is there twice. This is where all ways to start from come in: none of them
makes a grouping with a key twice, at any depth.

## Several updates to one key

The place of a key comes from the first of them and the part from the last. Both can be read off the
list of updates: the keys in it, without repetitions, are in the order in which they were first set,
and the last of the parts under a key is the one that stays. So the outcome is a function of the
list, and no intermediate grouping occurs in it (`Grouping.entries_setAll`).

What is below a key that was not set is unchanged along all paths at once, since what a path leads
to depends on what is under its first key.

## Implementation notes

Each view is compared with the list of entries (`Grouping.Shows`), and not with the other views. A
further view would be a further field.

The hypothesis on a grouping to start from is where it comes from (`Grouping.Origin`). Of the three
origins all that is used is that no key is there twice, and updates keep to that if the parts that
are set do.

## Main definitions

* `Grouping.setAll` — updates, one after the other
* `Grouping.Origin` — the groupings to start from
* `Grouping.Shows` — what all views of a grouping have in common

## Main results

* `Grouping.entries_set_of_key`, `entries_set_of_new` — one update
* `Grouping.keys_setAll`, `get?_setAll`, `at?_setAll` — any number of updates
* `Grouping.shows_entries` — the views
* `Grouping.ordered_map` — the summary
-/

namespace RecordQuery

namespace Entries

variable {α : Type}

theorem put_eq_set {key : String} {entries : Entries α} {i : Nat} (h : (keys entries).Nodup)
    (hi : (keys entries)[i]? = some key) (value : α) :
    put key value entries = entries.set i (key, value) := by
  induction entries generalizing i with
  | nil => cases hi
  | cons entry rest ih =>
    obtain ⟨k, v⟩ := entry
    obtain ⟨hnew, hrest⟩ := List.nodup_cons.mp h
    cases i with
    | zero =>
      obtain rfl := Option.some.inj hi
      rw [put, if_pos rfl, List.set_cons_zero]
    | succ i =>
      have hne : k ≠ key := by
        rintro rfl
        exact hnew (List.mem_of_getElem? hi)
      rw [put, if_neg hne, ih hrest hi, List.set_cons_succ]

theorem put_of_notMem {key : String} {entries : Entries α} (h : key ∉ keys entries) (value : α) :
    put key value entries = entries ++ [(key, value)] := by
  induction entries with
  | nil => rfl
  | cons entry rest ih =>
    rw [keys_cons, List.mem_cons, not_or] at h
    rw [put, if_neg (Ne.symm h.1), ih h.2, List.cons_append]

/-- Entries with different keys are known from their keys and from what is found under each. -/
theorem eq_filterMap_lookup {entries : Entries α} (h : (keys entries).Nodup) :
    entries = (keys entries).filterMap fun key => (entries.lookup key).map (Prod.mk key) := by
  induction entries with
  | nil => rfl
  | cons entry rest ih =>
    obtain ⟨k, v⟩ := entry
    obtain ⟨hnew, hrest⟩ := List.nodup_cons.mp h
    have hfirst : (((k, v) :: rest : Entries α).lookup k).map (Prod.mk k) = some (k, v) := by
      rw [lookup_cons_eq, if_pos rfl, Option.map_some]
    have hlater : ∀ key ∈ keys rest, (((k, v) :: rest : Entries α).lookup key).map (Prod.mk key)
        = (rest.lookup key).map (Prod.mk key) := by
      intro key hkey
      have hne : key ≠ k := fun heq => hnew (heq ▸ hkey)
      rw [lookup_cons_eq, if_neg hne]
    calc (k, v) :: rest
        = (k, v) :: (keys rest).filterMap fun key =>
            (((k, v) :: rest : Entries α).lookup key).map (Prod.mk key) := by
          rw [List.filterMap_congr hlater, ← ih hrest]
      _ = (keys ((k, v) :: rest)).filterMap fun key =>
            (((k, v) :: rest : Entries α).lookup key).map (Prod.mk key) := by
          simp only [keys_cons, List.filterMap_cons, hfirst]

end Entries

theorem Part.EveryLevel.of_at? {part inner : Part} {path : List String} (h : part.DistinctKeys)
    (hinner : part.at? path = some inner) : inner.DistinctKeys := by
  induction path generalizing part with
  | nil => exact Option.some.inj hinner ▸ h
  | cons key path ih =>
    cases h with
    | leaf records => cases hinner
    | branch hkeys h =>
      rw [Part.at?, Option.bind_eq_some_iff] at hinner
      obtain ⟨next, hnext, hinner⟩ := hinner
      exact ih (h _ ((Entries.lookup_eq_some_iff_mem hkeys).mp hnext)) hinner

namespace Grouping

variable {grouping : Grouping} {key : String}

/-! ### One update -/

theorem nodup_keys (h : grouping.toPart.DistinctKeys) : grouping.keys.Nodup := by
  cases h with
  | branch hkeys _ => exact hkeys

/-- **A key that is there keeps its place**, and all other entries stay. -/
theorem entries_set_of_key {i : Nat} (h : grouping.keys.Nodup) (hi : grouping.keys[i]? = some key)
    (part : Part) : (grouping.set key part).entries = grouping.entries.set i (key, part) :=
  Entries.put_eq_set h hi part

/-- **A new key goes last**, and all other entries stay. -/
theorem entries_set_of_new (h : key ∉ grouping.keys) (part : Part) :
    (grouping.set key part).entries = grouping.entries ++ [(key, part)] :=
  Entries.put_of_notMem h part

theorem keys_set (grouping : Grouping) (key : String) (part : Part) :
    (grouping.set key part).keys
      = if key ∈ grouping.keys then grouping.keys else grouping.keys ++ [key] :=
  Entries.keys_put key part grouping.entries

theorem get?_set (grouping : Grouping) (key other : String) (part : Part) :
    (grouping.set key part).get? other
      = if other = key then some part else grouping.get? other :=
  Entries.lookup_put key other part grouping.entries

theorem at?_toPart_cons (grouping : Grouping) (key : String) (path : List String) :
    grouping.toPart.at? (key :: path) = (grouping.get? key).bind (Part.at? · path) := by
  rw [toPart, Part.at?]

/-! ### Any number of updates -/

/-- Sets parts, one after the other. -/
def setAll (grouping : Grouping) (updates : Entries Part) : Grouping :=
  updates.foldl (fun grouping update => grouping.set update.1 update.2) grouping

theorem setAll_concat (grouping : Grouping) (updates : Entries Part) (key : String) (part : Part) :
    grouping.setAll (updates ++ [(key, part)]) = (grouping.setAll updates).set key part := by
  rw [setAll, List.foldl_append]
  rfl

/-- **The keys** are the old ones, and then the new ones as they were first set. -/
theorem keys_setAll (h : grouping.keys.Nodup) (updates : Entries Part) :
    (grouping.setAll updates).keys = (grouping.keys ++ Entries.keys updates).eraseDups := by
  induction updates using List.reverseRecOn with
  | nil =>
    have hself : grouping.keys.eraseDups = grouping.keys := by
      rw [keys, ← Entries.keys_foremost, Entries.foremost_eq_self h]
    rw [Entries.keys_nil, List.append_nil, hself]
    rfl
  | append_singleton updates update ih =>
    obtain ⟨key, part⟩ := update
    rw [setAll_concat, keys_set, ih, Entries.keys_concat, ← List.append_assoc, eraseDups_concat]
    simp only [List.mem_eraseDups]

/-- **Under a key** is the part that was set last, or else the old one. -/
theorem get?_setAll (grouping : Grouping) (updates : Entries Part) (key : String) :
    (grouping.setAll updates).get? key
      = (Entries.valuesOf key updates).getLast?.or (grouping.get? key) := by
  induction updates using List.reverseRecOn with
  | nil => rfl
  | append_singleton updates update ih =>
    obtain ⟨other, part⟩ := update
    rw [setAll_concat, get?_set, Entries.valuesOf_concat]
    split
    · rw [List.getLast?_concat, Option.some_or]
    · exact ih

/-- **Below a key that was not set** everything is as it was, at any depth. -/
theorem at?_setAll {updates : Entries Part} (h : key ∉ Entries.keys updates)
    (grouping : Grouping) (path : List String) :
    (grouping.setAll updates).toPart.at? (key :: path) = grouping.toPart.at? (key :: path) := by
  rw [at?_toPart_cons, at?_toPart_cons, get?_setAll, Entries.valuesOf_eq_nil h, List.getLast?_nil,
    Option.none_or]

theorem distinctKeys_setAll (h : grouping.toPart.DistinctKeys) {updates : Entries Part}
    (hparts : ∀ update ∈ updates, update.2.DistinctKeys) :
    (grouping.setAll updates).toPart.DistinctKeys := by
  induction updates using List.reverseRecOn with
  | nil => exact h
  | append_singleton updates update ih =>
    rw [List.forall_mem_append, List.forall_mem_singleton] at hparts
    rw [setAll_concat]
    exact distinctKeys_set (ih hparts.1) update.1 hparts.2

/-- After the updates there are the keys in order, each with what it holds. -/
theorem entries_setAll (h : grouping.keys.Nodup) (updates : Entries Part) :
    (grouping.setAll updates).entries
      = (grouping.keys ++ Entries.keys updates).eraseDups.filterMap fun key =>
          ((Entries.valuesOf key updates).getLast?.or (grouping.get? key)).map (Prod.mk key) := by
  have hkeys := keys_setAll h updates
  have hnodup : (grouping.setAll updates).keys.Nodup := hkeys ▸ nodup_eraseDups _
  rw [← hkeys]
  simp only [← get?_setAll]
  exact Entries.eq_filterMap_lookup hnodup

/-! ### Views -/

/-- All views of the grouping show the same entries: the lists in this order, and the object in the
order of the keys. -/
structure Shows (grouping : Grouping) (entries : Entries Part) : Prop where
  /-- The entries themselves. -/
  same : grouping.entries = entries
  /-- The number of keys. -/
  size : grouping.size = entries.length
  /-- The keys. -/
  keys : grouping.keyRecords.toList = entries.map fun entry => .str entry.1
  /-- The parts. -/
  parts : grouping.partRecords.toList = entries.map fun entry => partValue entry.2
  /-- Keys and parts, in a list. -/
  array : grouping.toArray
    = entries.map fun entry => .obj [("items", partValue entry.2), ("key", .str entry.1)]
  /-- Keys and parts, as records. -/
  records : grouping.toRecords.toList = grouping.toArray
  /-- Keys and parts, as fields of an object. -/
  object : ∃ fields, grouping.toValue = .obj fields ∧ Entries.Ascending fields
    ∧ fields.Perm (entries.map fun entry => (entry.1, partValue entry.2))

/-- **All views agree** if no key is there twice. -/
theorem shows_entries (h : grouping.keys.Nodup) : grouping.Shows grouping.entries where
  same := rfl
  size := rfl
  keys := by
    rw [keyRecords, Grouping.keys, Entries.keys, List.map_map]
    rfl
  parts := by
    rw [partRecords, entryValues_eq_map, Entries.values, List.map_map]
    rfl
  array := by
    rw [toArray, entryValues_eq_map, List.map_map]
    rfl
  records := rfl
  object := by
    have hkeys : (Entries.keys (entryValues grouping.entries)).Nodup := by
      rwa [keys_entryValues]
    refine ⟨Entries.sorted (entryValues grouping.entries), ?_, Entries.ascending_sorted _, ?_⟩
    · rw [toValue, toPart, partValue]
      rfl
    · rw [← entryValues_eq_map]
      exact Entries.sorted_perm hkeys

/-! ### The summary -/

/-- The groupings to start from: the empty one, those that objects describe, and grouped records. -/
inductive Origin : Grouping → Prop
  | empty : Origin .empty
  | read {v : Value} {grouping : Grouping} (hv : v.Ordered) (h : ofValue v = .ok grouping) :
    Origin grouping
  | grouped {records : Records} {columns : List Column} {grouping : Grouping}
    (h : records.group columns = .ok grouping) : Origin grouping

theorem Origin.distinctKeys (h : Origin grouping) : grouping.toPart.DistinctKeys := by
  cases h with
  | empty => exact distinctKeys_empty
  | read hv h => exact distinctKeys_ofValue hv h
  | grouped h => exact distinctKeys_group h

/-- **A grouping stays an ordered map, whatever is set in it.** After any updates no key is there
twice, at any depth. The keys are the old ones and then the new ones as they were first set. Under
each key is the part that was set last, or else what was there, down to any depth. A further update
replaces one entry in its place or adds one at the end. All views show these entries in this order,
and the object has exactly them; so do the views of every branch inside. -/
theorem ordered_map {start : Grouping} (hstart : Origin start) {updates : Entries Part}
    (hparts : ∀ update ∈ updates, update.2.DistinctKeys) :
    let grouping := start.setAll updates
    let held := fun key => (Entries.valuesOf key updates).getLast?.or (start.get? key)
    grouping.keys.Nodup
      ∧ grouping.keys = (start.keys ++ Entries.keys updates).eraseDups
      ∧ (∀ key, grouping.get? key = held key)
      ∧ (∀ key, key ∉ Entries.keys updates → ∀ path,
        grouping.toPart.at? (key :: path) = start.toPart.at? (key :: path))
      ∧ (∀ key part,
        (∀ i, grouping.keys[i]? = some key →
          (grouping.set key part).entries = grouping.entries.set i (key, part))
        ∧ (key ∉ grouping.keys →
          (grouping.set key part).entries = grouping.entries ++ [(key, part)]))
      ∧ grouping.Shows (grouping.keys.filterMap fun key => (held key).map (Prod.mk key))
      ∧ ∀ path entries, grouping.toPart.at? path = some (.branch entries) →
        (Entries.keys entries).Nodup ∧ (Grouping.mk entries).Shows entries := by
  intro grouping held
  have hdistinct : grouping.toPart.DistinctKeys := distinctKeys_setAll hstart.distinctKeys hparts
  have hnodup := nodup_keys hdistinct
  have hkeys := keys_setAll (nodup_keys hstart.distinctKeys) updates
  have hentries : grouping.entries
      = grouping.keys.filterMap fun key => (held key).map (Prod.mk key) := by
    rw [hkeys]
    exact entries_setAll (nodup_keys hstart.distinctKeys) updates
  refine ⟨hnodup, hkeys, get?_setAll start updates, fun key hkey path => at?_setAll hkey start path,
    fun key part => ⟨fun i hi => entries_set_of_key hnodup hi part,
      fun hnew => entries_set_of_new hnew part⟩, hentries ▸ shows_entries hnodup, ?_⟩
  intro path entries hpath
  have hinner : (Grouping.mk entries).toPart.DistinctKeys := hdistinct.of_at? hpath
  exact ⟨nodup_keys hinner, shows_entries (nodup_keys hinner)⟩

/-- A branch takes the place of a leaf, a new key is set twice, and the branch that was not set
keeps what is in it. -/
theorem ordered_map_replaced_leaf :
    let ages : List (String × Part) := [("17", .leaf ⟨[.str "Clair"]⟩)]
    let start : Grouping := ⟨[("F", .branch ages), ("M", .leaf ⟨[.str "Adam"]⟩)]⟩
    let towns : Part := .branch [("Bern", .leaf ⟨[]⟩)]
    let updates : Entries Part := [("x", .leaf ⟨[]⟩), ("M", towns), ("x", .leaf ⟨[.int 1]⟩)]
    Origin start ∧ (∀ update ∈ updates, update.2.DistinctKeys)
      ∧ (start.setAll updates).keys = ["F", "M", "x"]
      ∧ (start.setAll updates).toPart.at? ["F", "17"] = some (.leaf ⟨[.str "Clair"]⟩)
      ∧ (start.setAll updates).Shows
        [("F", .branch ages), ("M", towns), ("x", .leaf ⟨[.int 1]⟩)] := by
  intro ages start towns updates
  have hages : (Value.obj [("17", .arr [.str "Clair"])]).Ordered :=
    .obj (by decide) (List.forall_mem_singleton.mpr (.arr (List.forall_mem_singleton.mpr (.str _))))
  have hvalue : (Value.obj [("F", .obj [("17", .arr [.str "Clair"])]),
      ("M", .arr [.str "Adam"])]).Ordered :=
    .obj (by decide) (List.forall_mem_cons.mpr ⟨hages, List.forall_mem_singleton.mpr
      (.arr (List.forall_mem_singleton.mpr (.str _)))⟩)
  have hstart : Origin start := .read hvalue rfl
  have htowns : towns.DistinctKeys :=
    .branch (by decide) (List.forall_mem_singleton.mpr (.leaf _))
  have hparts : ∀ update ∈ updates, update.2.DistinctKeys :=
    List.forall_mem_cons.mpr ⟨.leaf _, List.forall_mem_cons.mpr
      ⟨htowns, List.forall_mem_singleton.mpr (.leaf _)⟩⟩
  obtain ⟨-, hkeys, -, hbelow, -, hshows, -⟩ := ordered_map hstart hparts
  have hthree : (start.setAll updates).keys = ["F", "M", "x"] := hkeys.trans rfl
  rw [hthree] at hshows
  exact ⟨hstart, hparts, hthree, (hbelow "F" (by decide) ["17"]).trans rfl, hshows⟩

end Grouping

end RecordQuery
