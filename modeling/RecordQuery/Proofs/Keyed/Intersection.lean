import RecordQuery.Proofs.Keyed.Foremost

/-!
# Intersections

An intersection starts from the map of the first records and drops, for one operand after the other,
the entries whose key the operand does not have. So the operands after the first only ever say yes
or no to a key, and what is left is one filter of that map. All laws about the operands come from
this: a filter does not care in which order its conditions are checked, or how often, and the keys
of the map are keys of the first records anyway.

## Pair by pair

Intersecting two at a time throws the map away after each step and builds it again from the elements
that are left. That gives the same map if the elements still have the keys they had: if the column
does not look at positions (`Column.Labels`). Nothing is asked of the other operands, and if one of
them cannot be read, both ways fail with the same error.

## What the operands contribute

An operand is read as a whole before anything is dropped on its account, and what it contributes is
the set of its key texts. That it has the first of them twice, or in another order, is not seen. So
two lists of operands give the same intersection if they have the same members, and the first
records may be among them or not, because an entry of their map has one of their keys anyway.

This takes operands that can be read. One that cannot is an error, and leaving it out is not the
same as having it.

## Implementation notes

`Records.foldlM_restrict` separates reading from filtering: dropping entries for one operand after
the other is reading all of them and filtering once, with the same error if one cannot be read.

The step for intersections pair by pair is about any entries whose keys are those of their values
(`Column.Labels`), and not about the map of some records. The entries that are left have this
property again, so the induction on the operands goes through; the map of the first records is where
it begins.

## Main definitions

* `Column.Labels` — entries whose keys are those of their values

## Main results

* `Records.commonOn_eq` — an intersection is one filter of a map
* `Records.commonOn_congr` — the order and the repetition of operands do not matter
* `Records.toEntriesOn_of_labels` — a map that is built again from its own elements
* `Records.inter_eq_foldlM` — intersecting all at once is intersecting pair by pair
* `Records.inter_laws` — the summary
-/

namespace RecordQuery

namespace Records

variable {records : Records} {c : Column}

/-! ### One filter -/

/-- The entries whose key is in all of the given lists of keys. -/
def shared (keySets : List (List String)) (entries : Entries Value) : Entries Value :=
  entries.filter fun entry => decide (∀ keys ∈ keySets, entry.1 ∈ keys)

theorem restrict_eq_shared (entries : Entries Value) (keys : List String) :
    restrict entries keys = shared [keys] entries := by
  refine List.filter_congr fun entry _ => ?_
  simp

theorem shared_append (first later : List (List String)) (entries : Entries Value) :
    shared (first ++ later) entries = shared later (shared first entries) := by
  rw [shared, shared, shared, List.filter_filter]
  refine List.filter_congr fun entry _ => ?_
  rw [Bool.and_comm, ← Bool.decide_and, decide_eq_decide]
  exact List.forall_mem_append

/-- Dropping entries for one operand after the other is reading all operands and filtering once. -/
theorem foldlM_restrict (others : List Records) (entries : Entries Value) :
    others.foldlM (fun entries other => do return restrict entries (← other.keysOn c)) entries
      = do return shared (← others.mapM (·.keysOn c)) entries := by
  induction others generalizing entries with
  | nil => simp [shared]
  | cons other others ih =>
    rw [List.foldlM_cons, List.mapM_cons]
    simp only [bind_assoc, pure_bind, ih]
    simp only [restrict_eq_shared, ← shared_append, List.singleton_append]

/-- **An intersection is one filter of the map of the first records.** -/
theorem commonOn_eq (records : Records) (c : Column) (others : List Records) :
    records.commonOn c others = do
      let own ← records.toEntriesOn c
      let keySets ← others.mapM (·.keysOn c)
      return ⟨Entries.values (shared keySets own)⟩ := by
  simp only [commonOn, foldlM_restrict, bind_assoc, pure_bind]

/-! ### Operands -/

/-- All elements can be read, and one of them has the key text. -/
def HasKey (records : Records) (c : Column) (key : String) : Prop :=
  ∃ keys, records.keysOn c = .ok keys ∧ key ∈ keys

theorem forall_mem_keySets_iff {others : List Records} {keySets : List (List String)}
    (h : others.mapM (·.keysOn c) = .ok keySets) (key : String) :
    (∀ keys ∈ keySets, key ∈ keys) ↔ ∀ other ∈ others, other.HasKey c key := by
  have hpairs := mapM_eq_ok_iff.mp h
  clear h
  induction hpairs with
  | nil => simp
  | cons hkeys _ ih =>
    rw [List.forall_mem_cons, List.forall_mem_cons]
    refine and_congr ?_ ih
    simp [HasKey, hkeys]

theorem hasKey_of_mem_foremost {keys : List String} (hkeys : records.keysOn c = .ok keys)
    {entry : String × Value} (h : entry ∈ Entries.foremost (keys.zip records.toList)) :
    records.HasKey c entry.1 :=
  ⟨keys, hkeys, (List.of_mem_zip ((Entries.foremost_sublist _).subset h)).1⟩

/-- **The order and the repetition of operands do not matter**, nor whether the first records are
among the others. -/
theorem commonOn_congr {keys : List String} (hkeys : records.keysOn c = .ok keys)
    {others others' : List Records} (hread : ∀ other ∈ others, ∃ keys, other.keysOn c = .ok keys)
    (hsame : ∀ other, other ≠ records → (other ∈ others' ↔ other ∈ others)) :
    records.commonOn c others' = records.commonOn c others := by
  have hread' : ∀ other ∈ others', ∃ keys, other.keysOn c = .ok keys := by
    intro other hother
    by_cases heq : other = records
    · exact ⟨keys, heq ▸ hkeys⟩
    · exact hread other ((hsame other heq).mp hother)
  obtain ⟨keySets, hkeySets⟩ := exists_mapM_eq_ok_iff.mpr hread
  obtain ⟨keySets', hkeySets'⟩ := exists_mapM_eq_ok_iff.mpr hread'
  have hshared : shared keySets' (Entries.foremost (keys.zip records.toList))
      = shared keySets (Entries.foremost (keys.zip records.toList)) := by
    refine List.filter_congr fun entry hentry => ?_
    have hown := hasKey_of_mem_foremost hkeys hentry
    rw [decide_eq_decide, forall_mem_keySets_iff hkeySets, forall_mem_keySets_iff hkeySets']
    constructor
    · intro h other hother
      by_cases heq : other = records
      · exact heq ▸ hown
      · exact h other ((hsame other heq).mpr hother)
    · intro h other hother
      by_cases heq : other = records
      · exact heq ▸ hown
      · exact h other ((hsame other heq).mp hother)
  rw [commonOn_eq, commonOn_eq, toEntriesOn_eq_foremost hkeys, hkeySets, hkeySets']
  exact congrArg (fun entries => Except.ok (Records.mk (Entries.values entries))) hshared

theorem commonOn_nil (records : Records) (c : Column) :
    records.commonOn c [] = records.dedupOn c := by
  rw [commonOn_eq, dedupOn]
  simp [shared]

end Records

/-! ### Pair by pair -/

/-- The keys of the entries differ, and are those of their values by a column. -/
structure Column.Labels (c : Column) (entries : Entries Value) : Prop where
  /-- No key stands twice. -/
  nodup : (Entries.keys entries).Nodup
  /-- Each value has its key by the column. -/
  own : ∀ entry ∈ entries, c.key? entry.2 = some entry.1

theorem Column.Labels.sublist {c : Column} {entries kept : Entries Value} (h : c.Labels entries)
    (hsub : kept.Sublist entries) : c.Labels kept :=
  ⟨h.nodup.sublist (hsub.map Prod.fst), fun entry hentry => h.own entry (hsub.subset hentry)⟩

namespace Records

variable {records : Records} {c : Column}

/-- The elements of a map have its keys, if the column does not look at positions. -/
theorem labels_foremost (hc : c.Positionless) {keys : List String}
    (hkeys : records.keysOn c = .ok keys) :
    c.Labels (Entries.foremost (keys.zip records.toList)) := by
  refine ⟨?_, fun entry hentry => ?_⟩
  · rw [Entries.keys_foremost]
    exact nodup_eraseDups _
  · have hzip : entry ∈ keys.zip records.toList := (Entries.foremost_sublist _).subset hentry
    obtain ⟨i, hi⟩ := List.mem_iff_getElem?.mp hzip
    obtain ⟨hkey, hvalue⟩ := List.getElem?_zip_eq_some.mp hi
    have hown := congrArg (·[i]?) (map_key?_of_keysOn hc hkeys)
    simpa [hkey, hvalue] using hown

/-- **A map that is built again from its own elements** is the same. -/
theorem toEntriesOn_of_labels (hc : c.Positionless) {entries : Entries Value}
    (h : c.Labels entries) : toEntriesOn ⟨Entries.values entries⟩ c = .ok entries := by
  have hown : (Entries.values entries).map c.key? = (Entries.keys entries).map some := by
    rw [Entries.values, Entries.keys, List.map_map, List.map_map]
    exact List.map_congr_left h.own
  have hzip : (Entries.keys entries).zip (Entries.values entries) = entries := by
    rw [Entries.keys, Entries.values, List.zip_map', List.map_id']
  have hkeys : keysOn ⟨Entries.values entries⟩ c = .ok (Entries.keys entries) :=
    keysOn_of_map_key? hc hown
  rw [toEntriesOn_eq_foremost hkeys]
  show Except.ok (Entries.foremost ((Entries.keys entries).zip (Entries.values entries))) = _
  rw [hzip, Entries.foremost_eq_self h.nodup]

/-- Intersecting pair by pair, from elements that have their keys, filters their map. -/
theorem foldlM_inter_of_labels (hc : c.Positionless) (others : List Records)
    {entries : Entries Value} (h : c.Labels entries) :
    others.foldlM (fun acc other => inter c [acc, other]) ⟨Entries.values entries⟩ = do
      let keySets ← others.mapM (·.keysOn c)
      return ⟨Entries.values (shared keySets entries)⟩ := by
  induction others generalizing entries with
  | nil => simp [shared]
  | cons other others ih =>
    have hpair : inter c [⟨Entries.values entries⟩, other] = do
        let keys ← other.keysOn c
        return ⟨Entries.values (shared [keys] entries)⟩ := by
      rw [inter, commonOn_eq, toEntriesOn_of_labels hc h, List.mapM_cons, List.mapM_nil]
      simp only [bind_assoc, pure_bind]
      rfl
    rw [List.foldlM_cons, List.mapM_cons, hpair]
    simp only [bind_assoc, pure_bind]
    congr 1
    funext keys
    have hsub : (shared [keys] entries).Sublist entries := List.filter_sublist
    rw [ih (h.sublist hsub)]
    simp only [← shared_append, List.singleton_append]

/-- **Intersecting all at once is intersecting pair by pair.** -/
theorem inter_eq_foldlM (hc : c.Positionless) (records : Records) {others : List Records}
    (hne : others ≠ []) :
    inter c (records :: others)
      = others.foldlM (fun acc other => inter c [acc, other]) records := by
  obtain ⟨other, others, rfl⟩ := List.exists_cons_of_ne_nil hne
  match hkeys : records.keysOn c with
  | .error e =>
    have hentries : records.toEntriesOn c = .error e := by
      rw [toEntriesOn, hkeys]
      rfl
    rw [List.foldlM_cons, inter, inter, commonOn_eq, commonOn_eq, hentries]
    rfl
  | .ok keys =>
    have hentries := toEntriesOn_eq_foremost hkeys
    have hlabels := labels_foremost hc hkeys
    -- after the first step the pairs start from elements that carry the keys of the map
    have hpair : inter c [records, other]
        = inter c [⟨Entries.values (Entries.foremost (keys.zip records.toList))⟩, other] := by
      rw [inter, inter, commonOn_eq, commonOn_eq, hentries, toEntriesOn_of_labels hc hlabels]
    have hrun := foldlM_inter_of_labels hc (other :: others) hlabels
    rw [List.foldlM_cons] at hrun
    rw [List.foldlM_cons, hpair, hrun, inter, commonOn_eq, hentries]
    rfl

/-- **The laws of intersection.** If all elements can be read, an intersection keeps, of the
elements that stay without duplicates, those whose key text all others have. It depends only on
which records are among the others, and not on whether the first ones are; and if there are no
others, it removes duplicates. By a column that ignores positions, intersecting all at once is
intersecting pair by pair, whether the elements can be read or not. -/
theorem inter_laws (records : Records) (c : Column) (others : List Records) :
    (∀ keys keySets, records.keysOn c = .ok keys → others.mapM (·.keysOn c) = .ok keySets →
      records.dedupOn c = .ok ⟨Entries.values (Entries.foremost (keys.zip records.toList))⟩
        ∧ records.commonOn c others
          = .ok ⟨Entries.values (shared keySets (Entries.foremost (keys.zip records.toList)))⟩
        ∧ (∀ others', (∀ other, other ≠ records → (other ∈ others' ↔ other ∈ others)) →
          records.commonOn c others' = records.commonOn c others)
        ∧ ∀ others', (∀ other ∈ others', other = records) →
          records.commonOn c others' = records.dedupOn c)
    ∧ (c.Positionless → others ≠ [] →
      inter c (records :: others)
        = others.foldlM (fun acc other => inter c [acc, other]) records) := by
  refine ⟨?_, fun hc hne => inter_eq_foldlM hc records hne⟩
  intro keys keySets hkeys hkeySets
  have hentries := toEntriesOn_eq_foremost hkeys
  refine ⟨?_, ?_, fun others' hsame => ?_, fun others' hself => ?_⟩
  · rw [dedupOn, hentries]
    rfl
  · rw [commonOn_eq, hentries, hkeySets]
    rfl
  · exact commonOn_congr hkeys (exists_mapM_eq_ok_iff.mp ⟨keySets, hkeySets⟩) hsame
  · rw [← commonOn_nil]
    refine commonOn_congr hkeys (List.forall_mem_nil _) fun other hne => ?_
    simp only [List.not_mem_nil, iff_false]
    intro hother
    exact hne (hself other hother)

/-- Repeated keys in every operand: the first element of a key stays, in the order of the first
operand. -/
theorem inter_laws_repeated_keys :
    let element (n : Int) (tag : String) : Value := .obj [("n", .int n), ("tag", .str tag)]
    let first : Records := ⟨[element 3 "a", element 2 "b", element 3 "c", element 1 "d"]⟩
    let second : Records := ⟨[element 1 "e", element 3 "f", element 1 "g"]⟩
    let third : Records := ⟨[element 3 "h", element 1 "i", element 5 "j"]⟩
    let c := Column.dotted "n"
    first.keysOn c = .ok ["3", "2", "3", "1"]
      ∧ [second, third].mapM (·.keysOn c) = .ok [["1", "3", "1"], ["3", "1", "5"]]
      ∧ first.commonOn c [second, third] = .ok ⟨[element 3 "a", element 1 "d"]⟩
      ∧ first.commonOn c [third, first, second, third] = first.commonOn c [second, third]
      ∧ first.commonOn c [first] = first.dedupOn c
      ∧ inter c [first, second, third]
        = [second, third].foldlM (fun acc other => inter c [acc, other]) first := by
  intro element first second third c
  have hkeys : first.keysOn c = .ok ["3", "2", "3", "1"] := by rfl
  have hkeySets : [second, third].mapM (·.keysOn c) = .ok [["1", "3", "1"], ["3", "1", "5"]] := by
    rfl
  obtain ⟨hall, hpairs⟩ := inter_laws first c [second, third]
  obtain ⟨-, hcommon, hcongr, hself⟩ := hall _ _ hkeys hkeySets
  have hsame : ∀ other, other ≠ first →
      (other ∈ [third, first, second, third] ↔ other ∈ [second, third]) := by
    intro other hne
    grind
  have hfirst : ∀ other ∈ [first], other = first := List.forall_mem_singleton.mpr rfl
  exact ⟨hkeys, hkeySets, hcommon, hcongr _ hsame, hself _ hfirst,
    hpairs (Column.positionless_path _) (List.cons_ne_nil _ _)⟩

end Records

end RecordQuery
