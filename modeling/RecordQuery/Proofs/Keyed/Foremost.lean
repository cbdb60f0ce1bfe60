import RecordQuery.Proofs.Grouping.Representatives

/-!
# The foremost element of each key

A map by a column is filled in one pass that leaves alone what is there already. What it holds in
the end can be said of every element by itself: it stays exactly if no element before it has its key
text (`Entries.foremost`). That is also what removing duplicates leaves, and what an intersection
starts from.

Grouping by the same column is another pass, which collects where the first one skips. The two walk
in step: the map has an entry where the grouping has a leaf, and its value is the head of that leaf.

## Two passes in step

Filling a map and filing under keys are folds over the same entries. The fold that fills a map stops
caring about a key once it is there, and the fold that files goes on collecting. An invariant that
relates the two states would be that the map is what remains of the classes if only heads are kept
(`Entries.firsts`). It is shown for lists of any entries, so neither records nor columns occur in
it, and the failures of a column are dealt with before the folds begin.

`Entries.foremost` describes the same outcome without a fold and without classes, as a filter by
position. The two descriptions serve different purposes: the first compares a map with a grouping,
and the second says of a single element whether it stays.

## Implementation notes

That a key is new is asked of the keys in front of an entry, which are a prefix of the list of all
keys. The lemmas about one further entry (`Entries.foremost_concat`) are for inductions from the
back, which is the order in which a fold from the left has its state.

A leaf is never empty, and this is needed where the head of a class is taken. It is a hypothesis of
the lemmas on first values, and gathering meets it.

## Main definitions

* `Entries.foremost` — the entries whose key no earlier entry has
* `Part.first?` — the head of a leaf

## Main results

* `Entries.foldl_putNew_eq_foremost` — keeping what is there keeps the foremost entries
* `Records.toEntriesOn_eq_foremost` — the entries of a map by a column
* `Records.group_agrees_with_map` — grouping, maps and removing duplicates agree
-/

namespace RecordQuery

namespace Entries

variable {α : Type}

/-! ### Entries with new keys -/

theorem keys_concat (entries : Entries α) (key : String) (value : α) :
    keys (entries ++ [(key, value)]) = keys entries ++ [key] :=
  keys_append entries [(key, value)]

/-- An entry with a new key goes last, and one with a known key changes nothing. -/
theorem putNew_eq (key : String) (value : α) (entries : Entries α) :
    putNew key value entries
      = if key ∈ keys entries then entries else entries ++ [(key, value)] := by
  induction entries with
  | nil => rfl
  | cons entry rest ih =>
    obtain ⟨k, v⟩ := entry
    by_cases hk : k = key
    · simp [putNew, hk]
    · rw [putNew, if_neg hk, ih]
      by_cases h : key ∈ keys rest <;> simp [h, Ne.symm hk]

/-- The entries whose key no earlier entry has. -/
def foremost (entries : Entries α) : Entries α :=
  (entries.zipIdx.filter fun (entry, position) =>
    decide (entry.1 ∉ (keys entries).take position)).map Prod.fst

theorem foremost_sublist (entries : Entries α) : (foremost entries).Sublist entries := by
  have hsub := (List.filter_sublist (p := fun (entry, position) =>
    decide (entry.1 ∉ (keys entries).take position)) (l := entries.zipIdx)).map Prod.fst
  rwa [List.zipIdx_map_fst] at hsub

theorem foremost_concat (entries : Entries α) (key : String) (value : α) :
    foremost (entries ++ [(key, value)])
      = if key ∈ keys entries then foremost entries else foremost entries ++ [(key, value)] := by
  have hlength : (keys entries).length = entries.length := List.length_map _
  -- a position in front of the new entry does not see the new key
  have hfront : ∀ entry ∈ entries.zipIdx,
      decide (entry.1.1 ∉ (keys entries ++ [key]).take entry.2)
        = decide (entry.1.1 ∉ (keys entries).take entry.2) := by
    intro entry hentry
    have hlt : entry.2 < entries.length := by simpa using List.snd_lt_of_mem_zipIdx hentry
    rw [List.take_append_of_le_length (by omega)]
  have hlast : (keys entries ++ [key]).take entries.length = keys entries := by
    rw [← hlength, List.take_left]
  rw [foremost, keys_concat, List.zipIdx_append, List.filter_append, List.filter_congr hfront,
    List.map_append]
  by_cases h : key ∈ keys entries
  · simp [foremost, hlast, h]
  · simp [foremost, hlast, h]

/-- The foremost entries have all the keys, each once. -/
theorem keys_foremost (entries : Entries α) :
    keys (foremost entries) = (keys entries).eraseDups := by
  induction entries using List.reverseRecOn with
  | nil => rfl
  | append_singleton entries entry ih =>
    obtain ⟨key, value⟩ := entry
    rw [foremost_concat, keys_concat, eraseDups_concat, ← ih]
    split
    · rfl
    · exact keys_concat _ key value

theorem foremost_eq_self {entries : Entries α} (h : (keys entries).Nodup) :
    foremost entries = entries := by
  induction entries using List.reverseRecOn with
  | nil => rfl
  | append_singleton entries entry ih =>
    obtain ⟨key, value⟩ := entry
    rw [keys_concat, List.nodup_append] at h
    obtain ⟨hentries, -, hdisjoint⟩ := h
    have hnew : key ∉ keys entries := fun hmem => hdisjoint key hmem key List.mem_cons_self rfl
    rw [foremost_concat, if_neg hnew, ih hentries]

/-- **Keeping what is there keeps the foremost entries.** -/
theorem foldl_putNew_eq_foremost (entries : Entries α) :
    entries.foldl (fun kept (key, value) => putNew key value kept) [] = foremost entries := by
  induction entries using List.reverseRecOn with
  | nil => rfl
  | append_singleton entries entry ih =>
    obtain ⟨key, value⟩ := entry
    rw [List.foldl_append, ih, foremost_concat]
    show putNew key value (foremost entries) = _
    simp only [putNew_eq, keys_foremost, List.mem_eraseDups]

/-! ### First values -/

theorem keys_firsts {filed : Entries (List α)} (h : ∀ entry ∈ filed, entry.2 ≠ []) :
    keys (firsts filed) = keys filed := by
  induction filed with
  | nil => rfl
  | cons entry rest ih =>
    obtain ⟨k, found⟩ := entry
    obtain ⟨hfound, hrest⟩ := List.forall_mem_cons.mp h
    obtain ⟨first, later, rfl⟩ := List.exists_cons_of_ne_nil hfound
    show k :: keys (firsts rest) = k :: keys rest
    rw [ih hrest]

theorem lookup_map {β : Type} (f : α → β) (entries : Entries α) (key : String) :
    (entries.map fun entry => (entry.1, f entry.2)).lookup key = (entries.lookup key).map f := by
  induction entries with
  | nil => rfl
  | cons entry rest ih =>
    rw [List.map_cons, lookup_cons_eq, lookup_cons_eq, ih]
    split <;> rfl

/-- Under a key is the first of the values that were filed there. -/
theorem lookup_firsts {filed : Entries (List α)} (h : ∀ entry ∈ filed, entry.2 ≠ [])
    (key : String) : (firsts filed).lookup key = (filed.lookup key).bind List.head? := by
  induction filed with
  | nil => rfl
  | cons entry rest ih =>
    obtain ⟨k, found⟩ := entry
    obtain ⟨hfound, hrest⟩ := List.forall_mem_cons.mp h
    obtain ⟨first, later, rfl⟩ := List.exists_cons_of_ne_nil hfound
    show ((k, first) :: firsts rest).lookup key = _
    rw [lookup_cons_eq, lookup_cons_eq, ih hrest]
    split <;> rfl

end Entries

/-! ### The map by a column -/

/-- The first element of a leaf. -/
def Part.first? : Part → Option Value
  | .leaf records => records.toList.head?
  | .branch _ => none

namespace Grouping

/-! The groupings that one column gives have a leaf under every key. -/

theorem keys_leaves (filed : Entries (List Value)) :
    keys ⟨filed.map fun (key, members) => (key, .leaf ⟨members⟩)⟩ = Entries.keys filed := by
  simp [keys, Entries.keys, Function.comp_def]

theorem get?_leaves (filed : Entries (List Value)) (key : String) :
    get? ⟨filed.map fun (key, members) => (key, .leaf ⟨members⟩)⟩ key
      = (filed.lookup key).map fun members => .leaf ⟨members⟩ :=
  Entries.lookup_map (fun members => Part.leaf ⟨members⟩) filed key

end Grouping

namespace Records

variable {records : Records} {c : Column}

/-- **The map by a column has the foremost element of each key.** -/
theorem toEntriesOn_eq_foremost {keys : List String} (h : records.keysOn c = .ok keys) :
    records.toEntriesOn c = .ok (Entries.foremost (keys.zip records.toList)) := by
  rw [toEntriesOn, h, ← Entries.foldl_putNew_eq_foremost]
  rfl

/-- A column that cannot be read stops grouping and filling a map alike. -/
theorem group_one_eq_error {e : QueryError} (h : records.column c = .error e) :
    records.group [c] = .error e ∧ records.toEntriesOn c = .error e := by
  have hkeys : records.keysOn c = .error e := by
    rw [keysOn, h]
    rfl
  constructor
  · rw [group_one, split_eq, classes, hkeys]
    rfl
  · rw [toEntriesOn, hkeys]
    rfl

/-- **Grouping, maps and removing duplicates agree.** By one column they all fail, and with the same
error, or none does. The grouping and the map then have the same keys in the same order, each once;
under each key the map has the first element of the leaf that the grouping has there; and the
elements of the map, in order, are what stays without duplicates. -/
theorem group_agrees_with_map (records : Records) (c : Column) :
    (∃ e, records.group [c] = .error e ∧ records.toEntriesOn c = .error e
        ∧ records.dedupOn c = .error e)
      ∨ ∃ grouping entries, records.group [c] = .ok grouping
        ∧ records.toEntriesOn c = .ok entries
        ∧ records.dedupOn c = .ok ⟨Entries.values entries⟩
        ∧ grouping.keys = Entries.keys entries ∧ grouping.keys.Nodup
        ∧ ∀ key, entries.lookup key = (grouping.get? key).bind Part.first? := by
  match hcolumn : records.column c with
  | .error e =>
    obtain ⟨hgroup, hentries⟩ := group_one_eq_error hcolumn
    refine .inl ⟨e, hgroup, hentries, ?_⟩
    rw [dedupOn, hentries]
    rfl
  | .ok values =>
    have hfiled := records.gather_keys_zip values
    have hentries := toEntriesOn_eq_ok hcolumn
    refine .inr ⟨_, _, group_one_eq_ok hcolumn, hentries, dedupOn_eq_ok hcolumn, ?_⟩
    rw [← hfiled, Grouping.keys_leaves]
    -- no leaf is empty, so each has a first element
    have hne : ∀ entry ∈ Entries.gather ((values.map Value.keyText).zip records.toList),
        entry.2 ≠ [] := fun _ => Entries.ne_nil_of_mem_gather
    refine ⟨(Entries.keys_firsts hne).symm, ?_, fun key => ?_⟩
    · rw [Entries.keys_gather]
      exact nodup_eraseDups _
    · rw [Entries.lookup_firsts hne, Grouping.get?_leaves, Option.bind_map]
      rfl

end Records

end RecordQuery
