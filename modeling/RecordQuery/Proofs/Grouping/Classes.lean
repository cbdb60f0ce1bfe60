import RecordQuery.Grouping.Levels
import RecordQuery.Proofs.Reading
import Mathlib.Data.List.Induction

/-!
# Classes of records

One level of grouping files element after element under its key text. What comes out can be said
without the filing: the keys are those of the column, each once, in the order in which they first
appear, and under each key are the elements that have it, in order. `Entries.gather` says this for
any list of entries, and `Records.classes` for the elements of records by a column.

The values that are gathered need not be the ones that decided the keys. That is used when elements
carry something along, such as the position they came from.

## Why the classes are not defined by filing

Filing is a fold whose state is the map so far. What becomes of an element depends on all elements
before it, so a statement about the outcome has to be an invariant of the fold. Gathering has no
state: which elements are under a key is a filter, and which keys there are is a list without its
repetitions. Once filing is known to gather, what is said about groups is said about filters and
about the first occurrences in a list.

## The invariant

What has been filed so far is what the entries so far gather to. One step files a value into what
has been gathered, and `Entries.file_gather` says that this gathers one more entry. It rests on
`Entries.file_map_keys`, about filing into entries whose keys are all different: it changes the
values of one key, or adds a key with one value at the end. That a key which is not there has no
values yet makes the two cases one.

## Implementation notes

`List.eraseDups` keeps first occurrences, and this is the order in which keys are first seen. It is
needed for a list with one more entry at the end (`eraseDups_concat`), since filing goes from the
left.

The loop reads an element and files it before it reads the next. `Records.foldlM_file` separates the
two: reading everything first and filing then has the same outcome, the failures included.

## Main results

* `Entries.foldl_file` — filing entries one by one gathers them
* `Entries.flatMap_gather_perm` — gathering loses and repeats nothing
* `Records.split_eq` — one level of grouping gives the classes of the column
-/

namespace RecordQuery

/-! ### Keys, each once -/

/-- A further element joins the list without repetitions if it is new. -/
theorem eraseDups_concat (keys : List String) (key : String) :
    (keys ++ [key]).eraseDups
      = if key ∈ keys then keys.eraseDups else keys.eraseDups ++ [key] := by
  rw [List.eraseDups_append]
  by_cases h : key ∈ keys <;> simp [List.removeAll, List.eraseDups_cons, h]

theorem nodup_eraseDups (keys : List String) : keys.eraseDups.Nodup := by
  induction keys using List.reverseRecOn with
  | nil => exact List.nodup_nil
  | append_singleton keys key ih =>
    rw [eraseDups_concat]
    split
    · exact ih
    · next h =>
      refine List.nodup_append.mpr ⟨ih, List.pairwise_singleton _ key, ?_⟩
      intro other hother _ hkey heq
      rw [List.mem_singleton.mp hkey] at heq
      exact h (List.mem_eraseDups.mp (heq ▸ hother))

namespace Entries

variable {α β : Type}

/-! ### Gathering -/

/-- The values of the entries with the given key, in order. -/
def valuesOf (key : String) (entries : Entries α) : List α :=
  (entries.filter (·.1 == key)).map Prod.snd

/-- The values of all entries, under their keys. The keys are in the order in which they first
appear. -/
def gather (entries : Entries α) : Entries (List α) :=
  (keys entries).eraseDups.map fun key => (key, valuesOf key entries)

theorem valuesOf_concat (key other : String) (value : α) (entries : Entries α) :
    valuesOf other (entries ++ [(key, value)])
      = if other = key then valuesOf other entries ++ [value] else valuesOf other entries := by
  by_cases h : other = key
  · simp [valuesOf, h]
  · simp [valuesOf, h, Ne.symm h]

theorem valuesOf_eq_nil {key : String} {entries : Entries α} (h : key ∉ keys entries) :
    valuesOf key entries = [] := by
  rw [valuesOf, List.map_eq_nil_iff, List.filter_eq_nil_iff]
  intro entry hmem hkey
  exact h (List.mem_map.mpr ⟨entry, hmem, beq_iff_eq.mp hkey⟩)

theorem valuesOf_ne_nil {key : String} {entries : Entries α} (h : key ∈ keys entries) :
    valuesOf key entries ≠ [] := by
  obtain ⟨entry, hmem, rfl⟩ := List.mem_map.mp h
  intro hnil
  rw [valuesOf, List.map_eq_nil_iff, List.filter_eq_nil_iff] at hnil
  exact hnil entry hmem (beq_self_eq_true _)

theorem valuesOf_sublist (key : String) (entries : Entries α) :
    (valuesOf key entries).Sublist (values entries) :=
  List.filter_sublist.map Prod.snd

@[simp] theorem keys_gather (entries : Entries α) :
    keys (gather entries) = (keys entries).eraseDups := by
  simp [gather, keys, Function.comp_def]

theorem mem_gather {entries : Entries α} {key : String} {found : List α} :
    (key, found) ∈ gather entries ↔ key ∈ keys entries ∧ valuesOf key entries = found := by
  simp only [gather, List.mem_map, List.mem_eraseDups, Prod.mk.injEq]
  constructor
  · rintro ⟨_, hkey, rfl, hfound⟩
    exact ⟨hkey, hfound⟩
  · rintro ⟨hkey, hfound⟩
    exact ⟨key, hkey, rfl, hfound⟩

theorem ne_nil_of_mem_gather {entries : Entries α} {entry : String × List α}
    (h : entry ∈ gather entries) : entry.2 ≠ [] := by
  obtain ⟨hkey, hfound⟩ := mem_gather.mp h
  rw [← hfound]
  exact valuesOf_ne_nil hkey

/-- Gathering does not look at the values. -/
theorem gather_map (f : α → β) (entries : Entries α) :
    gather (entries.map fun entry => (entry.1, f entry.2))
      = (gather entries).map fun entry => (entry.1, entry.2.map f) := by
  have hkeys : keys (entries.map fun entry => (entry.1, f entry.2)) = keys entries := by
    simp [keys, Function.comp_def]
  have hvalues : ∀ key, valuesOf key (entries.map fun entry => (entry.1, f entry.2))
      = (valuesOf key entries).map f := by
    intro key
    simp [valuesOf, List.filter_map, Function.comp_def]
  simp [gather, hkeys, hvalues, Function.comp_def]

theorem gather_zip_map (f : α → β) (keys : List String) (xs : List α) :
    gather (keys.zip (xs.map f))
      = (gather (keys.zip xs)).map fun entry => (entry.1, entry.2.map f) := by
  rw [List.zip_map_right, ← gather_map]
  rfl

/-! ### Filing one by one -/

/-- Filing under keys that are all different changes the values of one key. A key that is not there
has no values yet. -/
theorem file_map_keys {key : String} (value : α) {found : String → List α} {ks : List String}
    (hks : ks.Nodup) (hfound : key ∉ ks → found key = []) :
    file key value (ks.map fun k => (k, found k))
      = (if key ∈ ks then ks else ks ++ [key]).map
          fun k => (k, if k = key then found k ++ [value] else found k) := by
  induction ks with
  | nil => simp [file, hfound List.not_mem_nil]
  | cons k ks ih =>
    obtain ⟨hk, hks⟩ := List.nodup_cons.mp hks
    by_cases h : k = key
    · subst h
      have hrest : ∀ k' ∈ ks,
          (k', found k') = (k', if k' = k then found k' ++ [value] else found k') := by
        intro k' hk'
        rw [if_neg (fun he : k' = k => hk (he ▸ hk'))]
      simp [file, List.map_congr_left hrest]
    · have hne : key ≠ k := Ne.symm h
      have hih := ih hks fun hmem => hfound (by simp [hne, hmem])
      rw [List.map_cons, file, if_neg h, hih]
      by_cases hmem : key ∈ ks <;> simp [h, hne, hmem]

theorem file_gather (key : String) (value : α) (entries : Entries α) :
    file key value (gather entries) = gather (entries ++ [(key, value)]) := by
  have hfound : key ∉ (keys entries).eraseDups → valuesOf key entries = [] := fun h =>
    valuesOf_eq_nil fun hmem => h (List.mem_eraseDups.mpr hmem)
  have hkeys : keys (entries ++ [(key, value)]) = keys entries ++ [key] := by simp [keys]
  rw [gather, file_map_keys value (nodup_eraseDups _) hfound, gather, hkeys, eraseDups_concat]
  simp only [List.mem_eraseDups, valuesOf_concat]

/-- **Filing entries one by one gathers them.** -/
theorem foldl_file (entries : Entries α) :
    entries.foldl (fun filed (key, value) => file key value filed) [] = gather entries := by
  induction entries using List.reverseRecOn with
  | nil => rfl
  | append_singleton entries entry ih => rw [List.foldl_append, ih, ← file_gather]; rfl

theorem flatMap_file_perm (key : String) (value : α) (filed : Entries (List α)) :
    ((file key value filed).flatMap Prod.snd).Perm (filed.flatMap Prod.snd ++ [value]) := by
  induction filed with
  | nil => exact List.Perm.refl _
  | cons entry rest ih =>
    obtain ⟨k, found⟩ := entry
    rw [file]
    split
    · simp only [List.flatMap_cons, List.append_assoc]
      exact List.perm_append_comm.append_left found
    · simp only [List.flatMap_cons, List.append_assoc]
      exact ih.append_left found

/-- **Gathering loses and repeats nothing.** -/
theorem flatMap_gather_perm (entries : Entries α) :
    ((gather entries).flatMap Prod.snd).Perm (values entries) := by
  induction entries using List.reverseRecOn with
  | nil => exact List.Perm.refl _
  | append_singleton entries entry ih =>
    obtain ⟨key, value⟩ := entry
    rw [← file_gather]
    have hvalues : values (entries ++ [(key, value)]) = values entries ++ [value] := by
      simp [values]
    rw [hvalues]
    exact (flatMap_file_perm key value _).trans (ih.append_right [value])

end Entries

/-! ### Classes by a column -/

namespace Records

/-- The records under each key text of a column, the keys in the order in which they are first
seen. -/
def classes (records : Records) (c : Column) : Except QueryError (List (String × Records)) := do
  let keys ← records.keysOn c
  return (Entries.gather (keys.zip records.toList)).map fun (key, members) => (key, ⟨members⟩)

/-- Reading and filing element after element is reading all first and filing then. -/
theorem foldlM_file (c : Column) (entries : List (Value × Nat)) (filed : Entries (List Value)) :
    entries.foldlM (fun filed (value, position) => do
        return Entries.file (← c.read value position).keyText value filed) filed
      = do
        let values ← entries.mapM fun (value, position) => c.read value position
        return ((values.map Value.keyText).zip (entries.map Prod.fst)).foldl
          (fun filed (key, value) => Entries.file key value filed) filed := by
  induction entries generalizing filed with
  | nil => rfl
  | cons entry rest ih =>
    rw [List.foldlM_cons, List.mapM_cons]
    simp only [bind_assoc, pure_bind, ih]
    rfl

/-- **One level of grouping gives the classes of the column**, each as a leaf. -/
theorem split_eq (records : Records) (c : Column) :
    records.split c = do
      let classes ← records.classes c
      return ⟨classes.map fun (key, members) => (key, .leaf members)⟩ := by
  simp only [split, foldlM_file, map_fst_indexed, classes, keysOn, column, bind_assoc, pure_bind,
    Entries.foldl_file, List.map_map]
  rfl

end Records

end RecordQuery
