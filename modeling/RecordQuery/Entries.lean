/-!
# Ordered entries

A list of key–value pairs read as a map that remembers an order. Two orders occur. The entries of a
grouping stay in the order in which their keys were first seen: `put` replaces in place or appends,
`putNew` keeps what is there, and `file` collects. The fields of an object are sorted by key:
`place` puts a key where it belongs. Strings are ordered by the code points of their characters,
which is also the order of their UTF-8 bytes.

## Total, permissive reading

Entries are not required to have distinct keys: `List.lookup` finds the first one. The operations
keep keys distinct if they were, and their laws of look-up hold in any case.

## Main results

* `Entries.lookup_put`, `lookup_putNew`, `lookup_file`, `lookup_place` — what is found afterwards
* `Entries.keys_put`, `keys_putNew`, `keys_file` — a known key keeps its place, a new one goes last
-/

namespace RecordQuery

/-- A map that remembers an order, as the list of its entries. -/
abbrev Entries (α : Type) := List (String × α)

namespace Entries

variable {α : Type}

/-- The keys, in order. -/
def keys (entries : Entries α) : List String := entries.map Prod.fst

/-- The values, in the order of their keys. -/
def values (entries : Entries α) : List α := entries.map Prod.snd

@[simp] theorem keys_nil : keys ([] : Entries α) = [] := rfl

@[simp] theorem keys_cons (entry : String × α) (rest : Entries α) :
    keys (entry :: rest) = entry.1 :: keys rest := rfl

@[simp] theorem values_nil : values ([] : Entries α) = [] := rfl

@[simp] theorem values_cons (entry : String × α) (rest : Entries α) :
    values (entry :: rest) = entry.2 :: values rest := rfl

/-- Looking a key up compares it with the first key and goes on. -/
theorem lookup_cons_eq (other k : String) (v : α) (rest : Entries α) :
    ((k, v) :: rest : Entries α).lookup other
      = if other = k then some v else rest.lookup other := by
  by_cases h : other = k
  · subst h
    simp
  · have : (other == k) = false := beq_eq_false_iff_ne.mpr h
    simp [List.lookup_cons, this, h]

/-! ### In order of first appearance -/

/-- Sets the value under a key: an entry that is there keeps its place, a new one goes last. -/
def put (key : String) (value : α) : Entries α → Entries α
  | [] => [(key, value)]
  | (k, v) :: rest => if k = key then (k, value) :: rest else (k, v) :: put key value rest

/-- Adds an entry at the end unless its key is there already. -/
def putNew (key : String) (value : α) : Entries α → Entries α
  | [] => [(key, value)]
  | (k, v) :: rest => if k = key then (k, v) :: rest else (k, v) :: putNew key value rest

/-- Files a value under a key, behind the values that are filed there already. -/
def file (key : String) (value : α) : Entries (List α) → Entries (List α)
  | [] => [(key, [value])]
  | (k, vs) :: rest =>
    if k = key then (k, vs ++ [value]) :: rest else (k, vs) :: file key value rest

theorem lookup_put (key other : String) (value : α) (entries : Entries α) :
    (put key value entries).lookup other
      = if other = key then some value else entries.lookup other := by
  induction entries with
  | nil => simp [put, lookup_cons_eq]
  | cons entry rest ih =>
    obtain ⟨k, v⟩ := entry
    by_cases hk : k = key
    · subst hk
      by_cases ho : other = k <;> simp [put, lookup_cons_eq, ho]
    · by_cases ho : other = k
      · subst ho
        simp [put, hk]
      · simp [put, lookup_cons_eq, hk, ho, ih]

theorem lookup_putNew (key other : String) (value : α) (entries : Entries α) :
    (putNew key value entries).lookup other
      = if other = key then some ((entries.lookup key).getD value) else entries.lookup other := by
  induction entries with
  | nil => simp [putNew, lookup_cons_eq]
  | cons entry rest ih =>
    obtain ⟨k, v⟩ := entry
    by_cases hk : k = key
    · subst hk
      by_cases ho : other = k <;> simp [putNew, lookup_cons_eq, ho]
    · by_cases ho : other = k
      · subst ho
        simp [putNew, hk]
      · simp [putNew, lookup_cons_eq, hk, Ne.symm hk, ho, ih]

theorem lookup_file (key other : String) (value : α) (entries : Entries (List α)) :
    (file key value entries).lookup other
      = if other = key then some ((entries.lookup key).getD [] ++ [value])
        else entries.lookup other := by
  induction entries with
  | nil => simp [file, lookup_cons_eq]
  | cons entry rest ih =>
    obtain ⟨k, v⟩ := entry
    by_cases hk : k = key
    · subst hk
      by_cases ho : other = k <;> simp [file, lookup_cons_eq, ho]
    · by_cases ho : other = k
      · subst ho
        simp [file, hk]
      · simp [file, lookup_cons_eq, hk, Ne.symm hk, ho, ih]

theorem keys_put (key : String) (value : α) (entries : Entries α) :
    keys (put key value entries)
      = if key ∈ keys entries then keys entries else keys entries ++ [key] := by
  induction entries with
  | nil => simp [put]
  | cons entry rest ih =>
    obtain ⟨k, v⟩ := entry
    by_cases hk : k = key
    · simp [put, hk]
    · rw [put, if_neg hk, keys_cons, ih, keys_cons]
      by_cases h : key ∈ keys rest <;> simp [h, Ne.symm hk]

theorem keys_putNew (key : String) (value : α) (entries : Entries α) :
    keys (putNew key value entries)
      = if key ∈ keys entries then keys entries else keys entries ++ [key] := by
  induction entries with
  | nil => simp [putNew]
  | cons entry rest ih =>
    obtain ⟨k, v⟩ := entry
    by_cases hk : k = key
    · simp [putNew, hk]
    · rw [putNew, if_neg hk, keys_cons, ih, keys_cons]
      by_cases h : key ∈ keys rest <;> simp [h, Ne.symm hk]

theorem keys_file (key : String) (value : α) (entries : Entries (List α)) :
    keys (file key value entries)
      = if key ∈ keys entries then keys entries else keys entries ++ [key] := by
  induction entries with
  | nil => simp [file]
  | cons entry rest ih =>
    obtain ⟨k, v⟩ := entry
    by_cases hk : k = key
    · simp [file, hk]
    · rw [file, if_neg hk, keys_cons, ih, keys_cons]
      by_cases h : key ∈ keys rest <;> simp [h, Ne.symm hk]

/-! ### Sorted by key -/

/-- Sets the value under a key of sorted entries, keeping them sorted. -/
def place (key : String) (value : α) : Entries α → Entries α
  | [] => [(key, value)]
  | (k, v) :: rest =>
    if key < k then (key, value) :: (k, v) :: rest
    else if k = key then (k, value) :: rest
    else (k, v) :: place key value rest

/-- The same entries sorted by key. Of two entries with one key the later one stays. -/
def sorted (entries : Entries α) : Entries α :=
  entries.foldl (fun placed (key, value) => place key value placed) []

theorem lookup_place (key other : String) (value : α) (entries : Entries α) :
    (place key value entries).lookup other
      = if other = key then some value else entries.lookup other := by
  induction entries with
  | nil => simp [place, lookup_cons_eq]
  | cons entry rest ih =>
    obtain ⟨k, v⟩ := entry
    by_cases hlt : key < k
    · simp [place, lookup_cons_eq, hlt]
    · by_cases hk : k = key
      · subst hk
        by_cases ho : other = k <;> simp [place, lookup_cons_eq, ho]
      · by_cases ho : other = k
        · subst ho
          simp [place, hlt, hk]
        · simp [place, lookup_cons_eq, hlt, hk, ho, ih]

end Entries

end RecordQuery
