import RecordQuery.Proofs.Grouping.Partition
import RecordQuery.Proofs.Values.KeyText

/-!
# One class per key

Grouping, maps and removing duplicates all stand on the same classes: the elements under each key
text of a column. A grouping has a leaf for each class, a map has the first element of each, and
these are also what stays without duplicates. So whether two elements are taken together is one
question, put to their key texts, and the answer for equal values is that of `Value.keyText_eq_iff`.

Elements of one class may be equal as values, so the classes hold them together with their
positions (`Records.occurrences`).

## Three loops, one list

The three operations are loops of their own. Grouping files each element as soon as it is read. A
map takes an element in only if its key is new, and removing duplicates returns the values of the
map. That they see the same classes has to be shown: keeping what is there keeps the first of the
values that filing would have gathered (`Entries.foldl_putNew`). The rest is a look at the gathered
list.

## Classes of positions

Which elements are taken together is said of positions. `Records.occurrences` carries each element
with its position through the gathering, which looks at neither, and without the positions it is
what the operations work with (`Records.gather_keys_zip`). So `Records.same_class_iff` is about the
elements at two positions, whether or not these are equal.

## Equal values

Strict equality and having one key text are two relations, and neither contains the other. Equal
values may have different texts, if numbers in them are spelt apart; the zeros of the two signs are
equal and are. `Value.KeysApart` is the exact condition. In the other direction, different values
may share a text, as all objects do. What is lost by this is the subject of
`RecordQuery.Proofs.Keyed.Lossless`.

## Main results

* `Entries.foldl_putNew` — keeping what is there keeps the first value under each key
* `Records.dedupOn_eq_ok` — what stays is the first element of each class
* `Records.same_class_iff` — two elements are in one class if their key texts are the same
* `Records.equal_values_one_class` — equal values and classes
-/

namespace RecordQuery

namespace Entries

variable {α ι : Type}

/-! ### First values -/

/-- The first value under each key. -/
def firsts (filed : Entries (List α)) : Entries α :=
  filed.filterMap fun (key, found) => found.head?.map (key, ·)

/-- The values without their marks. -/
def unmarked (filed : Entries (List (α × ι))) : Entries (List α) :=
  filed.map fun (key, found) => (key, found.map Prod.fst)

/-- Filing behind what is there changes no first value. -/
theorem firsts_file (key : String) (value : α) {filed : Entries (List α)}
    (h : ∀ entry ∈ filed, entry.2 ≠ []) :
    firsts (file key value filed) = putNew key value (firsts filed) := by
  induction filed with
  | nil => rfl
  | cons entry rest ih =>
    obtain ⟨k, found⟩ := entry
    obtain ⟨hfound, hrest⟩ := List.forall_mem_cons.mp h
    obtain ⟨first, later, rfl⟩ := List.exists_cons_of_ne_nil hfound
    by_cases hk : k = key
    · simp [file, firsts, putNew, hk]
    · have hih := ih hrest
      simp only [firsts] at hih
      simp [file, firsts, putNew, hk, hih]

/-- **Keeping what is there keeps the first value under each key.** -/
theorem foldl_putNew (entries : Entries α) :
    entries.foldl (fun kept (key, value) => putNew key value kept) []
      = firsts (gather entries) := by
  induction entries using List.reverseRecOn with
  | nil => rfl
  | append_singleton entries entry ih =>
    have hne : ∀ filed ∈ gather entries, filed.2 ≠ [] := fun _ => ne_nil_of_mem_gather
    rw [List.foldl_append, ih, ← file_gather, firsts_file _ _ hne]
    rfl

/-! ### Positions -/

/-- A position is under the key that is found there. -/
theorem mem_valuesOf_zipIdx {key : String} {keys : List String} {xs : List α}
    (h : keys.length = xs.length) {i : Nat} :
    i ∈ (valuesOf key (keys.zip xs.zipIdx)).map Prod.snd ↔ keys[i]? = some key := by
  simp only [valuesOf, List.map_map, List.mem_map, List.mem_filter, beq_iff_eq]
  constructor
  · rintro ⟨⟨k, x, j⟩, ⟨hmem, rfl⟩, rfl⟩
    obtain ⟨n, hn⟩ := List.mem_iff_getElem?.mp hmem
    rw [List.getElem?_zip_eq_some, List.getElem?_zipIdx, Option.map_eq_some_iff] at hn
    obtain ⟨hkey, y, -, hy⟩ := hn
    obtain ⟨-, rfl⟩ := Prod.mk.inj hy
    simpa using hkey
  · intro hkey
    have hi : i < xs.length := h ▸ (List.getElem?_eq_some_iff.mp hkey).1
    refine ⟨(key, xs[i], i), ⟨List.mem_iff_getElem?.mpr ⟨i, ?_⟩, rfl⟩, rfl⟩
    rw [List.getElem?_zip_eq_some, List.getElem?_zipIdx, List.getElem?_eq_getElem hi]
    exact ⟨hkey, by simp⟩

end Entries

namespace Records

/-- The elements with their positions, under the key texts of their values. -/
def occurrences (records : Records) (values : List Value) : Entries (List (Value × Nat)) :=
  Entries.gather ((values.map Value.keyText).zip records.indexed)

variable {records : Records} {c : Column} {values : List Value}

/-! ### What is made of the classes -/

theorem gather_keys_zip (records : Records) (values : List Value) :
    Entries.gather ((values.map Value.keyText).zip records.toList)
      = (records.occurrences values).unmarked := by
  rw [← map_fst_indexed, Entries.gather_zip_map]
  rfl

theorem group_one (records : Records) (c : Column) : records.group [c] = records.split c := by
  simp [group]

theorem group_one_eq_ok (h : records.column c = .ok values) :
    records.group [c] = .ok ⟨(records.occurrences values).unmarked.map
      fun (key, members) => (key, .leaf ⟨members⟩)⟩ := by
  have hkeys : records.keysOn c = .ok (values.map Value.keyText) :=
    keysOn_eq_ok_iff.mpr ⟨values, h, rfl⟩
  rw [group_one, split_eq, classes_eq_ok_iff.mpr ⟨_, hkeys, rfl⟩, gather_keys_zip]
  simp

theorem toEntriesOn_eq_ok (h : records.column c = .ok values) :
    records.toEntriesOn c = .ok (records.occurrences values).unmarked.firsts := by
  rw [toEntriesOn, keysOn_eq_ok_iff.mpr ⟨values, h, rfl⟩, ← gather_keys_zip, ← Entries.foldl_putNew]
  rfl

theorem dedupOn_eq_ok (h : records.column c = .ok values) :
    records.dedupOn c = .ok ⟨(records.occurrences values).unmarked.firsts.values⟩ := by
  rw [dedupOn, toEntriesOn_eq_ok h]
  rfl

/-! ### Equal values -/

/-- **Two elements are in one class if their key texts are the same.** -/
theorem same_class_iff (h : records.column c = .ok values) {i j : Nat} {a b : Value}
    (ha : values[i]? = some a) (hb : values[j]? = some b) :
    (∃ cls ∈ records.occurrences values, i ∈ cls.2.map Prod.snd ∧ j ∈ cls.2.map Prod.snd)
      ↔ a.keyText = b.keyText := by
  have hlength : (values.map Value.keyText).length = records.toList.length := by
    rw [List.length_map, length_of_column h, size]
  have hkeys : Entries.keys ((values.map Value.keyText).zip records.indexed)
      = values.map Value.keyText :=
    List.map_fst_zip (by rw [indexed, List.length_zipIdx]; exact Nat.le_of_eq hlength)
  have hposition : ∀ {key : String} {i : Nat} {v : Value}, values[i]? = some v →
      (i ∈ (Entries.valuesOf key ((values.map Value.keyText).zip records.indexed)).map Prod.snd
        ↔ v.keyText = key) := by
    intro key i v hv
    rw [indexed, Entries.mem_valuesOf_zipIdx hlength, List.getElem?_map, hv]
    exact Option.some_inj
  constructor
  · rintro ⟨⟨key, members⟩, hmem, hi, hj⟩
    obtain ⟨-, rfl⟩ := Entries.mem_gather.mp hmem
    exact ((hposition ha).mp hi).trans ((hposition hb).mp hj).symm
  · intro heq
    have hkey : a.keyText ∈ values.map Value.keyText :=
      List.mem_map_of_mem (List.mem_of_getElem? ha)
    exact ⟨(a.keyText, _), Entries.mem_gather.mpr ⟨by rwa [hkeys], rfl⟩, (hposition ha).mpr rfl,
      (hposition hb).mpr heq.symm⟩

/-- **Equal values have one key text unless numbers in them are spelt apart, and elements with equal
values are then in one class.** The classes of a column are the leaves of a grouping; their first
elements make a map, and are what stays without duplicates. -/
theorem equal_values_one_class {a b : Value} (ha : a.InRange) (hb : b.InRange)
    (h : a.equal b = true) :
    (a.keyText = b.keyText ↔ ¬ a.KeysApart b)
      ∧ ∀ (records : Records) (c : Column) (values : List Value), records.column c = .ok values →
        records.group [c] = .ok ⟨(records.occurrences values).unmarked.map
            fun (key, members) => (key, .leaf ⟨members⟩)⟩
          ∧ records.toEntriesOn c = .ok (records.occurrences values).unmarked.firsts
          ∧ records.dedupOn c = .ok ⟨(records.occurrences values).unmarked.firsts.values⟩
          ∧ ∀ i j, values[i]? = some a → values[j]? = some b →
            ((∃ cls ∈ records.occurrences values,
                i ∈ cls.2.map Prod.snd ∧ j ∈ cls.2.map Prod.snd)
              ↔ ¬ a.KeysApart b) := by
  have hkeys : a.keyText = b.keyText ↔ ¬ a.KeysApart b := Value.keyText_eq_iff ha hb h
  refine ⟨hkeys, fun records c values hvalues => ⟨group_one_eq_ok hvalues,
    toEntriesOn_eq_ok hvalues, dedupOn_eq_ok hvalues, fun i j hi hj => ?_⟩⟩
  rw [same_class_iff hvalues hi hj, hkeys]

/-- The integer `17` and the double `17` share a key text, and elements with them a class. -/
theorem equal_values_one_class_whole_double :
    let x : Value := .num (.float (.ofInt 17))
    let records : Records := ⟨[.int 17, x]⟩
    Value.equal (.int 17) x = true ∧ (Value.int 17).keyText = x.keyText
      ∧ ∃ cls ∈ records.occurrences records.toList,
        0 ∈ cls.2.map Prod.snd ∧ 1 ∈ cls.2.map Prod.snd := by
  intro x records
  have ha : Value.InRange (.int 17) := .num (by decide)
  have hb : x.InRange := .num (by decide +kernel)
  have hequal : Value.equal (.int 17) x = true := by decide +kernel
  have hapart : ¬ (Value.int 17).KeysApart x := by
    rw [Value.int, Value.keysApart_num_iff]
    decide +kernel
  obtain ⟨htext, hclasses⟩ := equal_values_one_class ha hb hequal
  exact ⟨hequal, htext.mpr hapart,
    ((hclasses records .itself records.toList rfl).2.2.2 0 1 rfl rfl).mpr hapart⟩

end Records

/-- Equal values do not share a key: the two zeros do not. -/
theorem Value.equal_not_keyText :
    ¬ ∀ a b : Value, a.InRange → b.InRange → equal a b = true → a.keyText = b.keyText := by
  intro h
  have htext := h (.int 0) (.num (.float .negZero)) (.num (by decide)) (.num (by decide +kernel))
    (by decide +kernel)
  exact absurd htext (by decide +kernel)

end RecordQuery
