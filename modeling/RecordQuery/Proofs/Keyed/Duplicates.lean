import RecordQuery.Proofs.Keyed.Intersection

/-!
# Removing duplicates

Removing duplicates keeps the elements at the positions whose key text stands at no earlier position
(`Records.foremostBy`). Which these are is settled by the elements in front alone, so elements that
are appended cannot displace one that was kept: they are checked against each other, and then
against all that came before them, kept or not.

An element that moves forward may be read differently by a column that looks at positions. So
removing duplicates once more, or from records that are appended to others, is compared only by
columns that do not.

## Which elements are meant

The elements that stay are a list of values, and from the values one cannot see where they stood.
Two equal elements cannot be told apart in it, so it would not say that the first of them stayed.
`Records.foremostBy` keeps the positions. What stays is this list without them, and it is compared
with the key texts position by position.

That a key text stands at no earlier position is said by looking the texts up in the list of all key
texts. An earlier element that went counts as well; it makes no difference, since there is one with
its key text in front of it that stayed.

## Records in a row

`Records.dedupOn_append` removes duplicates from both parts first, and then drops from what is left
of the second part what the first part has. It would come to the same to drop first and to remove
duplicates then. Errors are part of the equation: the first part is read first on both sides.

## Implementation notes

The induction for `Entries.foremost_append` is on the later list, from the back. A further entry
joins the foremost ones of the whole exactly if its key is neither in the first list nor in what
precedes it in the later one, and the two filters ask these two questions one after the other.

## Main definitions

* `Records.foremostBy` — the elements whose key text no earlier element has, with their positions

## Main results

* `Entries.foremost_append` — the foremost entries of two lists in a row
* `Records.dedupOn_eq_foremostBy` — what stays, position by position
* `Records.dedupOn_append` — removing duplicates from records in a row
* `Records.dedupOn_keeps_first` — the summary
-/

namespace RecordQuery

namespace Entries

variable {α : Type}

/-- **The foremost entries of two lists in a row** are those of the first one, and those of the
second one whose key is new. -/
theorem foremost_append (first later : Entries α) :
    foremost (first ++ later)
      = foremost first ++ (foremost later).filter fun entry => decide (entry.1 ∉ keys first) := by
  induction later using List.reverseRecOn with
  | nil => exact congrArg foremost (List.append_nil first) |>.trans (List.append_nil _).symm
  | append_singleton later entry ih =>
    obtain ⟨key, value⟩ := entry
    rw [← List.append_assoc, foremost_concat, foremost_concat, keys_append, ih]
    by_cases hlater : key ∈ keys later
    · simp [hlater]
    · by_cases hfirst : key ∈ keys first
      · simp [hlater, hfirst]
      · simp [hlater, hfirst]

end Entries

namespace Records

variable {records : Records} {c : Column}

/-! ### Position by position -/

/-- The elements whose key text no earlier element has, with their positions. -/
def foremostBy (records : Records) (keys : List String) : List (Value × ℕ) :=
  records.indexed.filter fun entry =>
    decide (∀ earlier < entry.2, keys[earlier]? ≠ keys[entry.2]?)

theorem notMem_take_iff {keys : List String} {key : String} {position : ℕ}
    (h : keys[position]? = some key) :
    key ∉ keys.take position ↔ ∀ earlier < position, keys[earlier]? ≠ keys[position]? := by
  rw [h, List.mem_iff_getElem?, not_exists]
  refine forall_congr' fun earlier => ?_
  rw [List.getElem?_take]
  by_cases hlt : earlier < position <;> simp [hlt]

/-- The foremost entries, and where their elements stand. -/
theorem foremostBy_eq_map {keys : List String} (hkeys : records.keysOn c = .ok keys) :
    records.foremostBy keys
      = ((keys.zip records.toList).zipIdx.filter fun entry =>
          decide (entry.1.1 ∉ keys.take entry.2)).map (Prod.map Prod.snd id) := by
  have hindexed : records.indexed
      = (keys.zip records.toList).zipIdx.map (Prod.map Prod.snd id) := by
    have helements : (keys.zip records.toList).map Prod.snd = records.toList :=
      List.map_snd_zip (Nat.le_of_eq (length_of_keysOn hkeys).symm)
    conv_lhs => rw [indexed, ← helements, List.zipIdx_map]
  rw [foremostBy, hindexed, List.filter_map]
  refine congrArg _ (List.filter_congr ?_)
  rintro ⟨⟨key, element⟩, position⟩ hmem
  have hentry := List.mem_zipIdx_iff_getElem?.mp hmem
  have hkey : keys[position]? = some key := (List.getElem?_zip_eq_some.mp hentry).1
  exact (decide_eq_decide.mpr (notMem_take_iff hkey)).symm

/-- The foremost elements by their key texts are the foremost entries under these. -/
theorem map_fst_foremostBy {keys : List String} (hkeys : records.keysOn c = .ok keys) :
    (records.foremostBy keys).map Prod.fst
      = Entries.values (Entries.foremost (keys.zip records.toList)) := by
  rw [foremostBy_eq_map hkeys, Entries.foremost, Entries.values, keys_zip_toList hkeys,
    List.map_map, List.map_map]
  rfl

theorem map_key_foremostBy {keys : List String} (hkeys : records.keysOn c = .ok keys) :
    (records.foremostBy keys).map (fun entry => keys[entry.2]?) = keys.eraseDups.map some := by
  have hforemost : keys.eraseDups = Entries.keys (Entries.foremost (keys.zip records.toList)) := by
    rw [Entries.keys_foremost, keys_zip_toList hkeys]
  rw [hforemost, Entries.foremost, keys_zip_toList hkeys, foremostBy_eq_map hkeys, Entries.keys,
    List.map_map, List.map_map, List.map_map]
  refine List.map_congr_left ?_
  rintro ⟨⟨key, element⟩, position⟩ hkept
  have hentry := List.mem_zipIdx_iff_getElem?.mp (List.mem_filter.mp hkept).1
  exact (List.getElem?_zip_eq_some.mp hentry).1

theorem dedupOn_eq (records : Records) (c : Column) :
    records.dedupOn c = do
      let keys ← records.keysOn c
      return ⟨Entries.values (Entries.foremost (keys.zip records.toList))⟩ := by
  cases hkeys : records.keysOn c with
  | error e =>
    rw [dedupOn, toEntriesOn, hkeys]
    rfl
  | ok keys =>
    rw [dedupOn, toEntriesOn_eq_foremost hkeys]
    rfl

/-- **What stays are the elements at the positions whose key text no earlier position has.** -/
theorem dedupOn_eq_foremostBy {keys : List String} (hkeys : records.keysOn c = .ok keys) :
    records.dedupOn c = .ok ⟨(records.foremostBy keys).map Prod.fst⟩ := by
  rw [map_fst_foremostBy hkeys, dedupOn_eq, hkeys]
  rfl

/-! ### Once more -/

/-- **Removing duplicates once more changes nothing**, by a column that ignores positions. -/
theorem dedupOn_dedupOn (hc : c.Positionless) (records : Records) :
    (do (← records.dedupOn c).dedupOn c) = records.dedupOn c := by
  cases hkeys : records.keysOn c with
  | error e =>
    rw [dedupOn_eq records, hkeys]
    rfl
  | ok keys =>
    have hentries := toEntriesOn_of_labels hc (labels_foremost hc hkeys)
    rw [dedupOn_eq records, hkeys]
    show dedupOn ⟨Entries.values (Entries.foremost (keys.zip records.toList))⟩ c = _
    rw [dedupOn, hentries]
    rfl

/-! ### Records in a row -/

theorem column_eq_mapM (hc : c.Positionless) (records : Records) :
    records.column c = records.toList.mapM fun element => c.read element 0 := by
  rw [← map_fst_indexed, List.mapM_map, column]
  congr 1
  funext entry
  exact hc entry.1 entry.2 0

theorem toList_append (first later : Records) :
    (first.append [.many later.toList]).toList = first.toList ++ later.toList := by
  simp [append, Batch.toList]

theorem keysOn_append (hc : c.Positionless) (first later : Records) :
    (first.append [.many later.toList]).keysOn c = do
      let keys ← first.keysOn c
      return keys ++ (← later.keysOn c) := by
  simp only [keysOn, column_eq_mapM hc, toList_append, List.mapM_append, bind_assoc, pure_bind,
    List.map_append]

/-- The elements whose key text occurs nowhere in the records. -/
def missingFrom (c : Column) (records : Records) (elements : List Value) : List Value :=
  elements.filter fun element => decide (c.key? element ∉ records.toList.map c.key?)

/-- Of entries with keys of their own, those whose key the records do not have. -/
theorem values_filter_eq_missingFrom {entries : Entries Value} (hlabels : c.Labels entries)
    {keys : List String} (hown : records.toList.map c.key? = keys.map some) :
    Entries.values (entries.filter fun entry => decide (entry.1 ∉ keys))
      = missingFrom c records (Entries.values entries) := by
  rw [missingFrom, hown, Entries.values, Entries.values, List.filter_map]
  refine congrArg _ (List.filter_congr fun entry hentry => ?_)
  rw [Function.comp_apply, hlabels.own entry hentry, decide_eq_decide]
  exact not_congr (List.mem_map_of_injective fun _ _ => Option.some.inj).symm

/-- **Removing duplicates from records in a row** is removing them from each, and then from the
later ones what the first ones have already. -/
theorem dedupOn_append (hc : c.Positionless) (first later : Records) :
    (first.append [.many later.toList]).dedupOn c = do
      let kept ← first.dedupOn c
      let more ← later.dedupOn c
      return kept.append [.many (missingFrom c first more.toList)] := by
  rw [dedupOn_eq, dedupOn_eq first, dedupOn_eq later, keysOn_append hc]
  cases hfirst : first.keysOn c with
  | error e => rfl
  | ok keys =>
    cases hlater : later.keysOn c with
    | error e => rfl
    | ok laterKeys =>
      have hlength : keys.length = first.toList.length := length_of_keysOn hfirst
      have hmissing := values_filter_eq_missingFrom (labels_foremost hc hlater)
        (map_key?_of_keysOn hc hfirst)
      have hvalues : Entries.values (Entries.foremost
            ((keys ++ laterKeys).zip (first.append [.many later.toList]).toList))
          = Entries.values (Entries.foremost (keys.zip first.toList))
            ++ missingFrom c first
              (Entries.values (Entries.foremost (laterKeys.zip later.toList))) := by
        rw [toList_append, List.zip_append hlength, Entries.foremost_append,
          keys_zip_toList hfirst, ← hmissing]
        exact List.map_append
      show Except.ok (Records.mk _) = Except.ok (append _ _)
      rw [hvalues]
      exact congrArg Except.ok (congrArg Records.mk (toList_append ⟨_⟩ ⟨_⟩).symm)

/-- **Removing duplicates keeps exactly the first element of each key text.** If all elements can be
read, those stay whose key text stands at no earlier position; their key texts differ, and are all
that there are. By a column that ignores positions, removing duplicates once more changes nothing,
and of records in a row there stays what stays of the first ones, followed by what stays of the
later ones and has a key text that the first ones lack. -/
theorem dedupOn_keeps_first (records : Records) (c : Column) :
    (∀ keys, records.keysOn c = .ok keys →
      records.dedupOn c = .ok ⟨(records.foremostBy keys).map Prod.fst⟩
        ∧ ((records.foremostBy keys).map fun entry => keys[entry.2]?).Nodup
        ∧ ∀ key, some key ∈ (records.foremostBy keys).map (fun entry => keys[entry.2]?)
          ↔ key ∈ keys)
    ∧ (c.Positionless →
      (do (← records.dedupOn c).dedupOn c) = records.dedupOn c
        ∧ ∀ later : Records, (records.append [.many later.toList]).dedupOn c = do
          let kept ← records.dedupOn c
          let more ← later.dedupOn c
          return kept.append [.many (missingFrom c records more.toList)]) := by
  refine ⟨fun keys hkeys => ⟨dedupOn_eq_foremostBy hkeys, ?_⟩, fun hc =>
    ⟨dedupOn_dedupOn hc records, dedupOn_append hc records⟩⟩
  have hinjective : Function.Injective (some : String → Option String) := fun _ _ => Option.some.inj
  rw [map_key_foremostBy hkeys]
  refine ⟨List.pairwise_map.mpr ((nodup_eraseDups keys).imp hinjective.ne), fun key => ?_⟩
  rw [List.mem_map_of_injective hinjective, List.mem_eraseDups]

/-- Key texts that come back, also in the records that are appended. -/
theorem dedupOn_keeps_first_repeated_keys :
    let element (n : Int) (tag : String) : Value := .obj [("n", .int n), ("tag", .str tag)]
    let first : Records := ⟨[element 3 "a", element 2 "b", element 3 "c", element 1 "d"]⟩
    let later : Records := ⟨[element 1 "e", element 5 "f", element 3 "g", element 5 "h"]⟩
    let c := Column.dotted "n"
    first.keysOn c = .ok ["3", "2", "3", "1"] ∧ c.Positionless
      ∧ first.dedupOn c = .ok ⟨[element 3 "a", element 2 "b", element 1 "d"]⟩
      ∧ (first.append [.many later.toList]).dedupOn c
        = .ok ⟨[element 3 "a", element 2 "b", element 1 "d", element 5 "f"]⟩ := by
  intro element first later c
  have hkeys : first.keysOn c = .ok ["3", "2", "3", "1"] := rfl
  have hlater : later.keysOn c = .ok ["1", "5", "3", "5"] := rfl
  have hc : c.Positionless := Column.positionless_path _
  have hfirstKept := ((dedupOn_keeps_first first c).1 _ hkeys).1
  have hlaterKept := ((dedupOn_keeps_first later c).1 _ hlater).1
  have happended := ((dedupOn_keeps_first first c).2 hc).2 later
  rw [hfirstKept, hlaterKept] at happended
  exact ⟨hkeys, hc, hfirstKept, happended⟩

end Records

end RecordQuery
