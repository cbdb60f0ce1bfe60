import RecordQuery.Proofs.Grouping.Partition
import RecordQuery.Proofs.Values.Equality
import RecordQuery.Proofs.Values.Fields

/-!
# Groupings through JSON and back

Written as JSON, a leaf is an array and a branch is an object; read back, an array is a leaf and an
object is a branch, however empty. So nothing is lost but the order of the entries: a grouping keeps
its keys in the order in which they were set, and an object keeps its fields in the order of the
keys.

Two properties of the data carry this. A grouping has no key twice in one branch
(`Part.DistinctKeys`); all ways of making groupings keep to it, and without it an object would keep
only the last of the parts under one key. An object from outside is sorted at every depth
(`Value.Ordered`), so writing it again does not move its fields. Strings are compared by code
points, which is the order of their bytes in UTF-8.

A value that describes no grouping is refused with the first entry that is neither an array nor an
object, in the order of the text (`Value.fieldMisfits`).

## The two directions

Written and read, a grouping comes back sorted; read and written, a value comes back unchanged. The
directions differ because entries may be in any order and fields in one only. `Part.Rearranged` says
that two trees have the same leaves and branches under the same keys, and leaves open in which
order. With `Part.KeysAscend` besides, there is only one tree that can come back.

## Implementation notes

The predicates on parts and on values are inductive, with a premise about all entries of a branch or
all items of an array. An induction on them has its hypothesis for each entry, and goes through
lists without a second induction. The functions that write and read do recurse along lists; each is
first shown to be a map over the entries, with effects or without (`Grouping.entryValues_eq_map`,
`Grouping.entriesOf_eq_mapM`).

What is refused is followed by `Grouping.Reports`, which relates the misfits in a value to an
outcome. It is kept by doing one thing after another (`Grouping.Reports.bind`), where misfits are
appended, so that the one reported is the first of all.

## Main definitions

* `Part.EveryLevel`, `Part.DistinctKeys`, `Part.KeysAscend` — what holds of the keys at any depth
* `Part.Rearranged` — the same tree but for the order of entries
* `Value.Groupable`, `Value.fieldMisfits` — the values that describe groupings, and what is wrong
  with the others

## Main results

* `Grouping.distinctKeys_set`, `distinctKeys_group`, `distinctKeys_ofValue` — no key is there twice
* `Grouping.exists_partOf_partValue`, `partValue_of_partOf` — one direction each
* `Grouping.reports_entriesOf` — which entry is reported
* `Grouping.round_trip` — the summary
-/

namespace RecordQuery

namespace Entries

variable {α : Type}

theorem mem_put {key : String} {value : α} {entries : Entries α} {entry : String × α}
    (h : entry ∈ put key value entries) : entry = (key, value) ∨ entry ∈ entries := by
  induction entries with
  | nil => exact .inl (List.mem_singleton.mp h)
  | cons first rest ih =>
    obtain ⟨k, v⟩ := first
    rw [put] at h
    split at h
    · next hk =>
      rcases List.mem_cons.mp h with rfl | h
      · exact .inl (by rw [hk])
      · exact .inr (List.mem_cons_of_mem _ h)
    · rcases List.mem_cons.mp h with rfl | h
      · exact .inr List.mem_cons_self
      · exact (ih h).imp_right (List.mem_cons_of_mem _)

end Entries

/-! ### Keys at every level -/

namespace Part

/-- Every list of keys in the part, at any depth, is as required. -/
inductive EveryLevel (P : List String → Prop) : Part → Prop
  | leaf (records : Records) : EveryLevel P (.leaf records)
  | branch {entries : List (String × Part)} (hkeys : P (Entries.keys entries))
      (h : ∀ entry ∈ entries, EveryLevel P entry.2) : EveryLevel P (.branch entries)

/-- No branch has a key twice. -/
abbrev DistinctKeys : Part → Prop := EveryLevel List.Nodup

/-- The keys of every branch are in ascending order. -/
abbrev KeysAscend : Part → Prop := EveryLevel (List.Pairwise (· < ·))

/-- The same leaves and the same branches under the same keys, in whatever order. -/
inductive Rearranged : Part → Part → Prop
  | leaf (records : Records) : Rearranged (.leaf records) (.leaf records)
  | branch {entries others : List (String × Part)}
      (hkeys : (Entries.keys entries).Perm (Entries.keys others))
      (h : ∀ key part other, entries.lookup key = some part → others.lookup key = some other →
        Rearranged part other) : Rearranged (.branch entries) (.branch others)

/-- A layered tree has no key twice. -/
theorem Layered.distinctKeys {part : Part} {depth : Nat} (h : part.Layered depth) :
    part.DistinctKeys := by
  induction depth generalizing part with
  | zero =>
    obtain ⟨records, rfl⟩ := h.exists_leaf
    exact .leaf records
  | succ depth ih =>
    obtain ⟨entries, rfl⟩ := h.exists_branch
    exact .branch h.1 fun entry hentry => ih (h.2 entry hentry)

end Part

namespace Grouping

theorem distinctKeys_empty : empty.toPart.DistinctKeys :=
  .branch .nil (List.forall_mem_nil _)

theorem distinctKeys_set {grouping : Grouping} (h : grouping.toPart.DistinctKeys) (key : String)
    {part : Part} (hpart : part.DistinctKeys) : (grouping.set key part).toPart.DistinctKeys := by
  obtain ⟨entries⟩ := grouping
  cases h with
  | branch hkeys h =>
    refine .branch ?_ fun entry hentry => ?_
    · rw [set, Entries.keys_put]
      split
      · exact hkeys
      · next hnew =>
        rw [← List.concat_eq_append]
        exact hkeys.concat hnew
    · rcases Entries.mem_put hentry with rfl | hentry
      · exact hpart
      · exact h entry hentry

theorem distinctKeys_group {records : Records} {columns : List Column} {grouping : Grouping}
    (h : records.group columns = .ok grouping) : grouping.toPart.DistinctKeys := by
  cases columns with
  | nil =>
    obtain rfl := Except.ok.inj h
    exact distinctKeys_empty
  | cons first rest => exact (Records.layered_nest (Records.group_eq_ok_iff.mp h)).distinctKeys

end Grouping

/-! ### Values that describe groupings -/

namespace Value

/-- The fields of every object in the value, at any depth, are in ascending order of their keys. -/
inductive Ordered : Value → Prop
  | null : Ordered .null
  | bool (b : Bool) : Ordered (.bool b)
  | num (n : Num) : Ordered (.num n)
  | str (s : String) : Ordered (.str s)
  | arr {items : List Value} (h : ∀ v ∈ items, Ordered v) : Ordered (.arr items)
  | obj {fields : List (String × Value)} (hkeys : Entries.Ascending fields)
      (h : ∀ field ∈ fields, Ordered field.2) : Ordered (.obj fields)

/-- An object all of whose fields are arrays or again such objects. -/
inductive Groupable : Value → Prop
  | obj {fields : List (String × Value)}
      (h : ∀ field ∈ fields, field.2.kind ≠ .array → Groupable field.2) : Groupable (.obj fields)

mutual

/-- The entries that are neither leaves nor branches, with their kinds, in a value under a key. They
are in the order of the text. -/
def misfits (key : String) : Value → List (String × Kind)
  | .arr _ => []
  | .obj fields => fieldMisfits fields
  | other => [(key, other.kind)]

/-- The fields that are neither leaves nor branches, at any depth. -/
def fieldMisfits : List (String × Value) → List (String × Kind)
  | [] => []
  | (key, value) :: rest => misfits key value ++ fieldMisfits rest

end

end Value

namespace Grouping

theorem entryValues_eq_map (entries : List (String × Part)) :
    entryValues entries = entries.map fun entry => (entry.1, partValue entry.2) := by
  induction entries with
  | nil => rfl
  | cons entry rest ih => rw [entryValues, ih]; rfl

theorem entriesOf_eq_mapM (fields : List (String × Value)) :
    entriesOf fields = fields.mapM fun field => do return (field.1, ← partOf field.1 field.2) := by
  induction fields with
  | nil => rfl
  | cons field rest ih =>
    rw [entriesOf, List.mapM_cons, ih]
    simp only [bind_assoc, pure_bind]

theorem entriesOf_eq_ok_iff {fields : List (String × Value)} {entries : List (String × Part)} :
    entriesOf fields = .ok entries
      ↔ List.Forall₂ (fun field entry => entry.1 = field.1 ∧ partOf field.1 field.2 = .ok entry.2)
          fields entries := by
  rw [entriesOf_eq_mapM, mapM_eq_ok_iff]
  simp only [bind_eq_ok_iff, pure_eq_ok_iff]
  refine iff_of_eq (congrArg (List.Forall₂ · fields entries) ?_)
  funext field entry
  obtain ⟨key, part⟩ := entry
  simp [eq_comm, and_comm]

/-- An object describes a branch with the parts that its fields describe. -/
theorem partOf_obj_eq_ok_iff {key : String} {fields : List (String × Value)} {part : Part} :
    partOf key (.obj fields) = .ok part
      ↔ ∃ entries, part = .branch entries
        ∧ List.Forall₂ (fun field entry => entry.1 = field.1 ∧ partOf field.1 field.2 = .ok entry.2)
          fields entries := by
  rw [partOf, bind_eq_ok_iff]
  refine exists_congr fun entries => ?_
  rw [entriesOf_eq_ok_iff, pure_eq_ok_iff, and_comm, eq_comm]

theorem exists_entriesOf_iff {fields : List (String × Value)} :
    (∃ entries, entriesOf fields = .ok entries)
      ↔ ∀ field ∈ fields, ∃ part, partOf field.1 field.2 = .ok part := by
  rw [entriesOf_eq_mapM, exists_mapM_eq_ok_iff]
  simp only [bind_eq_ok_iff, pure_eq_ok_iff]
  simp

theorem keys_entryValues (entries : List (String × Part)) :
    Entries.keys (entryValues entries) = Entries.keys entries := by
  rw [entryValues_eq_map, Entries.keys, List.map_map]
  rfl

/-- Reading the sorted fields of some entries gives the entries back, in the order of the fields. -/
theorem exists_entriesOf_sorted {entries : List (String × Part)}
    (hkeys : (Entries.keys entries).Nodup) {R : Part → Part → Prop}
    (h : ∀ entry ∈ entries, ∀ key, ∃ back, partOf key (partValue entry.2) = .ok back
      ∧ R entry.2 back) :
    ∃ others, entriesOf (Entries.sorted (entryValues entries)) = .ok others
      ∧ Entries.Ascending others ∧ (Entries.keys entries).Perm (Entries.keys others)
      ∧ ∀ other ∈ others, ∃ part, (other.1, part) ∈ entries ∧ R part other.2 := by
  have hperm : (Entries.sorted (entryValues entries)).Perm (entryValues entries) :=
    Entries.sorted_perm (by rwa [keys_entryValues])
  have hfield : ∀ field ∈ Entries.sorted (entryValues entries),
      ∃ part, (field.1, part) ∈ entries ∧ field.2 = partValue part := by
    intro field hfield
    rw [hperm.mem_iff, entryValues_eq_map] at hfield
    obtain ⟨entry, hentry, rfl⟩ := List.mem_map.mp hfield
    exact ⟨entry.2, hentry, rfl⟩
  obtain ⟨others, hothers⟩ := exists_entriesOf_iff.mpr fun field hmem => by
    obtain ⟨part, hpart, hvalue⟩ := hfield field hmem
    obtain ⟨back, hback, -⟩ := h _ hpart field.1
    exact ⟨back, hvalue ▸ hback⟩
  have hread := entriesOf_eq_ok_iff.mp hothers
  have hsame := Entries.keys_eq_of_forall₂ (hread.imp fun _ _ h => h.1)
  refine ⟨others, hothers, ?_, ?_, fun other hother => ?_⟩
  · rw [Entries.Ascending, hsame]
    exact Entries.ascending_sorted _
  · rw [hsame, ← keys_entryValues]
    exact (hperm.map Prod.fst).symm
  · obtain ⟨field, hmem, hkey, hpartOf⟩ := exists_of_mem_forall₂ hread hother
    obtain ⟨part, hpart, hvalue⟩ := hfield field hmem
    obtain ⟨back, hback, hR⟩ := h _ hpart field.1
    rw [hvalue, hback] at hpartOf
    exact ⟨part, hkey ▸ hpart, Except.ok.inj hpartOf ▸ hR⟩

/-- **Reading what was written** gives the same part, sorted at every level. -/
theorem exists_partOf_partValue {part : Part} (h : part.DistinctKeys) (key : String) :
    ∃ back, partOf key (partValue part) = .ok back ∧ part.Rearranged back ∧ back.KeysAscend := by
  induction h generalizing key with
  | leaf records => exact ⟨_, rfl, .leaf _, .leaf _⟩
  | @branch entries hkeys _ ih =>
    obtain ⟨others, hothers, hascending, hperm, hparts⟩ :=
      exists_entriesOf_sorted (R := fun part back => part.Rearranged back ∧ back.KeysAscend)
        hkeys ih
    refine ⟨.branch others, ?_, .branch hperm fun k part other hpart hother => ?_,
      .branch hascending fun other hother => ?_⟩
    · rw [partValue, Value.ofEntries, partOf, hothers]
      rfl
    · have hmem := (Entries.lookup_eq_some_iff_mem hascending.nodup).mp hother
      obtain ⟨part', hpart', hback, -⟩ := hparts _ hmem
      rw [← Entries.lookup_eq_some_iff_mem hkeys, hpart] at hpart'
      obtain rfl := Option.some.inj hpart'
      exact hback
    · obtain ⟨-, -, -, hback⟩ := hparts other hother
      exact hback

/-- **Writing what was read** gives the same value. -/
theorem partValue_of_partOf {v : Value} (hv : v.Ordered) {key : String} {part : Part}
    (h : partOf key v = .ok part) : partValue part = v := by
  induction hv generalizing key part with
  | null | bool | num | str => cases h
  | arr => rw [← Except.ok.inj h]; rfl
  | @obj fields hkeys _ ih =>
    obtain ⟨entries, rfl, hread⟩ := partOf_obj_eq_ok_iff.mp h
    have hvalues : entryValues entries = fields := by
      rw [entryValues_eq_map, ← List.forall₂_eq_eq_eq, List.forall₂_map_left_iff]
      refine (forall₂_imp_mem hread fun field hfield entry hentry => ?_).flip
      exact Prod.ext hentry.1 (ih field hfield hentry.2)
    rw [partValue, hvalues, Value.ofEntries, Entries.sorted_eq_self hkeys]

/-- What is read from a value with ordered fields has no key twice. -/
theorem distinctKeys_partOf {v : Value} (hv : v.Ordered) {key : String} {part : Part}
    (h : partOf key v = .ok part) : part.DistinctKeys := by
  induction hv generalizing key part with
  | null | bool | num | str => cases h
  | arr => exact Except.ok.inj h ▸ .leaf _
  | @obj fields hkeys _ ih =>
    obtain ⟨entries, rfl, hread⟩ := partOf_obj_eq_ok_iff.mp h
    refine .branch ?_ fun entry hentry => ?_
    · rw [Entries.keys_eq_of_forall₂ (hread.imp fun _ _ h => h.1)]
      exact hkeys.nodup
    · obtain ⟨field, hfield, -, hpartOf⟩ := exists_of_mem_forall₂ hread hentry
      exact ih field hfield hpartOf

/-! ### What is wrong with a value -/

/-- The outcome reports the first of some misfits, and is a success if there are none. -/
def Reports {α : Type} : List (String × Kind) → Except QueryError α → Prop
  | [], outcome => ∃ a, outcome = .ok a
  | (key, kind) :: _, outcome => outcome = .error (.badShape (.badEntry key kind))

theorem Reports.exists_ok_iff {α : Type} {misfits : List (String × Kind)} {x : Except QueryError α}
    (h : Reports misfits x) : (∃ a, x = .ok a) ↔ misfits = [] := by
  cases misfits with
  | nil => exact iff_of_true h rfl
  | cons misfit rest =>
    have hfail : x = .error (.badShape (.badEntry misfit.1 misfit.2)) := h
    rw [hfail]
    exact ⟨nofun, nofun⟩

theorem Reports.bind {α β : Type} {first rest : List (String × Kind)} {x : Except QueryError α}
    {f : α → Except QueryError β} (hx : Reports first x) (hf : ∀ a, Reports rest (f a)) :
    Reports (first ++ rest) (x >>= f) := by
  cases first with
  | nil =>
    obtain ⟨a, rfl⟩ := hx
    exact hf a
  | cons misfit first =>
    have hfail : x = .error (.badShape (.badEntry misfit.1 misfit.2)) := hx
    rw [hfail]
    rfl

theorem Reports.map {α β : Type} {misfits : List (String × Kind)} {x : Except QueryError α}
    (f : α → β) (h : Reports misfits x) : Reports misfits (x >>= fun a => pure (f a)) := by
  rw [← List.append_nil misfits]
  exact h.bind fun a => ⟨f a, rfl⟩

open Value in
mutual

theorem reports_partOf (key : String) : ∀ v : Value, Reports (misfits key v) (partOf key v)
  | .arr _ => ⟨_, rfl⟩
  | .obj fields => by
    rw [misfits, partOf]
    exact (reports_entriesOf fields).map _
  | .null | .bool _ | .num _ | .str _ => rfl

theorem reports_entriesOf :
    ∀ fields : List (String × Value), Reports (fieldMisfits fields) (entriesOf fields)
  | [] => ⟨_, rfl⟩
  | (key, v) :: rest => by
    rw [fieldMisfits, entriesOf]
    exact (reports_partOf key v).bind fun part => (reports_entriesOf rest).map _

end

open Value in
mutual

theorem misfits_eq_nil_iff (key : String) :
    ∀ v : Value, misfits key v = [] ↔ (v.kind ≠ .array → v.Groupable)
  | .arr _ => by simp [misfits, kind]
  | .obj fields => by
    rw [misfits, fieldMisfits_eq_nil_iff fields]
    simp only [kind]
    constructor
    · exact fun h _ => .obj h
    · intro h
      cases h nofun with
      | obj h => exact h
  | .null | .bool _ | .num _ | .str _ => by
    simp only [misfits, kind]
    constructor
    · nofun
    · intro h
      cases h nofun

theorem fieldMisfits_eq_nil_iff : ∀ fields : List (String × Value), fieldMisfits fields = []
    ↔ ∀ field ∈ fields, field.2.kind ≠ .array → field.2.Groupable
  | [] => by simp [fieldMisfits]
  | (key, v) :: rest => by
    rw [fieldMisfits, List.append_eq_nil_iff, misfits_eq_nil_iff key v,
      fieldMisfits_eq_nil_iff rest, List.forall_mem_cons]

end

theorem groupable_obj_iff {fields : List (String × Value)} :
    (Value.obj fields).Groupable ↔ Value.fieldMisfits fields = [] := by
  rw [fieldMisfits_eq_nil_iff]
  exact ⟨fun | .obj h => h, .obj⟩

/-- A value describes a grouping if, as an entry, it describes a branch. -/
theorem ofValue_eq_ok_iff {v : Value} {grouping : Grouping} (key : String) :
    ofValue v = .ok grouping ↔ partOf key v = .ok grouping.toPart := by
  cases v with
  | obj fields =>
    rw [ofValue, partOf, bind_eq_ok_iff, bind_eq_ok_iff]
    refine exists_congr fun entries => and_congr_right fun _ => ?_
    rw [pure_eq_ok_iff, pure_eq_ok_iff, toPart, Part.branch.injEq]
    exact ⟨fun h => by rw [← h], fun h => by rw [h]⟩
  | null | bool | num | str | arr => exact iff_of_false (fun h => by cases h) fun h => by cases h

theorem distinctKeys_ofValue {v : Value} (hv : v.Ordered) {grouping : Grouping}
    (h : ofValue v = .ok grouping) : grouping.toPart.DistinctKeys :=
  distinctKeys_partOf hv ((ofValue_eq_ok_iff "").mp h)

theorem reports_ofValue (fields : List (String × Value)) :
    Reports (Value.fieldMisfits fields) (ofValue (.obj fields)) :=
  (reports_entriesOf fields).map _

/-- **Exactly the groupable values describe groupings.** -/
theorem exists_ofValue_iff {v : Value} : (∃ read, ofValue v = .ok read) ↔ v.Groupable := by
  cases v with
  | obj fields => exact (reports_ofValue fields).exists_ok_iff.trans groupable_obj_iff.symm
  | null | bool | num | str | arr =>
    exact iff_of_false (fun ⟨_, h⟩ => by cases h) fun h => by cases h

/-- What is wrong with a value that describes no grouping. -/
theorem ofValue_of_not_groupable {v : Value} (h : ¬ v.Groupable) :
    v.kind ≠ .object ∧ ofValue v = .error (.badShape (.notAnObject v.kind))
      ∨ ∃ fields key kind rest, v = .obj fields
        ∧ Value.fieldMisfits fields = (key, kind) :: rest
        ∧ ofValue v = .error (.badShape (.badEntry key kind)) := by
  cases v with
  | obj fields =>
    rw [groupable_obj_iff] at h
    obtain ⟨⟨key, kind⟩, rest, hmisfits⟩ := List.exists_cons_of_ne_nil h
    have hreports := reports_ofValue fields
    rw [hmisfits] at hreports
    exact .inr ⟨fields, key, kind, rest, rfl, hmisfits, hreports⟩
  | null | bool | num | str | arr => exact .inl ⟨Kind.noConfusion, rfl⟩

/-- **Groupings go through JSON and back, and so do the values that describe them.** Written and
read again, a grouping has the same leaves and branches under the same keys at every level, in the
order of the keys. A value is read exactly if it is an object of arrays and such objects; writing
what was read gives the value. Any other value is refused, with its kind if it is no object, and
otherwise with its first entry that is neither an array nor an object. -/
theorem round_trip {grouping : Grouping} (hkeys : grouping.toPart.DistinctKeys) {v : Value}
    (hv : v.Ordered) :
    (∃ back, ofValue grouping.toValue = .ok back ∧ grouping.toPart.Rearranged back.toPart
        ∧ back.toPart.KeysAscend)
      ∧ ((∃ read, ofValue v = .ok read) ↔ v.Groupable)
      ∧ (∀ read, ofValue v = .ok read → read.toValue = v)
      ∧ (¬ v.Groupable →
        v.kind ≠ .object ∧ ofValue v = .error (.badShape (.notAnObject v.kind))
          ∨ ∃ fields key kind rest, v = .obj fields
            ∧ Value.fieldMisfits fields = (key, kind) :: rest
            ∧ ofValue v = .error (.badShape (.badEntry key kind))) := by
  refine ⟨?_, exists_ofValue_iff, fun read h => ?_, ofValue_of_not_groupable⟩
  · obtain ⟨back, hback, hrearranged, hascend⟩ := exists_partOf_partValue hkeys ""
    cases hrearranged with
    | branch hperm h => exact ⟨⟨_⟩, (ofValue_eq_ok_iff "").mpr hback, .branch hperm h, hascend⟩
  · exact partValue_of_partOf hv ((ofValue_eq_ok_iff "").mp h)

/-- Keys that were not set in order come back sorted, empty parts come back as what they were, and a
string below a key is refused before a null beside it. -/
theorem round_trip_empty_parts :
    let grouping : Grouping := ⟨[("b", .leaf ⟨[.int 1]⟩),
      ("a", .branch [("😀", .leaf ⟨[]⟩), ("\uffff", .branch [])])]⟩
    let refused : Value :=
      .obj [("a", .obj [("k", .arr []), ("l", .str "x")]), ("b", .null)]
    grouping.toPart.DistinctKeys ∧ refused.Ordered ∧ ¬ refused.Groupable
      ∧ (∃ back, ofValue grouping.toValue = .ok back ∧ grouping.toPart.Rearranged back.toPart
        ∧ back.toPart.KeysAscend)
      ∧ ofValue refused = .error (.badShape (.badEntry "l" .string)) := by
  intro grouping refused
  have hinner : (Part.branch [("😀", .leaf ⟨[]⟩), ("\uffff", .branch [])]).DistinctKeys :=
    .branch (by decide) (List.forall_mem_cons.mpr
      ⟨.leaf _, List.forall_mem_singleton.mpr distinctKeys_empty⟩)
  have hkeys : grouping.toPart.DistinctKeys :=
    .branch (by decide) (List.forall_mem_cons.mpr ⟨.leaf _, List.forall_mem_singleton.mpr hinner⟩)
  have hbranch : (Value.obj [("k", .arr []), ("l", .str "x")]).Ordered :=
    .obj (by decide) (List.forall_mem_cons.mpr
      ⟨.arr (List.forall_mem_nil _), List.forall_mem_singleton.mpr (.str _)⟩)
  have hordered : refused.Ordered :=
    .obj (by decide) (List.forall_mem_cons.mpr ⟨hbranch, List.forall_mem_singleton.mpr .null⟩)
  have hmisfits : Value.fieldMisfits [("a", .obj [("k", .arr []), ("l", .str "x")]), ("b", .null)]
      = [("l", .string), ("b", .null)] := rfl
  have hnot : ¬ refused.Groupable := by
    rw [groupable_obj_iff, hmisfits]
    exact List.cons_ne_nil _ _
  obtain ⟨hback, -, -, hrefused⟩ := round_trip hkeys hordered
  refine ⟨hkeys, hordered, hnot, hback, ?_⟩
  rcases hrefused hnot with ⟨hkind, -⟩ | ⟨fields, key, kind, rest, hfields, hfirst, herror⟩
  · exact absurd rfl hkind
  · obtain rfl := Value.obj.inj hfields
    obtain ⟨hentry, -⟩ := List.cons.inj (hmisfits.symm.trans hfirst)
    obtain ⟨rfl, rfl⟩ := Prod.mk.inj hentry
    exact herror

end Grouping

end RecordQuery
