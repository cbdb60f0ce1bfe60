import RecordQuery.Proofs.Grouping.Nested

/-!
# Grouping as a partition

A grouping by `n` columns is a tree of depth `n` whose leaves divide the elements among them. The
first half of this file holds for any columns. An element is then told apart from an equal one by
its position, so the leaves are lifted to lists of elements with positions (`Divides`).

The second half asks for columns that ignore positions. Each element then has keys of its own, and a
path of keys has *its* elements: those with these keys by the first columns (`Column.onPath`). The
part of the tree at a path is what nesting makes of these elements with the remaining columns, which
says everything about leaves and about the order of keys at once.

## Why positions are needed to say it

That every element is in exactly one leaf is no statement about elements, since an element may occur
more than once. Where a column looks at positions, two equal elements can be in two leaves. So the
leaves are shown to be made of pieces of the list of elements with positions: the pieces together
are a permutation of the whole, and each is a subsequence of it. Any marks will do in the place of
positions. The lemma about nested classes needs this, since the elements of a class keep the marks
that they have in the whole.

If columns ignore positions, equal elements are in one leaf, and a filter says which elements these
are. So the second half is not another proof of the first: it says more, about fewer columns.

## What carries the inductions

Both are on the columns, and they follow the recursion (`Records.nest`) and not the loop. The
classes of the first column divide the records, and the leaves under each class divide the class.
For the second half, the elements on a path are those in the class of its first key that are on the
rest of the path by the remaining columns.

## Implementation notes

Depth and content are two predicates, `Part.Layered` and `Part.Filled`. Records without elements
give a branch without entries, which has every depth. So the first predicate holds of all outcomes,
and the second where there are elements.

## Main results

* `Records.layered_nest`, `Records.filled_nest` — the shape of the tree
* `Records.divides_nest` — the leaves divide the elements
* `Records.nest_at?` — the part at a path is the nesting of the elements on it
* `Records.group_partitions` — the summary, about groupings
-/

namespace RecordQuery

/-! ### Trees -/

namespace Part

/-- Every part is `depth` steps above its leaves, and none is without content. -/
def Filled : Nat → Part → Prop
  | 0, .leaf records => records.toList ≠ []
  | depth + 1, .branch entries => entries ≠ [] ∧ ∀ entry ∈ entries, entry.2.Filled depth
  | _, _ => False

mutual

/-- All leaves of a part, from the first to the last. -/
def leaves : Part → List Records
  | .leaf records => [records]
  | .branch entries => entryLeaves entries

/-- All leaves of some entries. -/
def entryLeaves : List (String × Part) → List Records
  | [] => []
  | (_, part) :: rest => part.leaves ++ entryLeaves rest

end

/-- The part that a path of keys leads to. -/
def at? : Part → List String → Option Part
  | part, [] => some part
  | .branch entries, key :: path => ((Grouping.mk entries).get? key).bind (at? · path)
  | .leaf _, _ :: _ => none

end Part

/-! ### Dividing elements -/

/-- The leaves divide the marked elements among them: they are pieces of the list, each in its
order, and together they have every element once. The marks tell equal elements apart. -/
def Divides {ι : Type} (leaves : List Records) (marked : List (Value × ι)) : Prop :=
  ∃ pieces : List (List (Value × ι)),
    leaves.map Records.toList = pieces.map (·.map Prod.fst)
      ∧ pieces.flatten.Perm marked
      ∧ ∀ piece ∈ pieces, piece.Sublist marked

/-- The leaves under entries that divide classes are pieces of these classes. -/
theorem exists_pieces_branch {ι : Type} {classes : Entries (List (Value × ι))}
    {entries : List (String × Part)}
    (h : List.Forall₂ (fun old new => Divides new.2.leaves old.2) classes entries) :
    ∃ pieces : List (List (Value × ι)),
      (Part.branch entries).leaves.map Records.toList = pieces.map (·.map Prod.fst)
        ∧ pieces.flatten.Perm (classes.flatMap Prod.snd)
        ∧ ∀ piece ∈ pieces, ∃ entry ∈ classes, piece.Sublist entry.2 := by
  induction h with
  | nil => exact ⟨[], rfl, List.Perm.refl _, fun _ hpiece => absurd hpiece List.not_mem_nil⟩
  | @cons old new olds news hfirst _ ih =>
    obtain ⟨pieces, hleaves, hperm, hsub⟩ := hfirst
    obtain ⟨pieces', hleaves', hperm', hsub'⟩ := ih
    refine ⟨pieces ++ pieces', ?_, ?_, fun piece hpiece => ?_⟩
    · rw [Part.leaves] at hleaves' ⊢
      rw [Part.entryLeaves, List.map_append, List.map_append, hleaves, hleaves']
    · rw [List.flatten_append, List.flatMap_cons]
      exact hperm.append hperm'
    · rcases List.mem_append.mp hpiece with hpiece | hpiece
      · exact ⟨old, List.mem_cons_self, hsub piece hpiece⟩
      · obtain ⟨entry, hentry, hsubpiece⟩ := hsub' piece hpiece
        exact ⟨entry, List.mem_cons_of_mem _ hentry, hsubpiece⟩

theorem divides_branch {ι : Type} {marked : List (Value × ι)} {classes : Entries (List (Value × ι))}
    {entries : List (String × Part)}
    (h : List.Forall₂ (fun old new => Divides new.2.leaves old.2) classes entries)
    (hperm : (classes.flatMap Prod.snd).Perm marked)
    (hsub : ∀ entry ∈ classes, entry.2.Sublist marked) :
    Divides (Part.branch entries).leaves marked := by
  obtain ⟨pieces, hleaves, hpieces, hsubs⟩ := exists_pieces_branch h
  refine ⟨pieces, hleaves, hpieces.trans hperm, fun piece hpiece => ?_⟩
  obtain ⟨entry, hentry, hsubpiece⟩ := hsubs piece hpiece
  exact hsubpiece.trans (hsub entry hentry)

namespace Records

/-! ### Any columns -/

theorem classes_eq_ok_iff {records : Records} {c : Column} {classes : List (String × Records)} :
    records.classes c = .ok classes
      ↔ ∃ keys, records.keysOn c = .ok keys
        ∧ (Entries.gather (keys.zip records.toList)).map
            (fun entry => (entry.1, Records.mk entry.2)) = classes := by
  simp only [Records.classes, bind_eq_ok_iff, pure_eq_ok_iff]

theorem keys_zip_toList {records : Records} {c : Column} {keys : List String}
    (hkeys : records.keysOn c = .ok keys) : Entries.keys (keys.zip records.toList) = keys :=
  List.map_fst_zip (Nat.le_of_eq (length_of_keysOn hkeys))

theorem keys_classes {records : Records} {c : Column} {keys : List String}
    {classes : List (String × Records)} (hkeys : records.keysOn c = .ok keys)
    (h : records.classes c = .ok classes) : Entries.keys classes = keys.eraseDups := by
  obtain ⟨keys', hkeys', rfl⟩ := classes_eq_ok_iff.mp h
  rw [hkeys] at hkeys'
  obtain rfl := Except.ok.inj hkeys'
  conv_rhs => rw [← keys_zip_toList hkeys, ← Entries.keys_gather]
  simp [Entries.keys, Function.comp_def]

theorem members_ne_nil {records : Records} {c : Column} {classes : List (String × Records)}
    (h : records.classes c = .ok classes) {entry : String × Records} (hentry : entry ∈ classes) :
    entry.2.toList ≠ [] := by
  obtain ⟨keys, -, rfl⟩ := classes_eq_ok_iff.mp h
  obtain ⟨_, hmem, rfl⟩ := List.mem_map.mp hentry
  exact Entries.ne_nil_of_mem_gather hmem

theorem keys_of_nest {c : Column} {rest : List Column} {records : Records} {keys : List String}
    {entries : List (String × Part)} (hkeys : records.keysOn c = .ok keys)
    (h : records.nest (c :: rest) = .ok (.branch entries)) :
    Entries.keys entries = keys.eraseDups := by
  obtain ⟨classes, hclasses, entries', hentries, hpart⟩ := nest_cons_eq_ok_iff.mp h
  obtain rfl := Part.branch.inj hpart
  rw [← keys_classes hkeys hclasses]
  exact Entries.keys_eq_of_forall₂ (hentries.imp fun _ _ h => h.1)

theorem layered_nest {columns : List Column} {records : Records} {part : Part}
    (h : records.nest columns = .ok part) : part.Layered columns.length := by
  induction columns generalizing records part with
  | nil =>
    obtain rfl := Except.ok.inj h
    exact trivial
  | cons c rest ih =>
    obtain ⟨classes, hclasses, entries, hentries, rfl⟩ := nest_cons_eq_ok_iff.mp h
    obtain ⟨keys, hkeys, -⟩ := classes_eq_ok_iff.mp hclasses
    refine ⟨?_, fun entry hentry => ?_⟩
    · rw [keys_of_nest hkeys h]
      exact nodup_eraseDups keys
    · obtain ⟨old, -, -, hnest⟩ := exists_of_mem_forall₂ hentries hentry
      exact ih hnest

/-- Elements that are there make a tree without empty parts. -/
theorem filled_nest {columns : List Column} {records : Records} {part : Part}
    (hne : records.toList ≠ []) (h : records.nest columns = .ok part) :
    part.Filled columns.length := by
  induction columns generalizing records part with
  | nil =>
    obtain rfl := Except.ok.inj h
    exact hne
  | cons c rest ih =>
    obtain ⟨classes, hclasses, entries, hentries, rfl⟩ := nest_cons_eq_ok_iff.mp h
    obtain ⟨keys, hkeys, -⟩ := classes_eq_ok_iff.mp hclasses
    refine ⟨?_, fun entry hentry => ?_⟩
    · rintro rfl
      have hnil : [] = keys.eraseDups := keys_of_nest hkeys h
      have hkeysnil : keys = [] := by
        cases keys with
        | nil => rfl
        | cons key keys => rw [List.eraseDups_cons] at hnil; cases hnil
      have hsize := length_of_keysOn hkeys
      rw [hkeysnil, List.length_nil, size, eq_comm, List.length_eq_zero_iff] at hsize
      exact hne hsize
    · obtain ⟨old, hold, -, hnest⟩ := exists_of_mem_forall₂ hentries hentry
      exact ih (members_ne_nil hclasses hold) hnest

/-- **The leaves divide the elements**, however these are marked. -/
theorem divides_nest {ι : Type} {columns : List Column} {records : Records} {part : Part}
    (h : records.nest columns = .ok part) {marked : List (Value × ι)}
    (hmarked : marked.map Prod.fst = records.toList) : Divides part.leaves marked := by
  induction columns generalizing records part marked with
  | nil =>
    obtain rfl := Except.ok.inj h
    refine ⟨[marked], ?_, ?_, fun piece hpiece => ?_⟩
    · simp [Part.leaves, hmarked]
    · simp
    · rw [List.mem_singleton.mp hpiece]
  | cons c rest ih =>
    obtain ⟨classes, hclasses, entries, hentries, rfl⟩ := nest_cons_eq_ok_iff.mp h
    obtain ⟨keys, hkeys, rfl⟩ := classes_eq_ok_iff.mp hclasses
    have hlength : marked.length = keys.length := by
      rw [length_of_keysOn hkeys, size, ← hmarked, List.length_map]
    have hsnd : Entries.values (keys.zip marked) = marked := List.map_snd_zip (Nat.le_of_eq hlength)
    rw [← hmarked, Entries.gather_zip_map, List.map_map, List.forall₂_map_left_iff] at hentries
    refine divides_branch (hentries.imp fun old new hnew => ih hnew.2 rfl) ?_ ?_
    · exact (Entries.flatMap_gather_perm _).trans (List.Perm.of_eq hsnd)
    · rintro ⟨key, members⟩ hmem
      obtain ⟨-, rfl⟩ := Entries.mem_gather.mp hmem
      have hsub := Entries.valuesOf_sublist key (keys.zip marked)
      rwa [hsnd] at hsub

end Records

/-! ### Columns that ignore positions -/

/-- Whether an element has the keys of a path by the first columns, one each. -/
def Column.onPath (columns : List Column) (path : List String) (value : Value) : Bool :=
  (columns.zip path).all fun (c, key) => c.key? value == some key

@[simp] theorem Column.onPath_nil (columns : List Column) (value : Value) :
    onPath columns [] value = true := by
  simp [onPath]

@[simp] theorem Column.onPath_cons (c : Column) (columns : List Column) (key : String)
    (path : List String) (value : Value) :
    onPath (c :: columns) (key :: path) value
      = (c.key? value == some key && onPath columns path value) := rfl

namespace Entries

variable {α β : Type}

theorem lookup_map_keys (found : String → α) (ks : List String) (key : String) :
    (ks.map fun k => (k, found k)).lookup key = if key ∈ ks then some (found key) else none := by
  induction ks with
  | nil => rfl
  | cons k ks ih =>
    rw [List.map_cons, lookup_cons_eq, ih]
    by_cases h : key = k
    · simp [h]
    · simp [h]

theorem lookup_of_forall₂ {R : α → β → Prop} {old : Entries α} {new : Entries β}
    (h : List.Forall₂ (fun old new => new.1 = old.1 ∧ R old.2 new.2) old new) (key : String) :
    Option.Rel R (old.lookup key) (new.lookup key) := by
  induction h with
  | nil => exact .none
  | @cons o n olds news hfirst _ ih =>
    obtain ⟨ko, vo⟩ := o
    obtain ⟨kn, vn⟩ := n
    obtain ⟨rfl, hvalue⟩ := hfirst
    rw [lookup_cons_eq, lookup_cons_eq]
    split
    · exact .some hvalue
    · exact ih

/-- Gathering elements under their own keys filters them. -/
theorem valuesOf_zip {f : α → Option String} {keys : List String} {xs : List α}
    (h : xs.map f = keys.map some) (key : String) :
    valuesOf key (keys.zip xs) = xs.filter (f · == some key) := by
  induction xs generalizing keys with
  | nil => simp [valuesOf]
  | cons x xs ih =>
    cases keys with
    | nil => cases h
    | cons k keys =>
      obtain ⟨hx, hxs⟩ := List.cons.inj h
      have hrest := ih hxs
      rw [valuesOf] at hrest ⊢
      rw [List.zip_cons_cons, List.filter_cons, List.filter_cons, hx]
      by_cases hk : k = key
      · simp [hk, hrest]
      · simp [hk, hrest]

end Entries

namespace Records

/-- The class of a key consists of the elements that have the key. -/
theorem lookup_classes {records : Records} {c : Column} (hc : c.Positionless)
    {classes : List (String × Records)} (h : records.classes c = .ok classes) (key : String) :
    classes.lookup key = if ∃ x ∈ records.toList, c.key? x = some key
      then some ⟨records.toList.filter (c.key? · == some key)⟩ else none := by
  obtain ⟨keys, hkeys, rfl⟩ := classes_eq_ok_iff.mp h
  have hown := map_key?_of_keysOn hc hkeys
  have hmem : key ∈ keys ↔ ∃ x ∈ records.toList, c.key? x = some key := by
    have hsome : key ∈ keys ↔ some key ∈ keys.map some := by simp
    rw [hsome, ← hown, List.mem_map]
  rw [Entries.gather, List.map_map, keys_zip_toList hkeys]
  have hfound := Entries.lookup_map_keys
    (fun k => Records.mk (Entries.valuesOf k (keys.zip records.toList))) keys.eraseDups key
  simp only [List.mem_eraseDups, hmem, Entries.valuesOf_zip hown] at hfound
  simpa [Function.comp_def, Entries.valuesOf_zip hown] using hfound

/-- Under a key of a tree is what nesting makes of the elements that have the key, if there are
such elements. -/
theorem get?_nest {c : Column} (hc : c.Positionless) {rest : List Column} {records : Records}
    {classes : List (String × Records)} {entries : List (String × Part)}
    (hclasses : records.classes c = .ok classes)
    (hentries : List.Forall₂ (fun old new => new.1 = old.1 ∧ nest rest old.2 = .ok new.2)
      classes entries)
    (key : String) :
    (∃ x ∈ records.toList, c.key? x = some key) ∧ (∃ inner,
        (Grouping.mk entries).get? key = some inner
          ∧ nest rest ⟨records.toList.filter (c.key? · == some key)⟩ = .ok inner)
      ∨ (¬∃ x ∈ records.toList, c.key? x = some key)
        ∧ (Grouping.mk entries).get? key = none := by
  have hrel := Entries.lookup_of_forall₂ (R := fun members part => nest rest members = .ok part)
    hentries key
  rw [lookup_classes hc hclasses] at hrel
  rw [Grouping.get?]
  split at hrel
  · next hex =>
    cases hlookup : entries.lookup key with
    | none => rw [hlookup] at hrel; cases hrel
    | some inner =>
      rw [hlookup] at hrel
      cases hrel with
      | some hnest => exact .inl ⟨hex, inner, rfl, hnest⟩
  · next hex =>
    cases hlookup : entries.lookup key with
    | none => exact .inr ⟨hex, rfl⟩
    | some inner => rw [hlookup] at hrel; cases hrel

/-- The elements on a path are found one key at a time. -/
theorem filter_onPath_cons (c : Column) (columns : List Column) (key : String) (path : List String)
    (values : List Value) :
    values.filter (Column.onPath (c :: columns) (key :: path))
      = (values.filter (c.key? · == some key)).filter (Column.onPath columns path) := by
  rw [List.filter_filter]
  exact List.filter_congr fun value _ => by rw [Column.onPath_cons, Bool.and_comm]

/-- **The part at a path** is what nesting makes of the elements on the path with the remaining
columns. -/
theorem nest_at? {columns : List Column} (hc : ∀ c ∈ columns, c.Positionless) {records : Records}
    {part found : Part} {path : List String} (h : records.nest columns = .ok part)
    (hat : part.at? path = some found) :
    nest (columns.drop path.length) ⟨records.toList.filter (Column.onPath columns path)⟩
      = .ok found := by
  induction path generalizing columns records part with
  | nil =>
    obtain rfl : part = found := by simpa [Part.at?] using hat
    have hself : records.toList.filter (Column.onPath columns []) = records.toList :=
      List.filter_eq_self.mpr fun value _ => Column.onPath_nil columns value
    rw [hself]
    exact h
  | cons key path ih =>
    cases columns with
    | nil =>
      obtain rfl := Except.ok.inj h
      cases hat
    | cons c rest =>
      obtain ⟨hc, hrest⟩ := List.forall_mem_cons.mp hc
      obtain ⟨classes, hclasses, entries, hentries, rfl⟩ := nest_cons_eq_ok_iff.mp h
      rw [Part.at?] at hat
      rcases get?_nest hc hclasses hentries key with ⟨-, inner, hget, hnest⟩ | ⟨-, hget⟩
      · rw [hget] at hat
        rw [filter_onPath_cons]
        exact ih hrest hnest hat
      · rw [hget] at hat
        cases hat

/-- A path leads somewhere exactly if some element is on it. The root is always there. -/
theorem exists_at?_iff {columns : List Column} (hc : ∀ c ∈ columns, c.Positionless)
    {records : Records} {part : Part} {path : List String} (h : records.nest columns = .ok part)
    (hlength : path.length ≤ columns.length) (hne : path ≠ [] ∨ records.toList ≠ []) :
    (∃ found, part.at? path = some found)
      ↔ ∃ x ∈ records.toList, Column.onPath columns path x = true := by
  induction path generalizing columns records part with
  | nil =>
    obtain ⟨x, hx⟩ := List.exists_mem_of_ne_nil _ (hne.resolve_left fun h => h rfl)
    exact ⟨fun _ => ⟨x, hx, Column.onPath_nil columns x⟩, fun _ => ⟨part, by rw [Part.at?]⟩⟩
  | cons key path ih =>
    cases columns with
    | nil => cases hlength
    | cons c rest =>
      obtain ⟨hc, hrest⟩ := List.forall_mem_cons.mp hc
      obtain ⟨classes, hclasses, entries, hentries, rfl⟩ := nest_cons_eq_ok_iff.mp h
      simp only [Column.onPath_cons, Bool.and_eq_true, beq_iff_eq, Part.at?]
      rcases get?_nest hc hclasses hentries key with
        ⟨⟨x, hx, hkey⟩, inner, hget, hnest⟩ | ⟨hex, hget⟩
      · have hx' : x ∈ records.toList.filter (c.key? · == some key) :=
          List.mem_filter.mpr ⟨hx, beq_iff_eq.mpr hkey⟩
        have hinner := ih hrest hnest (Nat.le_of_succ_le_succ hlength)
          (.inr (List.ne_nil_of_mem hx'))
        rw [hget, Option.bind_some, hinner]
        simp only [List.mem_filter, beq_iff_eq, and_assoc]
      · rw [hget]
        constructor
        · rintro ⟨found, hfound⟩
          cases hfound
        · rintro ⟨x, hx, hkey, -⟩
          exact absurd ⟨x, hx, hkey⟩ hex

/-- The keys of a branch are those of the elements on its path by the column of its level, in the
order in which they first appear. -/
theorem keys_at? {columns : List Column} (hc : ∀ c ∈ columns, c.Positionless) {records : Records}
    {part : Part} {path : List String} (h : records.nest columns = .ok part) {c : Column}
    (hlevel : columns[path.length]? = some c) {entries : List (String × Part)}
    (hat : part.at? path = some (.branch entries)) :
    Entries.keys entries
      = ((records.toList.filter (Column.onPath columns path)).filterMap c.key?).eraseDups := by
  obtain ⟨hlt, rfl⟩ := List.getElem?_eq_some_iff.mp hlevel
  have hnest := nest_at? hc h hat
  rw [List.drop_eq_getElem_cons hlt] at hnest
  obtain ⟨classes, hclasses, -⟩ := nest_cons_eq_ok_iff.mp hnest
  obtain ⟨keys, hkeys, -⟩ := classes_eq_ok_iff.mp hclasses
  have hown := map_key?_of_keysOn (hc _ (List.getElem_mem hlt)) hkeys
  have hfilterMap : (records.toList.filter (Column.onPath columns path)).filterMap
      columns[path.length].key? = keys := by
    have hid := congrArg (List.filterMap id) hown
    simpa [List.filterMap_map] using hid
  rw [keys_of_nest hkeys hnest, hfilterMap]

/-- **Grouping partitions exactly.** The tree has one layer per column, no part below the root is
empty, and the leaves divide the elements. If no column looks at positions, the leaf under a path
of keys is there exactly if an element is on the path, and consists of these elements; and the keys
of every branch are in the order in which the elements below it first have them. -/
theorem group_partitions {records : Records} {first : Column} {rest : List Column}
    {grouping : Grouping} (h : records.group (first :: rest) = .ok grouping) :
    (grouping.toPart.Layered (rest.length + 1)
      ∧ (∀ entry ∈ grouping.entries, entry.2.Filled rest.length)
      ∧ Divides grouping.toPart.leaves records.indexed)
    ∧ ((∀ c ∈ first :: rest, c.Positionless) →
      (∀ path, path.length = rest.length + 1 →
        ((∃ leaf, grouping.toPart.at? path = some (.leaf leaf))
            ↔ ∃ x ∈ records.toList, Column.onPath (first :: rest) path x = true)
          ∧ ∀ leaf, grouping.toPart.at? path = some (.leaf leaf) →
            leaf.toList = records.toList.filter (Column.onPath (first :: rest) path))
      ∧ ∀ path c entries, (first :: rest)[path.length]? = some c →
        grouping.toPart.at? path = some (.branch entries) →
          Entries.keys entries = ((records.toList.filter
            (Column.onPath (first :: rest) path)).filterMap c.key?).eraseDups) := by
  rw [group_eq_ok_iff] at h
  refine ⟨⟨layered_nest h, ?_, ?_⟩,
    fun hc => ⟨fun path hpath => ?_, fun _ _ _ hlevel hat => keys_at? hc h hlevel hat⟩⟩
  · obtain ⟨classes, hclasses, entries, hentries, hpart⟩ := nest_cons_eq_ok_iff.mp h
    obtain rfl : entries = grouping.entries := Part.branch.inj hpart
    intro entry hentry
    obtain ⟨old, hold, -, hnest⟩ := exists_of_mem_forall₂ hentries hentry
    exact filled_nest (members_ne_nil hclasses hold) hnest
  · exact divides_nest h (List.zipIdx_map_fst 0 _)
  · have hleaf : ∀ found, grouping.toPart.at? path = some found →
        found = .leaf ⟨records.toList.filter (Column.onPath (first :: rest) path)⟩ := by
      intro found hat
      have hnest := nest_at? hc h hat
      rw [List.drop_eq_nil_of_le (by simp [hpath])] at hnest
      exact (Except.ok.inj hnest).symm
    have hne : path ≠ [] := by
      rintro rfl
      cases hpath
    refine ⟨?_, fun leaf hat => congrArg Records.toList (Part.leaf.inj (hleaf _ hat))⟩
    rw [← exists_at?_iff hc h (by simp [hpath]) (.inl hne)]
    constructor
    · rintro ⟨leaf, hat⟩
      exact ⟨.leaf leaf, hat⟩
    · rintro ⟨found, hat⟩
      exact ⟨_, hleaf found hat ▸ hat⟩

/-- Equal elements are kept apart: the leaf of a repeated element has it as often as the records. -/
theorem group_partitions_equal_elements :
    let a : Value := .obj [("n", .int 1), ("team", .str "M")]
    let b : Value := .obj [("n", .int 1), ("team", .str "F")]
    let records : Records := ⟨[a, b, a]⟩
    let columns := [Column.dotted "team", Column.dotted "n"]
    let grouping : Grouping :=
      ⟨[("M", .branch [("1", .leaf ⟨[a, a]⟩)]), ("F", .branch [("1", .leaf ⟨[b]⟩)])]⟩
    records.group columns = .ok grouping
      ∧ (∀ c ∈ columns, c.Positionless)
      ∧ Divides grouping.toPart.leaves records.indexed
      ∧ [a, a] = records.toList.filter (Column.onPath columns ["M", "1"])
      ∧ ["M", "F"] = (records.toList.filterMap (Column.dotted "team").key?).eraseDups := by
  intro a b records columns grouping
  have hgroup : records.group columns = .ok grouping := by rfl
  have hc : ∀ c ∈ columns, c.Positionless := by
    intro c hc
    rcases List.mem_cons.mp hc with rfl | hc
    · exact Column.positionless_path _
    · rw [List.mem_singleton.mp hc]
      exact Column.positionless_path _
  obtain ⟨⟨-, -, hdivides⟩, hpaths⟩ := group_partitions hgroup
  obtain ⟨hleaves, hbranches⟩ := hpaths hc
  exact ⟨hgroup, hc, hdivides, (hleaves ["M", "1"] rfl).2 ⟨[a, a]⟩ (by rfl),
    hbranches [] (.dotted "team") grouping.entries rfl (by rfl)⟩

end Records

end RecordQuery
