import RecordQuery.Records.Keyed
import Mathlib.Data.List.Forall2

/-!
# What a successful reading tells

Operations on columns run in `Except QueryError`. Their proofs ask when such a run succeeds, and
with what. The answer is always the same: every step succeeded, and the outcome is made of the
outcomes of the steps. `bind_eq_ok_iff` and `mapM_eq_ok_iff` say so for the two ways of combining
steps, and everything about columns below is read off from them. A run that fails has one step to
blame: all before it succeeded, and its error is the outcome.

## Columns that ignore positions

A column may look at the position of an element. Laws that move elements about need columns that do
not: `Column.Positionless`. Such a column gives every element a key text of its own, `Column.key?`,
whatever records the element stands in.

## Success and failure are told apart

An equation between two runs would say that they return the same and fail with the same error. Many
laws of this project hold for what is returned, while the errors differ, since the two sides meet
different failures first. So success is described on its own, as a relation between what is run over
and what is returned. `List.Forall₂` is the relation for traversals: it does not mention the order
of the steps, and two of them can be composed, split and turned around.

Failure is described by the step that fails, together with the success of all steps before it. The
two descriptions are exclusive and leave nothing out.

## Implementation notes

Nothing here is about the errors of queries in particular, except in the part about columns. The
lemmas on steps are stated for `Except` with any errors, and `Records.column` is a traversal of the
elements with their positions, to which they apply.

`Column.key?` reads an element as if it came first. For a column that ignores positions this is how
it reads the element anywhere, and the two directions of this are `Records.map_key?_of_keysOn` and
`Records.keysOn_of_map_key?`.

## Main results

* `mapM_eq_ok_iff` — a traversal succeeds exactly if each of its steps does
* `mapM_eq_error_iff`, `foldlM_eq_error_iff` — a run fails with the error of its first failing step
* `Records.keysOn_eq_ok_iff` — the key texts of a column
* `Records.map_key?_of_keysOn`, `Records.keysOn_of_map_key?` — the key texts of a column that
  ignores positions
-/

namespace RecordQuery

variable {ε α β γ : Type}

/-! ### Steps that succeed -/

theorem bind_eq_ok_iff {x : Except ε α} {f : α → Except ε β} {b : β} :
    (x >>= f) = .ok b ↔ ∃ a, x = .ok a ∧ f a = .ok b := by
  cases x with
  | error e =>
    constructor
    · intro h
      cases h
    · rintro ⟨_, h, _⟩
      cases h
  | ok a =>
    constructor
    · exact fun h => ⟨a, rfl, h⟩
    · rintro ⟨_, ⟨⟩, h⟩
      exact h

theorem pure_eq_ok_iff {a b : α} : (pure a : Except ε α) = .ok b ↔ a = b :=
  ⟨Except.ok.inj, fun h => congrArg Except.ok h⟩

/-- **A traversal succeeds exactly if each of its steps does.** -/
theorem mapM_eq_ok_iff {f : α → Except ε β} {xs : List α} {ys : List β} :
    xs.mapM f = .ok ys ↔ List.Forall₂ (fun x y => f x = .ok y) xs ys := by
  induction xs generalizing ys with
  | nil => rw [List.mapM_nil, pure_eq_ok_iff, List.forall₂_nil_left_iff, eq_comm]
  | cons x xs ih =>
    rw [List.mapM_cons, List.forall₂_cons_left_iff]
    simp only [bind_eq_ok_iff, pure_eq_ok_iff, ih]
    constructor
    · rintro ⟨y, hy, ys', hys, rfl⟩
      exact ⟨y, ys', hy, hys, rfl⟩
    · rintro ⟨y, ys', hy, hys, rfl⟩
      exact ⟨y, hy, ys', hys, rfl⟩

/-- Two pointwise relations in sequence relate pointwise. -/
theorem forall₂_comp_iff {R : α → β → Prop} {S : β → γ → Prop} {xs : List α} {zs : List γ} :
    (∃ ys, List.Forall₂ R xs ys ∧ List.Forall₂ S ys zs)
      ↔ List.Forall₂ (fun x z => ∃ y, R x y ∧ S y z) xs zs := by
  constructor
  · rintro ⟨ys, hxs, hys⟩
    induction hxs generalizing zs with
    | nil => rw [List.forall₂_nil_left_iff.mp hys]; exact .nil
    | cons hx _ ih =>
      obtain ⟨z, zs', hz, hzs, rfl⟩ := List.forall₂_cons_left_iff.mp hys
      exact .cons ⟨_, hx, hz⟩ (ih hzs)
  · intro h
    induction h with
    | nil => exact ⟨[], .nil, .nil⟩
    | cons hxz _ ih =>
      obtain ⟨y, hx, hz⟩ := hxz
      obtain ⟨ys, hxs, hys⟩ := ih
      exact ⟨y :: ys, .cons hx hxs, .cons hz hys⟩

/-- What is related to a list pointwise stems from its elements. -/
theorem exists_of_mem_forall₂ {R : α → β → Prop} {xs : List α} {ys : List β}
    (h : List.Forall₂ R xs ys) {y : β} (hy : y ∈ ys) : ∃ x ∈ xs, R x y := by
  induction h with
  | nil => cases hy
  | cons hxy _ ih =>
    rcases List.mem_cons.mp hy with rfl | hy
    · exact ⟨_, List.mem_cons_self, hxy⟩
    · obtain ⟨x, hx, hxy⟩ := ih hy
      exact ⟨x, List.mem_cons_of_mem _ hx, hxy⟩

/-! ### Steps that fail -/

theorem bind_eq_error_iff {x : Except ε α} {f : α → Except ε β} {e : ε} :
    (x >>= f) = .error e ↔ x = .error e ∨ ∃ a, x = .ok a ∧ f a = .error e := by
  cases x with
  | error e' =>
    constructor
    · rintro ⟨⟩
      exact .inl rfl
    · rintro (⟨⟨⟩⟩ | ⟨_, h, _⟩)
      · rfl
      · cases h
  | ok a =>
    constructor
    · intro h
      exact .inr ⟨a, rfl, h⟩
    · rintro (h | ⟨_, ⟨⟩, h⟩)
      · cases h
      · exact h

/-- **A traversal fails with the error of its first failing step.** -/
theorem mapM_eq_error_iff {f : α → Except ε β} {xs : List α} {e : ε} :
    xs.mapM f = .error e ↔ ∃ before x after, xs = before ++ x :: after
      ∧ (∀ y ∈ before, ∃ z, f y = .ok z) ∧ f x = .error e := by
  induction xs with
  | nil =>
    rw [List.mapM_nil]
    constructor
    · intro h
      cases h
    · rintro ⟨before, x, after, h, -⟩
      exact absurd h (by simp)
  | cons x xs ih =>
    have hrest : ∀ y, (xs.mapM f >>= fun ys => (pure (y :: ys) : Except ε (List β))) = .error e
        ↔ xs.mapM f = .error e := by
      intro y
      rw [bind_eq_error_iff]
      constructor
      · rintro (h | ⟨_, _, h⟩)
        · exact h
        · cases h
      · exact .inl
    rw [List.mapM_cons, bind_eq_error_iff]
    simp only [hrest, ih]
    constructor
    · rintro (h | ⟨y, hy, before, x', after, rfl, hbefore, h⟩)
      · exact ⟨[], x, xs, rfl, List.forall_mem_nil _, h⟩
      · exact ⟨x :: before, x', after, rfl, List.forall_mem_cons.mpr ⟨⟨y, hy⟩, hbefore⟩, h⟩
    · rintro ⟨_ | ⟨first, before⟩, x', after, heq, hbefore, h⟩
      · cases heq
        exact .inl h
      · cases heq
        obtain ⟨⟨y, hy⟩, hbefore⟩ := List.forall_mem_cons.mp hbefore
        exact .inr ⟨y, hy, before, x', after, rfl, hbefore, h⟩

theorem exists_mapM_eq_ok_iff {f : α → Except ε β} {xs : List α} :
    (∃ ys, xs.mapM f = .ok ys) ↔ ∀ x ∈ xs, ∃ y, f x = .ok y := by
  constructor
  · rintro ⟨ys, h⟩ x hx
    obtain ⟨y, -, hy⟩ := exists_of_mem_forall₂ (mapM_eq_ok_iff.mp h).flip hx
    exact ⟨y, hy⟩
  · intro h
    cases hxs : xs.mapM f with
    | ok ys => exact ⟨ys, rfl⟩
    | error e =>
      obtain ⟨before, x, after, rfl, -, hfail⟩ := mapM_eq_error_iff.mp hxs
      obtain ⟨y, hy⟩ := h x (by simp)
      rw [hfail] at hy
      cases hy

/-- **A fold fails with the error of its first failing step**, taken from what the steps before it
have reached. -/
theorem foldlM_eq_error_iff {f : β → α → Except ε β} {start : β} {xs : List α} {e : ε} :
    xs.foldlM f start = .error e ↔ ∃ before x after reached, xs = before ++ x :: after
      ∧ before.foldlM f start = .ok reached ∧ f reached x = .error e := by
  constructor
  · intro h
    induction xs generalizing start with
    | nil => cases h
    | cons x xs ih =>
      rw [List.foldlM_cons, bind_eq_error_iff] at h
      rcases h with h | ⟨next, hnext, h⟩
      · exact ⟨[], x, xs, start, rfl, rfl, h⟩
      · obtain ⟨before, x', after, reached, rfl, hbefore, hfail⟩ := ih h
        refine ⟨x :: before, x', after, reached, rfl, ?_, hfail⟩
        rw [List.foldlM_cons, hnext]
        exact hbefore
  · rintro ⟨before, x, after, reached, rfl, hbefore, hfail⟩
    rw [List.foldlM_append, hbefore]
    show (after.foldlM f =<< f reached x) = .error e
    rw [hfail]
    rfl

/-! ### Columns -/

namespace Records

/-- A column is read if it is read in every element, at the element's position. -/
theorem column_eq_ok_iff {records : Records} {c : Column} {values : List Value} :
    records.column c = .ok values
      ↔ List.Forall₂ (fun entry value => c.read entry.1 entry.2 = .ok value)
        records.indexed values :=
  mapM_eq_ok_iff

theorem length_of_column {records : Records} {c : Column} {values : List Value}
    (h : records.column c = .ok values) : values.length = records.size := by
  rw [← (column_eq_ok_iff.mp h).length_eq, indexed, List.length_zipIdx, size]

theorem keysOn_eq_ok_iff {records : Records} {c : Column} {keys : List String} :
    records.keysOn c = .ok keys
      ↔ ∃ values, records.column c = .ok values ∧ values.map Value.keyText = keys := by
  simp only [keysOn, bind_eq_ok_iff, pure_eq_ok_iff]

theorem length_of_keysOn {records : Records} {c : Column} {keys : List String}
    (h : records.keysOn c = .ok keys) : keys.length = records.size := by
  obtain ⟨values, hvalues, rfl⟩ := keysOn_eq_ok_iff.mp h
  rw [List.length_map, length_of_column hvalues]

end Records

/-! ### Columns that ignore positions -/

namespace Column

/-- The column reads the same in an element wherever the element stands. -/
def Positionless (c : Column) : Prop := ∀ value i j, c.read value i = c.read value j

theorem positionless_path (p : DotPath) : (path p).Positionless := fun _ _ _ => rfl

/-- The key text of an element by a column, read as if the element came first. -/
def key? (c : Column) (value : Value) : Option String :=
  (c.read value 0).toOption.map Value.keyText

theorem key?_of_read {c : Column} (hc : c.Positionless) {value found : Value} {i : Nat}
    (h : c.read value i = .ok found) : c.key? value = some found.keyText := by
  rw [key?, hc value 0 i, h]
  rfl

end Column

/-- The key texts of a column that ignores positions are those of the single elements. -/
theorem Records.map_key?_of_keysOn {records : Records} {c : Column} (hc : c.Positionless)
    {keys : List String} (h : records.keysOn c = .ok keys) :
    records.toList.map c.key? = keys.map some := by
  obtain ⟨values, hvalues, rfl⟩ := keysOn_eq_ok_iff.mp h
  have hread := column_eq_ok_iff.mp hvalues
  have hkeys : List.Forall₂ (fun entry value => c.key? (Prod.fst entry) = some value.keyText)
      records.indexed values := hread.imp fun _ _ h => Column.key?_of_read hc h
  have hmap : records.indexed.map (fun entry => c.key? entry.1)
      = values.map (fun value => some value.keyText) := by
    rw [← List.forall₂_eq_eq_eq, List.forall₂_map_left_iff, List.forall₂_map_right_iff]
    exact hkeys
  rw [← map_fst_indexed, List.map_map, List.map_map]
  exact hmap

/-- A column that ignores positions is read if it is read in every element by itself. -/
theorem Records.exists_column_iff {records : Records} {c : Column} (hc : c.Positionless) :
    (∃ values, records.column c = .ok values)
      ↔ ∀ element ∈ records.toList, ∃ value, c.read element 0 = .ok value := by
  rw [column, exists_mapM_eq_ok_iff, ← map_fst_indexed, List.forall_mem_map]
  refine forall₂_congr fun entry _ => ?_
  show (∃ value, c.read entry.1 entry.2 = .ok value) ↔ _
  rw [hc entry.1 entry.2 0]

/-- Elements that have key texts by themselves have them in any records. -/
theorem Records.keysOn_of_map_key? {records : Records} {c : Column} (hc : c.Positionless)
    {keys : List String} (h : records.toList.map c.key? = keys.map some) :
    records.keysOn c = .ok keys := by
  have hread : ∀ element ∈ records.toList, ∃ value, c.read element 0 = .ok value := by
    intro element helement
    have hkey : c.key? element ∈ keys.map some := h ▸ List.mem_map_of_mem helement
    obtain ⟨key, -, hkey⟩ := List.mem_map.mp hkey
    match hvalue : c.read element 0 with
    | .ok value => exact ⟨value, rfl⟩
    | .error e => simp [Column.key?, hvalue, Except.toOption] at hkey
  obtain ⟨values, hvalues⟩ := (exists_column_iff hc).mpr hread
  have hkeys := keysOn_eq_ok_iff.mpr ⟨values, hvalues, rfl⟩
  have hsome : Function.Injective (some : String → Option String) := fun _ _ => Option.some.inj
  have hsame := List.map_injective_iff.mpr hsome (h.symm.trans (map_key?_of_keysOn hc hkeys))
  rw [hkeys, hsame]

end RecordQuery
