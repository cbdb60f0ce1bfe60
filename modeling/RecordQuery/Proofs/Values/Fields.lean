import RecordQuery.Entries
import Mathlib.Data.List.Forall2
import Mathlib.Data.List.Sort

/-!
# Fields in order

The fields of an object from outside are in the order of their keys, and no key is there twice. Both
have the same cause: fields are placed by key. So sorting entries with different keys only moves
them, and what is found under a key stays the same.

## Order, membership and look-up

Three views of entries are used side by side. As lists they have an order; as sets of pairs they
have members; as maps they have a value under a key. If no key is there twice, look-up is membership
(`Entries.lookup_eq_some_iff_mem`), and if the keys ascend, the members determine the list
(`Entries.Ascending.eq_of_perm`). So statements about sorting can be made in the view in which they
are short and used in another.

With a key that is there twice all of this fails. Sorting keeps only one of the entries, and a
look-up finds the first.

## Implementation notes

Placing an entry is one step of an insertion sort in which an entry with the same key is replaced.
What is shown of it is where its keys are and that it permutes, for a key that is new; sorting
follows by going through the entries.

Relating two lists of entries pointwise is the same as relating what they have under each key, if
the keys are the same in the same order (`Entries.forall₂_iff_lookup`). This leads from the loops
that compare fields in turn to statements in which the order of fields does not occur.

## Main definitions

* `Entries.Ascending` — the keys are in order

## Main results

* `Entries.ascending_sorted`, `sorted_perm`, `lookup_sorted` — sorted entries
* `Entries.forall₂_iff_lookup` — relating two lists of entries key by key
-/

namespace RecordQuery

namespace Entries

variable {α β : Type}

/-- The keys are strictly ascending, as those of an object from outside are. -/
def Ascending (entries : Entries α) : Prop := (keys entries).Pairwise (· < ·)

instance (entries : Entries α) : Decidable entries.Ascending :=
  inferInstanceAs (Decidable ((keys entries).Pairwise (· < ·)))

theorem mem_keys_place {key k : String} {value : α} {entries : Entries α} :
    k ∈ keys (place key value entries) ↔ k = key ∨ k ∈ keys entries := by
  induction entries with
  | nil => simp [place]
  | cons entry rest ih =>
    rw [place]
    split
    · simp
    · split
      · next h => simp [← h]
      · simp only [keys_cons, List.mem_cons, ih]
        exact or_left_comm

theorem Ascending.place {entries : Entries α} (h : entries.Ascending) (key : String) (value : α) :
    Ascending (place key value entries) := by
  induction entries with
  | nil => exact List.pairwise_singleton _ key
  | cons entry rest ih =>
    obtain ⟨hfirst, hrest⟩ := List.pairwise_cons.mp h
    rw [Entries.place]
    split
    · next hlt =>
      refine List.pairwise_cons.mpr ⟨fun k hk => ?_, h⟩
      rcases List.mem_cons.mp hk with rfl | hk
      · exact hlt
      · exact String.lt_trans hlt (hfirst k hk)
    · next hlt =>
      split
      · exact h
      · next hne =>
        refine List.pairwise_cons.mpr ⟨fun k hk => ?_, ih hrest⟩
        rcases mem_keys_place.mp hk with rfl | hk
        · exact Std.lt_of_le_of_ne (String.not_lt.mp hlt) hne
        · exact hfirst k hk

theorem ascending_sorted (entries : Entries α) : (sorted entries).Ascending := by
  have hfold : ∀ placed : Entries α, placed.Ascending →
      (entries.foldl (fun placed entry => place entry.1 entry.2 placed) placed).Ascending := by
    induction entries with
    | nil => exact fun _ h => h
    | cons entry rest ih => exact fun placed h => ih _ (h.place entry.1 entry.2)
  exact hfold [] .nil

theorem Ascending.nodup {entries : Entries α} (h : entries.Ascending) : (keys entries).Nodup :=
  List.Pairwise.imp (fun hlt => Std.ne_of_lt hlt) h

theorem mem_keys_of_lookup {key : String} {value : α} {entries : Entries α}
    (h : entries.lookup key = some value) : key ∈ keys entries := by
  obtain ⟨before, after, rfl, -⟩ := List.lookup_eq_some_iff.mp h
  simp [keys]

/-- Where no key stands twice, looking up is membership. -/
theorem lookup_eq_some_iff_mem {entries : Entries α} (h : (keys entries).Nodup) {key : String}
    {value : α} : entries.lookup key = some value ↔ (key, value) ∈ entries := by
  induction entries with
  | nil => simp
  | cons entry rest ih =>
    obtain ⟨k, v⟩ := entry
    obtain ⟨hnew, hrest⟩ := List.nodup_cons.mp h
    rw [lookup_cons_eq, List.mem_cons, Prod.mk.injEq]
    split
    · next hk =>
      subst hk
      have hnot : (key, value) ∉ rest := fun hmem => hnew (List.mem_map.mpr ⟨_, hmem, rfl⟩)
      simp [hnot, eq_comm]
    · next hk => simp [hk, ih hrest]

/-! ### Sorting -/

theorem place_perm {key : String} (value : α) {entries : Entries α} (h : key ∉ keys entries) :
    (place key value entries).Perm ((key, value) :: entries) := by
  induction entries with
  | nil => exact List.Perm.refl _
  | cons entry rest ih =>
    rw [keys_cons, List.mem_cons, not_or] at h
    rw [place]
    split
    · exact List.Perm.refl _
    · rw [if_neg (Ne.symm h.1)]
      exact ((ih h.2).cons entry).trans (List.Perm.swap _ _ _)

/-- **Sorting rearranges** entries of which no two have one key. -/
theorem sorted_perm {entries : Entries α} (h : (keys entries).Nodup) :
    (sorted entries).Perm entries := by
  have hfold : ∀ placed : Entries α, (keys placed ++ keys entries).Nodup →
      (entries.foldl (fun placed entry => place entry.1 entry.2 placed) placed).Perm
        (placed ++ entries) := by
    -- the invariant: what is placed and what is to come have different keys
    clear h
    induction entries with
    | nil => exact fun placed _ => List.Perm.of_eq (List.append_nil placed).symm
    | cons entry rest ih =>
      intro placed h
      have hnew : entry.1 ∉ keys placed := fun hmem =>
        (List.nodup_append.mp h).2.2 _ hmem _ List.mem_cons_self rfl
      have hplace := place_perm entry.2 hnew
      have hkeys : (keys (place entry.1 entry.2 placed) ++ keys rest).Perm
          (keys placed ++ keys (entry :: rest)) :=
        ((hplace.map Prod.fst).append_right (keys rest)).trans List.perm_middle.symm
      exact (ih _ (hkeys.nodup_iff.mpr h)).trans
        ((hplace.append_right rest).trans List.perm_middle.symm)
  exact hfold [] h

/-- Sorted entries with the same members are the same. -/
theorem Ascending.eq_of_perm {fs gs : Entries α} (hfs : fs.Ascending) (hgs : gs.Ascending)
    (h : fs.Perm gs) : fs = gs := by
  refine List.Perm.eq_of_pairwise ?_ (List.pairwise_map.mp hfs) (List.pairwise_map.mp hgs) h
  intro f g _ _ hfg hgf
  exact absurd (String.lt_trans hfg hgf) (String.lt_irrefl _)

theorem sorted_eq_self {entries : Entries α} (h : entries.Ascending) : sorted entries = entries :=
  (ascending_sorted entries).eq_of_perm h (sorted_perm h.nodup)

theorem lookup_sorted {entries : Entries α} (h : (keys entries).Nodup) (key : String) :
    (sorted entries).lookup key = entries.lookup key := by
  ext value
  rw [lookup_eq_some_iff_mem (ascending_sorted entries).nodup, (sorted_perm h).mem_iff,
    lookup_eq_some_iff_mem h]

/-! ### Key by key -/

/-- Entries with the same keys and different ones among them are related pointwise if they are
related key by key. -/
theorem forall₂_iff_lookup {R : α → β → Prop} {fs : Entries α} {gs : Entries β}
    (hnodup : (keys fs).Nodup) :
    List.Forall₂ (fun f g => f.1 = g.1 ∧ R f.2 g.2) fs gs
      ↔ keys fs = keys gs
        ∧ ∀ key a b, fs.lookup key = some a → gs.lookup key = some b → R a b := by
  induction fs generalizing gs with
  | nil => cases gs <;> simp
  | cons f fs ih =>
    obtain ⟨hnew, hrest⟩ := List.nodup_cons.mp hnodup
    cases gs with
    | nil => simp
    | cons g gs =>
      obtain ⟨k, v⟩ := f
      obtain ⟨l, w⟩ := g
      rw [List.forall₂_cons, ih hrest, keys_cons, keys_cons, List.cons.injEq]
      simp only [lookup_cons_eq]
      constructor
      · rintro ⟨⟨rfl, hvw⟩, hkeys, hlookup⟩
        refine ⟨⟨rfl, hkeys⟩, fun key a b ha hb => ?_⟩
        split at ha
        · next h =>
          rw [if_pos h] at hb
          cases ha
          cases hb
          exact hvw
        · next h =>
          rw [if_neg h] at hb
          exact hlookup key a b ha hb
      · rintro ⟨⟨rfl, hkeys⟩, hlookup⟩
        refine ⟨⟨rfl, hlookup k v w (if_pos rfl) (if_pos rfl)⟩, hkeys, fun key a b ha hb => ?_⟩
        have hne : key ≠ k := by
          rintro rfl
          exact hnew (mem_keys_of_lookup ha)
        exact hlookup key a b (by rw [if_neg hne, ha]) (by rw [if_neg hne, hb])

end Entries

end RecordQuery
