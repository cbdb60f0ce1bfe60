import RecordQuery.Proofs.Numbers.Spelling
import RecordQuery.Proofs.Values.Equality

/-!
# Key texts of equal values

Equal values have one key text, unless numbers in them are spelt apart. At the top these may be an
integer and a double. Inside arrays equality is identity, and then only two zeros of different sign
are spelt apart. Objects all have one text, whatever is in them.

The argument has to see a difference in one item through to the text of the array. Texts joined by
commas need not tell their items apart, since a string may have commas in it. Here they do: of the
texts of two identical values, neither is a proper beginning of the other (`PrefixFree`), so the
first item that differs is where the joined texts part, and the same holds of the arrays.

## Why texts may be joined

If the texts of the items are told apart one by one, are the joined texts, too? Not in general: the
items `"a,b"` and `"c"` and the items `"a"` and `"b,c"` are joined to one text. So the argument
cannot be about commas. It uses that the two arrays are identical item by item. Then the texts at
each place are the same, or they differ in numbers only, and numbers that are identical and spelt
differently have texts of which neither begins the other.

If neither of two texts begins the other, whatever follows them cannot make up for the difference.
This passes to joined texts and from there to arrays of arrays, which is why `PrefixFree` is the
property that the induction carries, and not that the texts differ.

## Implementation notes

An item that is `null` has no text, while `null` by itself has one. `Value.itemText` is the text of
an item, so that the texts of items are a map over them, and identical items are `null` at the same
places.

Texts are compared as lists of characters, where being a beginning is a relation of the library.

## Main definitions

* `Value.KeysApart` — numbers at corresponding places are spelt apart

## Main results

* `eq_of_prefix_intercalate` — joined texts tell items apart
* `Value.keyText_eq_iff` — which equal values have one key text
-/

namespace RecordQuery

/-! ### Joined texts -/

/-- Neither list is a proper beginning of the other. -/
def PrefixFree {α : Type} (s t : List α) : Prop := s <+: t ∨ t <+: s → s = t

theorem PrefixFree.rfl {α : Type} {s : List α} : PrefixFree s s := fun _ => Eq.refl s

theorem PrefixFree.symm {α : Type} {s t : List α} (h : PrefixFree s t) : PrefixFree t s :=
  fun hbegins => (h hbegins.symm).symm

/-- **Lists of which no two at one place are proper beginnings of each other stay apart when they
are joined**: if one joined list is a beginning of the other, all parts are the same. -/
theorem eq_of_prefix_intercalate {α : Type} {sep : List α} {ss ts : List (List α)}
    (h : List.Forall₂ PrefixFree ss ts) (hbegins : sep.intercalate ss <+: sep.intercalate ts) :
    ss = ts := by
  induction h with
  | nil => rfl
  | @cons s t ss ts hst hrest ih =>
    cases hrest with
    | nil =>
      rw [List.intercalate_singleton, List.intercalate_singleton] at hbegins
      rw [hst (.inl hbegins)]
    | @cons s' t' ss ts _ _ =>
      rw [List.intercalate_cons_cons, List.intercalate_cons_cons, List.append_assoc,
        List.append_assoc] at hbegins
      have hs := (List.prefix_append s _).trans hbegins
      have hone := List.prefix_or_prefix_of_prefix hs (List.prefix_append t _)
      obtain rfl := hst hone
      rw [List.prefix_append_right_inj, List.prefix_append_right_inj] at hbegins
      rw [ih hbegins]

theorem intercalate_eq_iff {α : Type} {sep : List α} {ss ts : List (List α)}
    (h : List.Forall₂ PrefixFree ss ts) : sep.intercalate ss = sep.intercalate ts ↔ ss = ts :=
  ⟨fun heq => eq_of_prefix_intercalate h ⟨[], by rw [List.append_nil, heq]⟩, congrArg _⟩

theorem prefixFree_intercalate {α : Type} {sep : List α} {ss ts : List (List α)}
    (h : List.Forall₂ PrefixFree ss ts) :
    PrefixFree (sep.intercalate ss) (sep.intercalate ts) := by
  have hflip : List.Forall₂ PrefixFree ts ss := (h.imp fun _ _ => PrefixFree.symm).flip
  rintro (hbegins | hbegins)
  · rw [eq_of_prefix_intercalate h hbegins]
  · rw [eq_of_prefix_intercalate hflip hbegins]

/-- Of the texts of two identical numbers neither is a proper beginning of the other. -/
theorem Num.prefixFree_text {a b : Num} (h : a.identical b = true) :
    PrefixFree a.text.toList b.text.toList := by
  cases a with
  | int m =>
    cases b with
    | int n => rw [show m = n from beq_iff_eq.mp h]; exact .rfl
    | float y => cases h
  | float x =>
    cases b with
    | int n => cases h
    | float y =>
      have hrank : x.rank = y.rank := (Binary64.equal_iff.mp h).2.2
      rcases Binary64.eq_or_zeros_of_rank_eq hrank with rfl | ⟨s, t, rfl, rfl⟩
      · exact .rfl
      · rw [text, text, Binary64.text_zero, Binary64.text_zero]
        cases s <;> cases t <;> simp [PrefixFree]

namespace Value

/-! ### Values with different key texts -/

/-- Numbers that are spelt apart stand at corresponding places: at the top, or as items of arrays in
arrays. -/
inductive KeysApart : Value → Value → Prop
  | num {m n : Num} (h : m.SpeltApart n) : KeysApart (.num m) (.num n)
  | arr {as bs : List Value} {a b : Value} (hmem : (a, b) ∈ as.zip bs) (h : KeysApart a b) :
      KeysApart (.arr as) (.arr bs)

variable {a b : Value}

theorem keysApart_num_iff {m n : Num} : KeysApart (.num m) (.num n) ↔ m.SpeltApart n :=
  ⟨fun | .num h => h, .num⟩

theorem keysApart_arr_iff {as bs : List Value} :
    KeysApart (.arr as) (.arr bs) ↔ ∃ pair ∈ as.zip bs, KeysApart pair.1 pair.2 :=
  ⟨fun | .arr hmem h => ⟨_, hmem, h⟩, fun ⟨_, hmem, h⟩ => .arr hmem h⟩

/-- The text of a value as an item of an array. -/
def itemText (v : Value) : String := if v.isNull then "" else v.keyText

theorem itemTexts_eq_map (items : List Value) : itemTexts items = items.map itemText := by
  induction items with
  | nil => rfl
  | cons v items ih => cases v <;> simp [itemTexts, itemText, isNull, ih]

theorem isNull_eq_of_identical (h : identical a b = true) : a.isNull = b.isNull := by
  cases a <;> cases b <;> first | rfl | cases h

/-! ### Key texts of identical values -/

theorem toList_keyText_arr (items : List Value) : (keyText (.arr items)).toList
    = ",".toList.intercalate (items.map fun v => v.itemText.toList) := by
  rw [keyText, String.toList_intercalate, itemTexts_eq_map, List.map_map]
  rfl

theorem prefixFree_itemText (h : identical a b = true)
    (hkey : PrefixFree a.keyText.toList b.keyText.toList) :
    PrefixFree a.itemText.toList b.itemText.toList := by
  rw [itemText, itemText, isNull_eq_of_identical h]
  split
  · exact .rfl
  · exact hkey

/-- Of the key texts of two identical values neither is a proper beginning of the other. -/
theorem prefixFree_keyText (ha : a.InRange) (h : identical a b = true) :
    PrefixFree a.keyText.toList b.keyText.toList := by
  induction ha generalizing b with
  | null => rw [← identical_null_iff.mp h]; exact .rfl
  | bool p => rw [← identical_bool_iff.mp h]; exact .rfl
  | str s => rw [← identical_str_iff.mp h]; exact .rfl
  | num =>
    obtain ⟨n, rfl, hn⟩ := identical_num_iff.mp h
    exact Num.prefixFree_text hn
  | arr _ ih =>
    obtain ⟨bs, rfl, hbs⟩ := identical_arr_iff.mp h
    rw [toList_keyText_arr, toList_keyText_arr]
    refine prefixFree_intercalate ?_
    rw [List.forall₂_map_left_iff, List.forall₂_map_right_iff]
    exact forall₂_imp_mem hbs fun v hv w hvw => prefixFree_itemText hvw (ih v hv hvw)
  | obj =>
    obtain ⟨gs, rfl, -⟩ := identical_obj_iff.mp h
    exact .rfl

/-- Two arrays have one key text if their items have, one by one. -/
theorem keyText_arr_eq_iff {as bs : List Value} (ha : InRange (.arr as))
    (h : List.Forall₂ (fun a b => identical a b = true) as bs) :
    keyText (.arr as) = keyText (.arr bs)
      ↔ List.Forall₂ (fun a b => a.itemText = b.itemText) as bs := by
  have hfree : List.Forall₂ PrefixFree (as.map fun a => a.itemText.toList)
      (bs.map fun b => b.itemText.toList) := by
    rw [List.forall₂_map_left_iff, List.forall₂_map_right_iff]
    exact forall₂_imp_mem h fun a hmem b hab =>
      prefixFree_itemText hab (prefixFree_keyText (ha.of_arr a hmem) hab)
  rw [← String.toList_inj, toList_keyText_arr, toList_keyText_arr, intercalate_eq_iff hfree,
    ← List.forall₂_eq_eq_eq, List.forall₂_map_left_iff, List.forall₂_map_right_iff]
  simp only [String.toList_inj]

theorem itemText_eq_iff (h : identical a b = true)
    (hkey : a.keyText = b.keyText ↔ ¬ KeysApart a b) :
    a.itemText = b.itemText ↔ ¬ KeysApart a b := by
  rw [← hkey, itemText, itemText, isNull_eq_of_identical h]
  split
  · next hb =>
    obtain rfl := isNull_iff.mp hb
    obtain rfl := isNull_iff.mp ((isNull_eq_of_identical h).trans hb)
    exact iff_of_true rfl rfl
  · rfl

/-- **Identical values have one key text unless they have zeros of different signs.** -/
theorem keyText_eq_iff_of_identical (ha : a.InRange) (hb : b.InRange) (h : identical a b = true) :
    a.keyText = b.keyText ↔ ¬ KeysApart a b := by
  induction ha generalizing b with
  | null => exact iff_of_true (by rw [← identical_null_iff.mp h]) nofun
  | bool p => exact iff_of_true (by rw [← identical_bool_iff.mp h]) nofun
  | str s => exact iff_of_true (by rw [← identical_str_iff.mp h]) nofun
  | @num m hm =>
    obtain ⟨n, rfl, hn⟩ := identical_num_iff.mp h
    rw [keysApart_num_iff]
    exact Num.text_eq_iff hm hb.of_num (Num.identical_iff.mp hn).1
  | @arr as ha ih =>
    obtain ⟨bs, rfl, hbs⟩ := identical_arr_iff.mp h
    have hitem : ∀ v w, (v, w) ∈ as.zip bs → (v.itemText = w.itemText ↔ ¬ KeysApart v w) := by
      intro v w hmem
      have hvw := List.forall₂_zip hbs hmem
      obtain ⟨hv, hw⟩ := List.of_mem_zip hmem
      exact itemText_eq_iff hvw (ih v hv (hb.of_arr w hw) hvw)
    rw [keyText_arr_eq_iff (.arr ha) hbs, List.forall₂_iff_zip, keysApart_arr_iff]
    constructor
    · rintro ⟨-, heq⟩ ⟨⟨v, w⟩, hmem, hapart⟩
      exact (hitem v w hmem).mp (heq hmem) hapart
    · exact fun hnone => ⟨hbs.length_eq, fun {v w} hmem =>
        (hitem v w hmem).mpr fun hapart => hnone ⟨(v, w), hmem, hapart⟩⟩
  | obj =>
    obtain ⟨gs, rfl, -⟩ := identical_obj_iff.mp h
    exact iff_of_true rfl nofun

/-- **Equal values have one key text unless numbers in them are spelt apart.** -/
theorem keyText_eq_iff (ha : a.InRange) (hb : b.InRange) (h : equal a b = true) :
    a.keyText = b.keyText ↔ ¬ KeysApart a b := by
  rcases equal_cases h with ⟨m, n, rfl, rfl, hmn⟩ | ⟨-, -, hab⟩
  · rw [keysApart_num_iff]
    exact Num.text_eq_iff ha.of_num hb.of_num hmn
  · exact keyText_eq_iff_of_identical ha hb hab

end Value

end RecordQuery
