import RecordQuery.Proofs.Columns.Identity
import RecordQuery.Proofs.Keyed.Duplicates
import RecordQuery.Proofs.Numbers.ReadBack

/-!
# What removing duplicates loses

Without a column, duplicates are elements with the same key text. An element goes if an earlier one
has its key text, and the first that has it stays. This would lose nothing if the key text were
never shared by elements that are not equal. How far that is so depends on what the elements are.

* Scalars of one kind have a key text of their own, up to equality. For numbers this is the fact
  that numbers which are written alike are equal.
* Elements of different kinds may share a key text, as `1` and `"1"` do. They are never equal.
* Arrays may share a key text, since commas in texts look like commas between items.
* All objects have one key text. Of any number of objects, only the first stays.

## Equal to which one

An element that goes is compared with the first that has its key text, since that is the one that
stays for it. There may be others of the same text in between. They went, too, and need not be equal
to the element or to the one that stays. So `Records.Lossless` asks, for each element that goes, for
one that stays, and it asks for it in front.

## Numbers

That numbers of one kind which are written alike are equal is the one case with content. Two
integers that are written alike are the same integer. An integer and a double that are written alike
are equal as doubles, since what is written for a double is read back as that double. This is shown
in `RecordQuery.Proofs.Numbers.ReadBack`, for values that come from outside.

## Implementation notes

The kind of a value is that of JSON, so integers and doubles are of one kind. Whether arrays or
objects are equal is not decided by their kinds and texts at all, and the equivalence leaves it to
identity.

## Main definitions

* `Records.Lossless` — what goes is equal to something that stays

## Main results

* `Value.equal_iff_of_keyText` — which values with one key text are equal
* `Records.exists_kept` — what goes has its key text in common with something earlier that stays
* `Records.dedup_losses` — the summary
-/

namespace RecordQuery

/-! ### Values with one key text -/

namespace Value

variable {a b : Value}

theorem kind_eq_of_equal (h : equal a b = true) : a.kind = b.kind := by
  cases a <;> cases b <;> first | rfl | cases h

/-- Scalars of one kind that have one key text are equal. -/
theorem equal_of_keyText (ha : a.InRange) (hb : b.InRange) (hkind : a.kind = b.kind)
    (harr : a.kind ≠ .array) (hobj : a.kind ≠ .object) (hkey : a.keyText = b.keyText) :
    equal a b = true := by
  cases a with
  | null =>
    cases b <;> first | rfl | cases hkind
  | bool p =>
    cases b with
    | bool q => cases p <;> cases q <;> first | rfl | exact absurd hkey (by decide)
    | _ => cases hkind
  | num m =>
    cases b with
    | num n => exact Num.equal_of_text_eq ha.of_num hb.of_num hkey
    | _ => cases hkind
  | str s =>
    cases b with
    | str t => exact beq_iff_eq.mpr hkey
    | _ => cases hkind
  | arr items => exact absurd rfl harr
  | obj fields => exact absurd rfl hobj

/-- **Values with one key text are equal if they are of one kind**, and identical in case they are
arrays or objects. -/
theorem equal_iff_of_keyText (ha : a.InRange) (hb : b.InRange) (hkey : a.keyText = b.keyText) :
    equal a b = true
      ↔ a.kind = b.kind ∧ (a.kind = .array ∨ a.kind = .object → identical a b = true) := by
  constructor
  · intro h
    refine ⟨kind_eq_of_equal h, fun hkind => ?_⟩
    rcases equal_cases h with ⟨m, n, rfl, rfl, -⟩ | ⟨-, -, hidentical⟩
    · rcases hkind with hkind | hkind <;> cases hkind
    · exact hidentical
  · rintro ⟨hkind, hidentical⟩
    by_cases hnested : a.kind = .array ∨ a.kind = .object
    · exact equal_of_identical (hidentical hnested)
    · rw [not_or] at hnested
      exact equal_of_keyText ha hb hkind hnested.1 hnested.2 hkey

end Value

namespace Records

variable {records : Records}

/-! ### What goes -/

/-- Every element that goes is equal to one that stays, at an earlier position. -/
def Lossless (records : Records) : Prop :=
  ∀ entry ∈ records.indexed, entry ∉ records.foremostBy records.keys →
    ∃ kept ∈ records.foremostBy records.keys, kept.2 < entry.2
      ∧ Value.equal entry.1 kept.1 = true

theorem dedup_eq_foremostBy (records : Records) :
    records.dedup = ⟨(records.foremostBy records.keys).map Prod.fst⟩ := by
  have hitself := dedupOn_eq_foremostBy (keysOn_of_isIdentity (c := .itself) records rfl)
  rw [dedupOn, toEntriesOn_of_isIdentity records rfl] at hitself
  exact Except.ok.inj hitself

theorem getElem?_keys {entry : Value × ℕ} (h : entry ∈ records.indexed) :
    records.keys[entry.2]? = some entry.1.keyText := by
  rw [keys, List.getElem?_map, List.mem_zipIdx_iff_getElem?.mp h, Option.map_some]

/-- **An element that goes has its key text in common with an earlier one that stays**: with the
first one that has it. -/
theorem exists_kept {entry : Value × ℕ} (hentry : entry ∈ records.indexed)
    (hgone : entry ∉ records.foremostBy records.keys) :
    ∃ kept ∈ records.foremostBy records.keys, kept.2 < entry.2
      ∧ kept.1.keyText = entry.1.keyText := by
  have hearlier : ∃ earlier, earlier < entry.2
      ∧ records.keys[earlier]? = records.keys[entry.2]? := by
    rw [foremostBy, List.mem_filter, not_and, decide_eq_true_iff] at hgone
    simpa using hgone hentry
  obtain ⟨first, hlt, hsame, hnone⟩ : ∃ first < entry.2,
      records.keys[first]? = records.keys[entry.2]?
        ∧ ∀ earlier < first, records.keys[earlier]? ≠ records.keys[first]? := by
    obtain ⟨hlt, hsame⟩ := Nat.find_spec hearlier
    exact ⟨_, hlt, hsame, fun earlier hbefore hagain =>
      Nat.find_min hearlier hbefore ⟨hbefore.trans hlt, hagain.trans hsame⟩⟩
  obtain ⟨element, helement, hkey⟩ : ∃ element, records.toList[first]? = some element
      ∧ element.keyText = entry.1.keyText := by
    rwa [getElem?_keys hentry, keys, List.getElem?_map, Option.map_eq_some_iff] at hsame
  have hkept : (element, first) ∈ records.foremostBy records.keys :=
    List.mem_filter.mpr ⟨List.mem_zipIdx_iff_getElem?.mpr helement, decide_eq_true hnone⟩
  exact ⟨_, hkept, hlt, hkey⟩

/-- Of elements that all have one key text, only the first stays. -/
theorem dedup_of_one_key {key : String} (h : ∀ v ∈ records.toList, v.keyText = key) :
    records.dedup = ⟨records.toList.take 1⟩ := by
  have hkey : ∀ entry ∈ records.indexed, records.keys[entry.2]? = some key := by
    intro entry hentry
    rw [getElem?_keys hentry, h entry.1 (List.fst_mem_of_mem_zipIdx hentry)]
  rw [dedup_eq_foremostBy]
  refine congrArg Records.mk ?_
  cases hlist : records.toList with
  | nil => simp [foremostBy, indexed, hlist]
  | cons v rest =>
    have hindexed : records.indexed = (v, 0) :: rest.zipIdx 1 := by
      rw [indexed, hlist, List.zipIdx_cons]
    have hfirst : records.keys[0]? = some key := hkey (v, 0) (hindexed ▸ List.mem_cons_self)
    have hrest : (rest.zipIdx 1).filter (fun entry =>
        decide (∀ earlier < entry.2, records.keys[earlier]? ≠ records.keys[entry.2]?)) = [] := by
      rw [List.filter_eq_nil_iff]
      intro entry hentry hnew
      have hposition := List.le_snd_of_mem_zipIdx hentry
      have hlater := hkey entry (hindexed ▸ List.mem_cons_of_mem _ hentry)
      exact of_decide_eq_true hnew 0 hposition (hfirst.trans hlater.symm)
    rw [foremostBy, hindexed, List.filter_cons_of_pos (by simp), hrest]
    rfl

theorem dedup_of_objects (h : ∀ v ∈ records.toList, v.kind = .object) :
    records.dedup = ⟨records.toList.take 1⟩ := by
  have hkey : ∀ v ∈ records.toList, v.keyText = "[object Object]" := by
    intro v hv
    cases v with
    | obj fields => rfl
    | _ => cases h _ hv
  exact dedup_of_one_key hkey

theorem lossless_of_kind (hrange : ∀ v ∈ records.toList, v.InRange) {kind : Kind}
    (harr : kind ≠ .array) (hobj : kind ≠ .object) (h : ∀ v ∈ records.toList, v.kind = kind) :
    records.Lossless := by
  intro entry hentry hgone
  obtain ⟨kept, hkept, hlt, hkey⟩ := exists_kept hentry hgone
  have hentry' : entry.1 ∈ records.toList := List.fst_mem_of_mem_zipIdx hentry
  have hkept' : kept.1 ∈ records.toList :=
    List.fst_mem_of_mem_zipIdx (List.mem_of_mem_filter hkept)
  refine ⟨kept, hkept, hlt, Value.equal_of_keyText (hrange _ hentry') (hrange _ hkept') ?_ ?_ ?_
    hkey.symm⟩
  · rw [h _ hentry', h _ hkept']
  · rwa [h _ hentry']
  · rwa [h _ hentry']

/-- **What removing duplicates loses.** The elements stay whose key text no earlier element has. One
that goes has its key text in common with an earlier one that stays, and is equal to that one if the
two are of one kind, and identical in case they are arrays or objects. So nothing is lost of scalars
of one kind, and of objects everything but the first one. -/
theorem dedup_losses (records : Records) (hrange : ∀ v ∈ records.toList, v.InRange) :
    records.dedup = ⟨(records.foremostBy records.keys).map Prod.fst⟩
      ∧ (∀ entry ∈ records.indexed, entry ∉ records.foremostBy records.keys →
        ∃ kept ∈ records.foremostBy records.keys, kept.2 < entry.2
          ∧ kept.1.keyText = entry.1.keyText
          ∧ (Value.equal entry.1 kept.1 = true ↔ entry.1.kind = kept.1.kind
            ∧ (entry.1.kind = .array ∨ entry.1.kind = .object →
              Value.identical entry.1 kept.1 = true)))
      ∧ (∀ kind : Kind, kind ≠ .array → kind ≠ .object →
        (∀ v ∈ records.toList, v.kind = kind) → records.Lossless)
      ∧ ((∀ v ∈ records.toList, v.kind = .object) →
        records.dedup = ⟨records.toList.take 1⟩) := by
  refine ⟨dedup_eq_foremostBy records, fun entry hentry hgone => ?_,
    fun kind harr hobj h => lossless_of_kind hrange harr hobj h, dedup_of_objects⟩
  obtain ⟨kept, hkept, hlt, hkey⟩ := exists_kept hentry hgone
  have hentry' := hrange _ (List.fst_mem_of_mem_zipIdx hentry)
  have hkept' := hrange _ (List.fst_mem_of_mem_zipIdx (List.mem_of_mem_filter hkept))
  exact ⟨kept, hkept, hlt, hkey, Value.equal_iff_of_keyText hentry' hkept' hkey.symm⟩

/-- An integer and the double that equals it are duplicates, and nothing is lost when one of them
goes. -/
theorem dedup_losses_whole_double :
    let records : Records := ⟨[.int 17, .num (.float (.ofInt 17)), .int 18]⟩
    (∀ v ∈ records.toList, v.InRange) ∧ (∀ v ∈ records.toList, v.kind = .number)
      ∧ records.dedup = ⟨[.int 17, .int 18]⟩ ∧ records.Lossless := by
  intro records
  have hrange : ∀ v ∈ records.toList, v.InRange := by
    have hints : Value.InRange (.int 17) ∧ Value.InRange (.int 18) :=
      ⟨.num (by decide), .num (by decide)⟩
    have hdouble : Value.InRange (.num (.float (.ofInt 17))) := .num (by decide +kernel)
    simpa [records] using ⟨hints.1, hdouble, hints.2⟩
  have hkind : ∀ v ∈ records.toList, v.kind = .number := by
    simp [records, Value.kind, Value.int]
  have hkeys : records.keys = ["17", "17", "18"] := by decide +kernel
  have hkept : (records.foremostBy records.keys).map Prod.fst = [.int 17, .int 18] := by
    rw [hkeys]
    rfl
  obtain ⟨hdedup, -, hscalars, -⟩ := dedup_losses records hrange
  exact ⟨hrange, hkind, hkept ▸ hdedup, hscalars .number (by decide) (by decide) hkind⟩

/-- **Removing duplicates may lose data**: of two objects that are not equal one goes. -/
theorem dedup_not_lossless :
    let records : Records := ⟨[.obj [("a", .int 1)], .obj [("a", .int 2)]]⟩
    (∀ v ∈ records.toList, v.InRange)
      ∧ records.dedup = ⟨[.obj [("a", .int 1)]]⟩
      ∧ Value.equal (.obj [("a", .int 2)]) (.obj [("a", .int 1)]) = false
      ∧ ¬ records.Lossless := by
  intro records
  have hrange : ∀ v ∈ records.toList, v.InRange := by
    have hfields : Value.InRange (.obj [("a", .int 1)]) ∧ Value.InRange (.obj [("a", .int 2)]) :=
      ⟨.obj (List.forall_mem_singleton.mpr (.num (by decide))),
        .obj (List.forall_mem_singleton.mpr (.num (by decide)))⟩
    simpa [records] using hfields
  have hkept : records.foremostBy records.keys = [(.obj [("a", .int 1)], 0)] := rfl
  refine ⟨hrange, dedup_of_objects (by simp [records, Value.kind]), rfl, fun hlossless => ?_⟩
  have hsecond : ((.obj [("a", .int 2)], 1) : Value × ℕ) ∈ records.indexed := by
    simp [records, indexed]
  obtain ⟨kept, hmem, -, hequal⟩ := hlossless _ hsecond (by simp [hkept])
  rw [hkept, List.mem_singleton] at hmem
  subst hmem
  cases hequal

end Records

end RecordQuery
