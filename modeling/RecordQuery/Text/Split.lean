/-!
# Cutting text

Texts are lists of characters here. `split` cuts at every occurrence of a separator, `join` puts the
pieces together again, and `cut?` finds the leftmost occurrence of a text inside another.

## Main results

* `Text.join_split` — nothing is lost in cutting
* `Text.split_append` — cutting in front of a separator is cutting either side
* `Text.split_join` — pieces without separators are found again
* `Text.eq_of_cut?` — the text before, the piece and the text after make up the whole
-/

namespace RecordQuery

namespace Text

/-! ### Splitting and joining -/

/-- The pieces between the occurrences of a separator: always one more than there are occurrences,
so the empty text has one empty piece. -/
def split (separator : Char) : List Char → List (List Char)
  | [] => [[]]
  | c :: rest =>
    if c = separator then [] :: split separator rest
    else
      match split separator rest with
      | [] => [[c]]
      | piece :: pieces => (c :: piece) :: pieces

/-- The pieces with a separator between every two. -/
def join (separator : Char) : List (List Char) → List Char
  | [] => []
  | [piece] => piece
  | piece :: next :: pieces => piece ++ separator :: join separator (next :: pieces)

@[simp] theorem split_nil (separator : Char) : split separator [] = [[]] := rfl

@[simp] theorem split_separator (separator : Char) (rest : List Char) :
    split separator (separator :: rest) = [] :: split separator rest := by
  simp [split]

theorem split_ne_nil (separator : Char) (text : List Char) : split separator text ≠ [] := by
  cases text with
  | nil => simp
  | cons c rest =>
    simp only [split]
    split
    · simp
    · split <;> simp

/-- A character that is no separator joins the first piece. -/
theorem split_cons_of_ne {separator c : Char} (h : c ≠ separator) (rest : List Char) :
    ∃ piece pieces, split separator rest = piece :: pieces ∧
      split separator (c :: rest) = (c :: piece) :: pieces := by
  match hs : split separator rest with
  | [] => exact absurd hs (split_ne_nil separator rest)
  | piece :: pieces => exact ⟨piece, pieces, rfl, by simp [split, h, hs]⟩

/-- Nothing is lost in cutting. -/
theorem join_split (separator : Char) (text : List Char) :
    join separator (split separator text) = text := by
  induction text with
  | nil => rfl
  | cons c rest ih =>
    by_cases h : c = separator
    · subst h
      rw [split_separator]
      match hs : split c rest with
      | [] => exact absurd hs (split_ne_nil c rest)
      | piece :: pieces => rw [hs] at ih; simp [join, ih]
    · obtain ⟨piece, pieces, hs, hc⟩ := split_cons_of_ne h rest
      rw [hs] at ih
      rw [hc]
      cases pieces with
      | nil => simp only [join] at ih ⊢; rw [ih]
      | cons next pieces => simp only [join] at ih ⊢; rw [List.cons_append, ih]

/-- Cutting a text in front of one of its separators is cutting what is on either side of it. -/
theorem split_append (separator : Char) (left right : List Char) :
    split separator (left ++ separator :: right)
      = split separator left ++ split separator right := by
  induction left with
  | nil => simp
  | cons c left ih =>
    by_cases h : c = separator
    · subst h
      simp [ih]
    · obtain ⟨piece, pieces, hs, hc⟩ := split_cons_of_ne h left
      obtain ⟨piece', pieces', hs', hc'⟩ := split_cons_of_ne h (left ++ separator :: right)
      rw [ih, hs, List.cons_append, List.cons.injEq] at hs'
      obtain ⟨rfl, rfl⟩ := hs'
      rw [List.cons_append, hc', hc, List.cons_append]

theorem split_of_notMem {separator : Char} {piece : List Char} (h : separator ∉ piece) :
    split separator piece = [piece] := by
  induction piece with
  | nil => rfl
  | cons c rest ih =>
    rw [List.mem_cons, not_or] at h
    simp [split, Ne.symm h.1, ih h.2]

/-- **Pieces without separators are found again** in the text that joins them. -/
theorem split_join {separator : Char} {pieces : List (List Char)} (hne : pieces ≠ [])
    (h : ∀ piece ∈ pieces, separator ∉ piece) :
    split separator (join separator pieces) = pieces := by
  induction pieces with
  | nil => exact absurd rfl hne
  | cons piece pieces ih =>
    obtain ⟨hpiece, hpieces⟩ := List.forall_mem_cons.mp h
    cases pieces with
    | nil => exact split_of_notMem hpiece
    | cons next pieces =>
      show split separator (piece ++ separator :: join separator (next :: pieces)) = _
      rw [split_append, split_of_notMem hpiece, ih (List.cons_ne_nil _ _) hpieces,
        List.singleton_append]

/-! ### Finding -/

/-- The text before and after the leftmost occurrence of `piece`. -/
def cut? (piece : List Char) : List Char → Option (List Char × List Char)
  | [] => if piece.isEmpty then some ([], []) else none
  | c :: rest =>
    if piece.isPrefixOf (c :: rest) then some ([], (c :: rest).drop piece.length)
    else (cut? piece rest).map fun (before, after) => (c :: before, after)

/-- The text before, the piece and the text after make up the whole. -/
theorem eq_of_cut? {piece text before after : List Char}
    (h : cut? piece text = some (before, after)) : text = before ++ piece ++ after := by
  induction text generalizing before after with
  | nil =>
    simp only [cut?] at h
    split at h
    · next hp =>
      obtain ⟨rfl, rfl⟩ := Prod.mk.inj (Option.some.inj h)
      simp_all
    · cases h
  | cons c rest ih =>
    simp only [cut?] at h
    split at h
    · next hp =>
      obtain ⟨rfl, rfl⟩ := Prod.mk.inj (Option.some.inj h)
      obtain ⟨tail, ht⟩ := List.isPrefixOf_iff_prefix.mp hp
      rw [← ht]
      simp
    · obtain ⟨⟨before', after'⟩, hc, hb⟩ := Option.map_eq_some_iff.mp h
      obtain ⟨rfl, rfl⟩ := Prod.mk.inj hb
      rw [ih hc]
      rfl

end Text

end RecordQuery
