import RecordQuery.Fuzzy.Words
import Mathlib.Data.List.Infix

/-!
# Words and the texts they occur in

A text that is joined of two by a space has the words of both. Words have no spaces, so a word
occurs in the joined text exactly if it occurs in one of the two; nothing is found across the joint.

## Pieces, words and joints

A text is cut at its spaces, the pieces are stripped of the characters that do not count, and pieces
that are too short are dropped. Cutting is the one step that sees more than one piece. So joining
two texts by a space puts their lists of pieces one behind the other, and the other steps go through
each list by itself.

That a word occurs is a statement about the whole text and not about its words: it may occur in the
middle of a longer word, or in a piece that is no word. A character that the word does not have is
enough to keep occurrences apart (`Text.isInfix_append_cons_iff`), and a space is such a character.

Stripping only drops characters, and so does cutting. So a word is a sublist of its text and cannot
be longer.

## Main definitions

* `Fuzzy.IsWord` — what can be a word of a text

## Main results

* `Text.cut?_eq_none_iff` — cutting fails only if the piece does not occur
* `Text.isInfix_append_cons_iff` — nothing occurs across a character that it does not have
* `Fuzzy.words_append_space` — the words of a joined text
-/

namespace RecordQuery

namespace Text

/-- Cutting fails only if the piece does not occur. -/
theorem cut?_eq_none_iff {piece text : List Char} : cut? piece text = none ↔ ¬ piece <:+: text := by
  induction text with
  | nil =>
    rw [List.infix_nil, cut?]
    cases piece with
    | nil => simp
    | cons c piece => simp
  | cons c rest ih =>
    rw [cut?, List.infix_cons_iff, ← List.isPrefixOf_iff_prefix]
    split
    · next hbegins => simp [hbegins]
    · next hbegins =>
      rw [Option.map_eq_none_iff, ih, not_or, and_iff_right hbegins]

/-- Only the empty piece begins a text whose first character it does not have. -/
theorem eq_nil_of_prefix_cons {piece right : List Char} {c : Char} (h : c ∉ piece)
    (hbegins : piece <+: c :: right) : piece = [] := by
  rcases List.prefix_cons_iff.mp hbegins with hnil | ⟨rest, rfl, -⟩
  · exact hnil
  · exact absurd List.mem_cons_self h

/-- **Nothing occurs across a character that it does not have.** -/
theorem isInfix_append_cons_iff {piece left right : List Char} {c : Char} (h : c ∉ piece) :
    piece <:+: left ++ c :: right ↔ piece <:+: left ∨ piece <:+: right := by
  constructor
  · intro hpiece
    rcases List.infix_append_iff.mp hpiece with hleft | hright | ⟨start, stop, rfl, hstart, hstop⟩
    · exact .inl hleft
    · rcases List.infix_cons_iff.mp hright with hbegins | hright
      · rw [eq_nil_of_prefix_cons h hbegins]
        exact .inl List.nil_infix
      · exact .inr hright
    · have hstopNil := eq_nil_of_prefix_cons (fun hc => h (List.mem_append_right _ hc)) hstop
      rw [hstopNil, List.append_nil]
      exact .inl hstart.isInfix
  · rintro (hleft | hright)
    · exact List.infix_append_of_infix_left hleft
    · exact List.infix_append_of_infix_right (List.infix_cons hright)

/-- A piece consists of characters of the text, in their order. -/
theorem sublist_of_mem_split {separator : Char} {text piece : List Char}
    (h : piece ∈ split separator text) : piece.Sublist text := by
  induction text generalizing piece with
  | nil => rw [List.mem_singleton.mp h]
  | cons c rest ih =>
    by_cases hc : c = separator
    · subst hc
      rw [split_separator] at h
      rcases List.mem_cons.mp h with rfl | h
      · exact List.nil_sublist _
      · exact (ih h).cons c
    · obtain ⟨first, pieces, hrest, hsplit⟩ := split_cons_of_ne hc rest
      rw [hrest] at ih
      rw [hsplit] at h
      rcases List.mem_cons.mp h with rfl | h
      · exact (ih List.mem_cons_self).cons_cons c
      · exact (ih (List.mem_cons_of_mem first h)).cons c

end Text

namespace Fuzzy

/-- Joining two texts by a space joins their words. -/
theorem words_append_space (minLength : Nat) (left right : List Char) :
    words minLength (left ++ ' ' :: right) = words minLength left ++ words minLength right := by
  rw [words, Text.split_append, List.map_append, List.filter_append]
  rfl

/-- What can be a word of a text: long enough, and of characters that count. -/
structure IsWord (minLength : Nat) (word : Word) : Prop where
  /-- Every character counts. -/
  chars : ∀ c ∈ word, isWordChar c = true
  /-- The word is long enough. -/
  length : minLength ≤ word.length

theorem isWord_of_mem_words {minLength : Nat} {text : List Char} {word : Word}
    (h : word ∈ words minLength text) : IsWord minLength word := by
  obtain ⟨hpiece, hlength⟩ := List.mem_filter.mp h
  obtain ⟨piece, -, rfl⟩ := List.mem_map.mp hpiece
  exact ⟨fun c hc => (List.mem_filter.mp hc).2, of_decide_eq_true hlength⟩

theorem IsWord.notMem {minLength : Nat} {word : Word} (h : IsWord minLength word) {c : Char}
    (hc : isWordChar c = false) : c ∉ word :=
  fun hmem => absurd (h.chars c hmem) (hc ▸ Bool.false_ne_true)

/-- A word consists of characters of the text that it is a word of, in their order. -/
theorem sublist_of_mem_words {minLength : Nat} {text : List Char} {word : Word}
    (h : word ∈ words minLength text) : word.Sublist text := by
  obtain ⟨piece, hpiece, rfl⟩ := List.mem_map.mp (List.mem_of_mem_filter h)
  exact List.filter_sublist.trans (Text.sublist_of_mem_split hpiece)

theorem length_le_of_mem_words {minLength : Nat} {text : List Char} {word : Word}
    (h : word ∈ words minLength text) : word.length ≤ text.length :=
  (sublist_of_mem_words h).length_le

/-- A word occurs in a joined text exactly if it occurs in one of the two. -/
theorem word_isInfix_append_space_iff {minLength : Nat} {text left right : List Char} {word : Word}
    (h : word ∈ words minLength text) :
    word <:+: left ++ ' ' :: right ↔ word <:+: left ∨ word <:+: right :=
  Text.isInfix_append_cons_iff ((isWord_of_mem_words h).notMem (by decide))

end Fuzzy

end RecordQuery
