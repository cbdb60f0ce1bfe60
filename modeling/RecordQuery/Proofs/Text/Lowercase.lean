import RecordQuery.Text.Lowercase

/-!
# Lower case and spaces

The lower case of a text joined by a space is the lower case of its parts, joined by a space. Only
the capital sigma looks at the characters around it, and it does not look past a space: a space has
no case, and it counts.

## Why a space is special

The lower case of a sigma at the end of a word differs from that of other sigmas, and whether it
stands at the end of a word is decided by the nearest characters on both sides that count. Some
characters do not count: an apostrophe or a combining mark between two letters is passed over. A
space is not passed over, and it has no case. So a search that comes to a space ends there, and its
answer is the same as at the end of the text.

For other separators this is a question of the table. A colon or a full stop does not count, and the
lower case of a text joined by one of them need not be the lower case of its parts.

## Implementation notes

The text is taken in lower case from left to right, and what has been passed is kept in reverse. Two
texts that have been passed are as good as each other if the search through them has the same answer
(`Text.lowercaseAfter_congr`). After a space that answer is the one for no text at all, which is why
a text begins anew there.

## Main results

* `Text.casedNext_append_space` — a space ends the search for a cased character
* `Text.lowercase_append_space` — the parts of a text are taken in lower case one by one
-/

namespace RecordQuery

namespace Text

theorem casedNext_cons (c : Char) (text : List Char) :
    casedNext (c :: text)
      = if caseIgnorableRanges.has c then casedNext text else casedRanges.has c := by
  cases hcounts : caseIgnorableRanges.has c with
  | true => rw [casedNext, List.dropWhile_cons_of_pos hcounts, if_pos rfl, casedNext]
  | false =>
    rw [casedNext, List.dropWhile_cons_of_neg (by rw [hcounts]; exact Bool.false_ne_true)]
    exact (if_neg Bool.false_ne_true).symm

theorem casedNext_space (text : List Char) : casedNext (' ' :: text) = false := by
  have hcounts : caseIgnorableRanges.has ' ' = false := by decide +kernel
  have hcase : casedRanges.has ' ' = false := by decide +kernel
  rw [casedNext_cons, hcounts, hcase]
  rfl

/-- **A space ends the search for a cased character.** -/
theorem casedNext_append_space (left right : List Char) :
    casedNext (left ++ ' ' :: right) = casedNext left := by
  induction left with
  | nil => exact casedNext_space right
  | cons c left ih => rw [List.cons_append, casedNext_cons, casedNext_cons, ih]

theorem lowercaseAfter_congr {before before' : List Char}
    (h : casedNext before = casedNext before') (text : List Char) :
    lowercaseAfter before text = lowercaseAfter before' text := by
  induction text generalizing before before' with
  | nil => rfl
  | cons c rest ih =>
    have hnext : casedNext (c :: before) = casedNext (c :: before') := by
      rw [casedNext_cons, casedNext_cons, h]
    rw [lowercaseAfter, lowercaseAfter, h, ih hnext]

/-- After a space a text begins anew. -/
theorem lowercaseAfter_append_space (before left right : List Char) :
    lowercaseAfter before (left ++ ' ' :: right)
      = lowercaseAfter before left ++ ' ' :: lowercase right := by
  induction left generalizing before with
  | nil =>
    have hspace : lowercaseAfter before (' ' :: right)
        = ' ' :: lowercaseAfter (' ' :: before) right := rfl
    have hanew : casedNext (' ' :: before) = casedNext [] := casedNext_space before
    rw [List.nil_append, hspace, lowercaseAfter_congr hanew]
    rfl
  | cons c left ih =>
    rw [List.cons_append, lowercaseAfter, lowercaseAfter, ih, casedNext_append_space]
    exact (List.append_assoc _ _ _).symm

/-- **The parts of a text are taken in lower case one by one.** -/
theorem lowercase_append_space (left right : List Char) :
    lowercase (left ++ ' ' :: right) = lowercase left ++ ' ' :: lowercase right :=
  lowercaseAfter_append_space [] left right

end Text

end RecordQuery
