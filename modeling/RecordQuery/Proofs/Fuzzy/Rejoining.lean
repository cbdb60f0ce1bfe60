import RecordQuery.Fuzzy
import RecordQuery.Proofs.Fuzzy.Words
import RecordQuery.Proofs.Text.Settled

/-!
# Words, joined and cut again

The words of a text, joined by single spaces, are found again: they have no spaces, they lose no
characters to a second stripping, and they stay as long as they are. Only the empty text is odd,
since it has one piece. It is what no words are joined to, and its piece counts as a word if words
of no length do; but then there is no text without words.

A needle matters through its words only, so they can take its place. If case is to be ignored, that
is so of the words of its lower case: these are in lower case already, and so is the text that they
are joined to. A needle that is not in lower case may have fewer words than its lower case has. The
Kelvin sign is no character that counts, and its lower case is the letter `k`.

## Two ways to prepare a needle

A needle is taken in lower case first, if case does not count, and cut into words then. To replace
it by its words means to do this a second time, on the words of the first. The second cutting
changes nothing, because words are found again. The second lower case changes nothing either: the
characters of a text in lower case are settled, each by itself, and so they are in any other text
that they are put together to. A space is settled as well. This is where the words of the *lower
case* are needed and not those of the needle.

## The empty word

For words of no length, every text has a word, if need be the empty one. So `words_join` must
exclude that no words are joined under such a length, and `Fuzzy.words_zero_ne_nil` shows that this
does not happen for the words of a text.

## Main definitions

* `Fuzzy.rejoined` — the words of a text, joined by single spaces

## Main results

* `Fuzzy.words_join` — words are found again in the text that joins them
* `Fuzzy.Options.normalize_rejoined` — the words of a lower case, joined, are in lower case
* `Fuzzy.Options.rejoined_agrees` — words are stable under joining, and can replace the needle
-/

namespace RecordQuery

namespace Text

theorem eq_or_mem_of_mem_join {separator c : Char} {pieces : List (List Char)}
    (h : c ∈ join separator pieces) : c = separator ∨ ∃ piece ∈ pieces, c ∈ piece := by
  induction pieces with
  | nil => cases h
  | cons piece pieces ih =>
    cases pieces with
    | nil => exact .inr ⟨piece, List.mem_cons_self, h⟩
    | cons next pieces =>
      rw [join, List.mem_append, List.mem_cons] at h
      rcases h with hpiece | hseparator | hrest
      · exact .inr ⟨piece, List.mem_cons_self, hpiece⟩
      · exact .inl hseparator
      · rcases ih hrest with hseparator | ⟨other, hother, hc⟩
        · exact .inl hseparator
        · exact .inr ⟨other, List.mem_cons_of_mem _ hother, hc⟩

end Text

namespace Fuzzy

/-! ### Words, found again -/

theorem isWordChar_iff {c : Char} : isWordChar c = true ↔
    'A' ≤ c ∧ c ≤ 'Z' ∨ 'a' ≤ c ∧ c ≤ 'z' ∨ '0' ≤ c ∧ c ≤ '9' ∨ c = '_' := by
  have hupper : c.isUpper = true ↔ 'A' ≤ c ∧ c ≤ 'Z' := decide_eq_true_iff
  have hlower : c.isLower = true ↔ 'a' ≤ c ∧ c ≤ 'z' :=
    (Bool.and_eq_true_iff).trans (and_congr decide_eq_true_iff decide_eq_true_iff)
  have hdigit : c.isDigit = true ↔ '0' ≤ c ∧ c ≤ '9' :=
    (Bool.and_eq_true_iff).trans (and_congr decide_eq_true_iff decide_eq_true_iff)
  have hchar : isWordChar c = (((c.isUpper || c.isLower) || c.isDigit) || c == '_') := rfl
  simp only [hchar, Bool.or_eq_true, hupper, hlower, hdigit, beq_iff_eq, or_assoc]

/-- **Words are found again in the text that joins them.** No words are joined to the empty text,
which has none unless the empty word is one. -/
theorem words_join {minLength : Nat} {list : List Word} (h : ∀ word ∈ list, IsWord minLength word)
    (hnone : list = [] → minLength ≠ 0) : words minLength (Text.join ' ' list) = list := by
  by_cases hnil : list = []
  · subst hnil
    have hlong : ¬ minLength ≤ 0 := Nat.not_le.mpr (Nat.pos_of_ne_zero (hnone rfl))
    simp [words, Text.join, hlong]
  · have hstrip : list.map (·.filter isWordChar) = list :=
      (List.map_congr_left fun word hword => List.filter_eq_self.mpr (h word hword).chars).trans
        (List.map_id list)
    rw [words, Text.split_join hnil fun word hword => (h word hword).notMem (by decide), hstrip,
      List.filter_eq_self]
    exact fun word hword => decide_eq_true (h word hword).length

theorem words_zero_ne_nil (text : List Char) : words 0 text ≠ [] := by
  have hall : words 0 text = (Text.split ' ' text).map (·.filter isWordChar) :=
    List.filter_eq_self.mpr fun _ _ => decide_eq_true (Nat.zero_le _)
  rw [hall, Ne, List.map_eq_nil_iff]
  exact Text.split_ne_nil ' ' text

/-- The words of a text, joined by single spaces. -/
def rejoined (minLength : Nat) (text : List Char) : List Char :=
  Text.join ' ' (words minLength text)

/-- **The words of a text are found again.** -/
theorem words_rejoined (minLength : Nat) (text : List Char) :
    words minLength (rejoined minLength text) = words minLength text := by
  refine words_join (fun _ => isWord_of_mem_words) ?_
  rintro hnone rfl
  exact words_zero_ne_nil text hnone

/-- Besides spaces, the joined words have characters of the text. -/
theorem eq_or_mem_of_mem_rejoined {minLength : Nat} {text : List Char} {c : Char}
    (h : c ∈ rejoined minLength text) : c = ' ' ∨ c ∈ text := by
  rcases Text.eq_or_mem_of_mem_join h with hspace | ⟨word, hword, hc⟩
  · exact .inl hspace
  · exact .inr ((sublist_of_mem_words hword).subset hc)

/-! ### The needle -/

theorem lowercase_rejoined (minLength : Nat) (text : List Char) :
    Text.lowercase (rejoined minLength (Text.lowercase text))
      = rejoined minLength (Text.lowercase text) := by
  refine Text.lowercase_of_settled fun c hc => ?_
  rcases eq_or_mem_of_mem_rejoined hc with rfl | hc
  · decide
  · exact Text.settled_of_mem_lowercase hc

namespace Options

variable {S : Type} (options : Options S)

/-- The words that a needle is compared by, joined, are compared as they are. -/
theorem normalize_rejoined (needle : String) :
    options.normalize (String.ofList (rejoined options.minLength (options.normalize needle)))
      = rejoined options.minLength (options.normalize needle) := by
  simp only [normalize, String.toList_ofList]
  split
  · exact lowercase_rejoined _ _
  · rfl

/-- A needle is compared as it is if case counts, or if it is in lower case. -/
theorem normalize_of_lowercase {needle : String}
    (h : options.ignoreCase = false ∨ ∃ text, needle.toList = Text.lowercase text) :
    options.normalize needle = needle.toList := by
  rw [normalize]
  split
  · next hignore =>
    rcases h with hcase | ⟨text, htext⟩
    · rw [hcase] at hignore
      cases hignore
    · rw [htext, Text.lowercase_lowercase]
  · rfl

variable [Scale S]

theorem evaluate_congr {needle needle' : String}
    (h : words options.minLength (options.normalize needle)
      = words options.minLength (options.normalize needle')) (haystack : String) :
    options.evaluate needle haystack = options.evaluate needle' haystack := by
  rw [evaluate, evaluate, h]

theorem evaluate_rejoined (needle haystack : String) :
    options.evaluate (String.ofList (rejoined options.minLength (options.normalize needle)))
        haystack
      = options.evaluate needle haystack := by
  refine options.evaluate_congr ?_ haystack
  rw [normalize_rejoined, words_rejoined]

/-- **Words are stable under joining.** A word consists of ASCII letters, digits and underscores,
and is long enough. A text that is joined of two by a space has the words of the first, then those
of the second. The words of a text, joined by single spaces, have the same words, also where there
are none. So a needle that is in lower case already, or whose case counts, can be replaced by its
joined words: the score and both annotated texts stay. -/
theorem rejoined_agrees :
    (∀ minLength text, ∀ word ∈ words minLength text,
        (∀ c ∈ word, 'A' ≤ c ∧ c ≤ 'Z' ∨ 'a' ≤ c ∧ c ≤ 'z' ∨ '0' ≤ c ∧ c ≤ '9' ∨ c = '_')
          ∧ minLength ≤ word.length)
      ∧ (∀ minLength left right,
        words minLength (left ++ ' ' :: right) = words minLength left ++ words minLength right)
      ∧ (∀ minLength text, words minLength (rejoined minLength text) = words minLength text)
      ∧ ∀ needle haystack : String,
        (options.ignoreCase = false ∨ ∃ text, needle.toList = Text.lowercase text) →
          options.evaluate (String.ofList (rejoined options.minLength needle.toList)) haystack
            = options.evaluate needle haystack := by
  refine ⟨fun minLength text word hword => ?_, words_append_space, words_rejoined,
    fun needle haystack h => ?_⟩
  · obtain ⟨hchars, hlength⟩ := isWord_of_mem_words hword
    exact ⟨fun c hc => isWordChar_iff.mp (hchars c hc), hlength⟩
  · have hneedle := options.evaluate_rejoined needle haystack
    rwa [options.normalize_of_lowercase h] at hneedle

/-- Punctuation and short words make no difference to a needle in lower case. -/
theorem rejoined_agrees_punctuated :
    let options : Options Rat := .standard
    "world".toList ∈ words options.minLength "wor-ld, ok!".toList
      ∧ options.minLength ≤ "world".toList.length
      ∧ "wor-ld, ok!".toList = Text.lowercase "WOR-LD, OK!".toList
      ∧ options.evaluate "world" "The World" = options.evaluate "wor-ld, ok!" "The World" := by
  intro options
  have hwords : words options.minLength "wor-ld, ok!".toList = ["world".toList] := by
    decide +kernel
  have hlower : "wor-ld, ok!".toList = Text.lowercase "WOR-LD, OK!".toList := by decide +kernel
  have hmem : "world".toList ∈ words options.minLength "wor-ld, ok!".toList := by
    rw [hwords]
    exact List.mem_singleton_self _
  have hneedle : "world" = String.ofList (rejoined options.minLength "wor-ld, ok!".toList) := by
    rw [rejoined, hwords]
    exact String.ofList_toList.symm
  obtain ⟨hword, -, -, hagree⟩ := options.rejoined_agrees
  refine ⟨hmem, (hword _ _ _ hmem).2, hlower, ?_⟩
  rw [hneedle]
  exact hagree "wor-ld, ok!" "The World" (.inr ⟨_, hlower⟩)

-- Kelvin signs make no word, but their lower case does: a needle has to be in lower case already
example :
    let signs := List.replicate 3 (Char.ofNat 0x212A)
    words 3 signs = [] ∧ words 3 (Text.lowercase signs) = ["kkk".toList] := by
  decide +kernel

end Options

end Fuzzy

end RecordQuery
