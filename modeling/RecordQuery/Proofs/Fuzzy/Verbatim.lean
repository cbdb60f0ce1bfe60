import RecordQuery.Fuzzy
import RecordQuery.Proofs.Fuzzy.Annotation
import RecordQuery.Proofs.Text.Bytes

/-!
# Verbatim hits

If a word of the needle occurs in the haystack, nothing is compared. The first such word, in the
order of the needle, is in bold in both texts: among the words of the needle at its position, and in
the haystack at its leftmost occurrence. The rest of the haystack stays as it is, punctuation and
short pieces included, so the haystack has to be sliced around the word. Offsets into it count
bytes, and characters may have several; the slices fall between characters all the same.

The empty word, which is one if no length is asked for, occurs at the start of every text.

## First and leftmost

Two choices are made in a hit, and they are of different kinds. Which *word* is taken goes by its
position in the needle, and a word that occurs further to the left in the haystack does not matter.
Where the word is marked goes by the haystack: the text before the occurrence is the shortest that
there is. `IsFirstHit` has both, so it leaves no freedom, neither for a repeated word nor for one
that occurs repeatedly or overlaps with itself.

## Offsets

The bytes of a text are those of its characters, one after the other. Cutting a list of characters
therefore cuts its bytes between characters, and the offset of an occurrence is the number of bytes
of the text before it. The text before a later occurrence begins with the text before an earlier
one, and so has no fewer bytes: the leftmost occurrence has the least offset.

## Main definitions

* `Fuzzy.IsFirstHit` — the first word that occurs, with the shortest text before it

## Main results

* `Fuzzy.isFirstHit_of_firstHit?` — the search by words finds the first hit
* `Fuzzy.Options.verbatim_hit` — the outcome of a hit, and that there is none without a hit
-/

namespace RecordQuery

namespace Fuzzy

variable {S : Type} [Scale S]

/-! ### The first hit -/

/-- The word at the position is the first one that occurs in the text, and no text before an
occurrence of it is shorter. -/
structure IsFirstHit (asked : List Word) (text : List Char) (i : Nat) (word : Word)
    (before after : List Char) : Prop where
  /-- The word stands at the position. -/
  word_eq : asked[i]? = some word
  /-- No word before it occurs. -/
  first : ∀ j other, j < i → asked[j]? = some other → ¬ other <:+: text
  /-- The word occurs between the two texts. -/
  split : text = before ++ word ++ after
  /-- It does not occur further to the left. -/
  shortest : ∀ before' after', text = before' ++ word ++ after' → before.length ≤ before'.length

/-- The search stops at the first word that occurs. -/
theorem firstHit?_eq_some {text : List Char} {position i : Nat} {asked : List Word} {word : Word}
    {before after : List Char}
    (h : firstHit? text position asked = some (i, word, before, after)) :
    ∃ n, i = position + n ∧ asked[n]? = some word ∧ Text.cut? word text = some (before, after)
      ∧ ∀ j other, j < n → asked[j]? = some other → ¬ other <:+: text := by
  induction asked generalizing position with
  | nil => cases h
  | cons first rest ih =>
    rw [firstHit?] at h
    split at h
    · next front back hcut =>
      cases h
      exact ⟨0, rfl, rfl, hcut, fun j _ hj => absurd hj (Nat.not_lt_zero j)⟩
    · next hmiss =>
      obtain ⟨n, rfl, hword, hcut, hfirst⟩ := ih h
      refine ⟨n + 1, by omega, hword, hcut, fun j other hj hother => ?_⟩
      cases j with
      | zero =>
        obtain rfl := Option.some.inj hother
        exact Text.cut?_eq_none_iff.mp hmiss
      | succ j => exact hfirst j other (Nat.lt_of_succ_lt_succ hj) hother

/-- **The search by words finds the first hit.** -/
theorem isFirstHit_of_firstHit? {text : List Char} {i : Nat} {asked : List Word} {word : Word}
    {before after : List Char} (h : firstHit? text 0 asked = some (i, word, before, after)) :
    IsFirstHit asked text i word before after := by
  obtain ⟨n, rfl, hword, hcut, hfirst⟩ := firstHit?_eq_some h
  rw [Nat.zero_add]
  exact ⟨hword, hfirst, Text.eq_of_cut? hcut, fun _ _ => Text.length_le_of_cut? hcut⟩

theorem firstHit?_eq_none_iff {text : List Char} {position : Nat} {words : List Word} :
    firstHit? text position words = none ↔ ∀ word ∈ words, ¬ word <:+: text := by
  induction words generalizing position with
  | nil => simp [firstHit?]
  | cons word rest ih =>
    rw [firstHit?, List.forall_mem_cons, ← Text.cut?_eq_none_iff]
    cases Text.cut? word text with
    | none => exact ih.trans (and_iff_right rfl).symm
    | some around => simp

theorem verbatim?_eq_none_iff {needle : List Word} {haystack : List Char} :
    (verbatim? needle haystack : Option (Outcome S)) = none
      ↔ ∀ word ∈ needle, ¬ word <:+: haystack := by
  rw [verbatim?, Option.map_eq_none_iff, firstHit?_eq_none_iff]

theorem exists_firstHit? {text : List Char} {asked : List Word}
    (h : ∃ word ∈ asked, word <:+: text) :
    ∃ i word before after, firstHit? text 0 asked = some (i, word, before, after) := by
  have hhit : firstHit? text 0 asked ≠ none := by
    rw [Ne, firstHit?_eq_none_iff]
    push Not
    exact h
  obtain ⟨⟨i, word, before, after⟩, hhit⟩ := Option.ne_none_iff_exists'.mp hhit
  exact ⟨i, word, before, after, hhit⟩

/-! ### The outcome -/

namespace Options

variable {options : Options S} {needle haystack : String}

/-- Without a hit, words are compared with words. -/
theorem evaluate_of_miss
    (hmiss : ∀ word ∈ words options.minLength (options.normalize needle),
      ¬ word <:+: options.normalize haystack) :
    options.evaluate needle haystack
      = closest (words options.minLength (options.normalize needle))
        (words options.minLength (options.normalize haystack)) := by
  rw [evaluate, verbatim?_eq_none_iff.mpr hmiss]

/-- The text of a word in bold. -/
theorem ofList_bold (word : Word) :
    String.ofList (bold word) = "<b>" ++ String.ofList word ++ "</b>" :=
  String.toList_inj.mp (by simp [bold])

/-- A hit decides the outcome. -/
theorem evaluate_of_firstHit? {i : Nat} {word : Word} {before after : List Char}
    (h : firstHit? (options.normalize haystack) 0
      (words options.minLength (options.normalize needle)) = some (i, word, before, after)) :
    options.evaluate needle haystack = ⟨((1 : Nat) : S),
      String.ofList (annotate (words options.minLength (options.normalize needle)) (some i)),
      String.ofList (before ++ bold word ++ after)⟩ := by
  rw [evaluate, verbatim?, h, Option.map_some]

/-- A hit scores one. -/
theorem score_of_hit (hhit : ∃ word ∈ words options.minLength (options.normalize needle),
      word <:+: options.normalize haystack) :
    (options.evaluate needle haystack).score = ((1 : Nat) : S) := by
  obtain ⟨i, word, before, after, hfirst⟩ := exists_firstHit? hhit
  rw [evaluate_of_firstHit? hfirst]

/-- **A verbatim hit is found and set in bold.** If some word of the needle occurs in the haystack,
then the score is one. The first such word is in bold at its position among the words of the needle,
and at its leftmost occurrence in the haystack, whose other parts stay. The bytes of the occurrence
have the least offset that they could have, and begin and end at positions of the string. If no word
of the needle occurs, words are compared with words. -/
theorem verbatim_hit (options : Options S) (needle haystack : String) :
    let asked := words options.minLength (options.normalize needle)
    let text := options.normalize haystack
    ((∃ word ∈ asked, word <:+: text) → ∃ i word before after,
        IsFirstHit asked text i word before after
          ∧ options.evaluate needle haystack = ⟨((1 : Nat) : S),
            String.ofList (Text.join ' ' (asked.set i (bold word))),
            String.ofList before ++ "<b>" ++ String.ofList word ++ "</b>" ++ String.ofList after⟩
          ∧ ∃ start stop : (String.ofList text).Pos,
            start.Splits (String.ofList before) (String.ofList (word ++ after))
              ∧ stop.Splits (String.ofList (before ++ word)) (String.ofList after)
              ∧ IsLeast {offset | Text.OccursAt word text offset} start.offset.byteIdx
              ∧ stop.offset.byteIdx = start.offset.byteIdx + (String.ofList word).utf8ByteSize)
      ∧ ((∀ word ∈ asked, ¬ word <:+: text) → options.evaluate needle haystack
        = closest asked (words options.minLength text)) := by
  intro asked text
  refine ⟨fun hsome => ?_, evaluate_of_miss⟩
  obtain ⟨i, word, before, after, hhit⟩ := exists_firstHit? hsome
  have hfirst := isFirstHit_of_firstHit? hhit
  obtain ⟨_, -, -, hcut, -⟩ := firstHit?_eq_some hhit
  obtain ⟨start, hstart, hoffset⟩ := Text.exists_pos_splits
    (hfirst.split.trans (List.append_assoc before word after))
  obtain ⟨stop, hstop, hoffset'⟩ := Text.exists_pos_splits hfirst.split
  refine ⟨i, word, before, after, hfirst, ?_, start, stop, hstart, hstop, ?_, ?_⟩
  · rw [evaluate_of_firstHit? hhit, annotate_some hfirst.word_eq, String.ofList_append,
      String.ofList_append, ofList_bold, ← String.append_assoc, ← String.append_assoc]
  · rw [hoffset]
    exact Text.isLeast_occursAt_of_cut? hcut
  · rw [hoffset', hoffset, Text.utf8ByteSize_ofList, Text.bytes_append, List.length_append]

/-- Of a repeated word only the first one is in bold, behind characters of several bytes. -/
theorem verbatim_hit_repeated_word :
    let options : Options Binary64 := ⟨false, 3, 0.75⟩
    let asked : List Word := ["abc".toList, "rest".toList, "rest".toList]
    let text := "für (rest) arrest".toList
    (∃ word ∈ asked, word <:+: text)
      ∧ ∃ i word before after, IsFirstHit asked text i word before after
        ∧ options.evaluate "abc rest rest" "für (rest) arrest" = ⟨((1 : Nat) : Binary64),
          String.ofList (Text.join ' ' (asked.set i (bold word))), String.ofList before ++ "<b>"
            ++ String.ofList word ++ "</b>" ++ String.ofList after⟩ := by
  intro options asked text
  have hsome : ∃ word ∈ asked, word <:+: text := by decide +kernel
  have hasked : words options.minLength (options.normalize "abc rest rest") = asked := by
    decide +kernel
  obtain ⟨hhit, -⟩ := verbatim_hit options "abc rest rest" "für (rest) arrest"
  rw [hasked] at hhit
  obtain ⟨i, word, before, after, hfirst, houtcome, -⟩ := hhit hsome
  exact ⟨hsome, i, word, before, after, hfirst, houtcome⟩

end Options

end Fuzzy

end RecordQuery
