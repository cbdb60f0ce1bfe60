import RecordQuery.Fuzzy.Words
import RecordQuery.Similarity
import RecordQuery.Text.Lowercase

/-!
# Fuzzy text matching

How well a needle text matches a haystack text.

1. If case is to be ignored, both texts are taken in lower case.
2. If a word of the needle occurs verbatim in the haystack, the score is one. The first such word is
   set in bold in both texts.
3. Otherwise every word of the needle is compared with every word of the haystack. The best pair
   gives the score and is set in bold; of equally good pairs the first one wins, and if nothing is
   above zero nothing is bold.

The score is computed in a `Scale`: doubles when running, rationals when arguing.
-/

namespace RecordQuery

namespace Fuzzy

/-- How to match texts. -/
structure Options (S : Type) where
  /-- Whether texts are compared in lower case. -/
  ignoreCase : Bool
  /-- The length below which a word is dropped. -/
  minLength : Nat
  /-- The score from which on texts count as matching. -/
  limit : S
  deriving DecidableEq

/-- Ignore case, drop words below three characters, match from a score of `0.75` on. -/
def Options.standard {S : Type} [Scale S] : Options S := ⟨true, 3, 0.75⟩

/-- What matching a needle with a haystack found. -/
structure Outcome (S : Type) where
  /-- The score, from zero to one. -/
  score : S
  /-- The needle's words, the winning one in bold. -/
  needle : String
  /-- The haystack or its words, the winning part in bold. -/
  haystack : String

variable {S : Type}

/-! ### A verbatim hit -/

/-- The first word that occurs in a text, with its position and the text around it. -/
def firstHit? (text : List Char) (position : Nat) :
    List Word → Option (Nat × Word × List Char × List Char)
  | [] => none
  | word :: rest =>
    match Text.cut? word text with
    | some (before, after) => some (position, word, before, after)
    | none => firstHit? text (position + 1) rest

/-- The outcome if a word of the needle occurs verbatim in the haystack. -/
def verbatim? [Scale S] (needle : List Word) (haystack : List Char) : Option (Outcome S) :=
  (firstHit? haystack 0 needle).map fun (position, word, before, after) =>
    ⟨((1 : Nat) : S), String.ofList (annotate needle (some position)),
      String.ofList (before ++ bold word ++ after)⟩

/-! ### The best pair -/

/-- The best score so far, and the positions of the pair that reached it. -/
structure Best (S : Type) where
  /-- The best score. -/
  score : S
  /-- Positions in the needle and in the haystack, once a score is above zero. -/
  pair : Option (Nat × Nat)

/-- Takes a further pair into account. Only a better score replaces the best one. -/
def Best.consider [Scale S] (best : Best S) (left right : Word × Nat) : Best S :=
  let score := Similarity.jaroWinkler S left.1 right.1
  if best.score < score then ⟨score, some (left.2, right.2)⟩ else best

/-- The best of all pairs of words, taken in the order of the needle, then of the haystack. -/
def bestPair [Scale S] (needle haystack : List Word) : Best S :=
  needle.zipIdx.foldl
    (fun best left => haystack.zipIdx.foldl (fun best right => best.consider left right) best)
    ⟨((0 : Nat) : S), none⟩

/-- The outcome of comparing word with word. -/
def closest [Scale S] (needle haystack : List Word) : Outcome S :=
  let best : Best S := bestPair needle haystack
  ⟨best.score, String.ofList (annotate needle (best.pair.map Prod.fst)),
    String.ofList (annotate haystack (best.pair.map Prod.snd))⟩

/-! ### Matching -/

/-- A text as it is compared. -/
def Options.normalize (options : Options S) (text : String) : List Char :=
  if options.ignoreCase then Text.lowercase text.toList else text.toList

/-- What matching a needle with a haystack finds. -/
def Options.evaluate [Scale S] (options : Options S) (needle haystack : String) : Outcome S :=
  let text := options.normalize haystack
  let asked := words options.minLength (options.normalize needle)
  match verbatim? asked text with
  | some outcome => outcome
  | none => closest asked (words options.minLength text)

/-- Whether a text matches the reference well enough. The empty text matches nothing. -/
def Options.accepts [Scale S] (options : Options S) (reference text : String) : Bool :=
  !text.isEmpty && decide (options.limit ≤ (options.evaluate reference text).score)

end Fuzzy

end RecordQuery
