import RecordQuery.Text.CaseTable

/-!
# Lower case

The full lower case of a text. Most characters have a lower case of their own, found in a table.
Two do not fit it: the capital I with a dot becomes two characters, and the capital sigma depends
on its place. At the end of a word it becomes `ς`, elsewhere `σ`; a sigma ends a word if the
nearest character before it that counts has case and the nearest one after it has none.
-/

namespace RecordQuery

namespace Text

/-- The capital sigma. -/
def capitalSigma : Char := 'Σ'

/-- Lower case of the capital I with a dot above: an `i` and a combining dot. -/
def dottedI : List Char := ['i', Char.ofNat 0x307]

/-- The code point that a table of runs assigns to `code`, if it has one. -/
def shifted? (runs : List (Nat × Nat × Nat × Int)) (code : Nat) : Option Nat :=
  (runs.find? fun (first, last, step, _) =>
    first ≤ code && code ≤ last && (code - first) % step == 0).map
    fun (_, _, _, shift) => (code + shift).toNat

/-- The lower case of a character by itself. -/
def lowercaseChar (c : Char) : List Char :=
  if c.toNat < 0x80 then [c.toLower]
  else if c = 'İ' then dottedI
  else
    match shifted? lowercaseRuns c.toNat with
    | some code => [Char.ofNat code]
    | none => [c]

/-- Whether the nearest character that counts has case. -/
def casedNext (text : List Char) : Bool :=
  match text.dropWhile caseIgnorableRanges.has with
  | [] => false
  | c :: _ => casedRanges.has c

/-- The lower case of a text that follows `before`, whose characters are in reverse order. -/
def lowercaseAfter (before : List Char) : List Char → List Char
  | [] => []
  | c :: rest =>
    let lower :=
      if c = capitalSigma then [if casedNext before && !casedNext rest then 'ς' else 'σ']
      else lowercaseChar c
    lower ++ lowercaseAfter (c :: before) rest

/-- The lower case of a text. -/
def lowercase (text : List Char) : List Char := lowercaseAfter [] text

end Text

end RecordQuery
