import RecordQuery.Text.Split

/-!
# Words of a text

A text is cut at single spaces. Of each piece the ASCII letters, digits and underscores stay; what
is left counts as a word if it is long enough.
-/

namespace RecordQuery

namespace Fuzzy

/-- A piece of text, stripped to the characters that count. -/
abbrev Word := List Char

/-- The characters of a piece that count. -/
def isWordChar (c : Char) : Bool := c.isAlphanum || c == '_'

/-- The words of a text that have at least `minLength` characters. -/
def words (minLength : Nat) (text : List Char) : List Word :=
  ((Text.split ' ' text).map (·.filter isWordChar)).filter (minLength ≤ ·.length)

/-- A word set in bold. -/
def bold (word : Word) : List Char := "<b>".toList ++ word ++ "</b>".toList

/-- The words between single spaces, the one at the chosen position in bold. -/
def annotate (words : List Word) (chosen : Option Nat) : List Char :=
  Text.join ' ' (words.zipIdx.map fun (word, i) => if chosen = some i then bold word else word)

end Fuzzy

end RecordQuery
