/-!
# Decimal numerals

Reading natural numbers from ASCII digits. Positions in sequences are words of 64 bits: a numeral
that does not fit is no position.
-/

namespace RecordQuery

namespace Text

/-- The number of positions that a sequence can have. -/
def positionBound : Nat := Nat.pow 2 64

/-- The value of a digit. -/
def digitValue (c : Char) : Nat := c.toNat - '0'.toNat

/-- The value of a run of digits, the most significant first. -/
def digitsValue (digits : List Char) : Nat :=
  digits.foldl (fun value c => 10 * value + digitValue c) 0

/-- Whether a text is a numeral: one or more ASCII digits. -/
def isNumeral (text : List Char) : Bool := !text.isEmpty && text.all Char.isDigit

/-- The text without the plus sign in front of it, if there is one. -/
def unsigned : List Char → List Char
  | '+' :: rest => rest
  | text => text

/-- The position that a text names: a numeral, with or without a plus sign, that fits. -/
def position? (text : List Char) : Option Nat :=
  let digits := unsigned text
  if isNumeral digits && digitsValue digits < positionBound then some (digitsValue digits)
  else none

theorem unsigned_of_head? {text : List Char} (h : text.head? ≠ some '+') :
    unsigned text = text := by
  unfold unsigned
  split
  · exact absurd rfl h
  · rfl

end Text

end RecordQuery
