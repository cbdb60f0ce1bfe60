import RecordQuery.Text.VisibleTable

/-!
# Quoted text

A text between double quotes. Quotes and backslashes are escaped, four controls have names, and
every other character that does not show by itself is written as its code point.
-/

namespace RecordQuery

namespace Text

/-- The code point of a character in hexadecimal, as an escape. -/
def codeEscape (c : Char) : List Char :=
  '\\' :: 'u' :: '\x7b' :: (Nat.toDigits 16 c.toNat ++ ['\x7d'])

/-- A character as it stands in quoted text. -/
def quotedChar (c : Char) : List Char :=
  match c with
  | '\x00' => ['\\', '0']
  | '\t' => ['\\', 't']
  | '\r' => ['\\', 'r']
  | '\n' => ['\\', 'n']
  | '\\' => ['\\', '\\']
  | '\x22' => ['\\', c]
  | _ => if visibleRanges.has c then [c] else codeEscape c

/-- A text between double quotes. -/
def quoted (text : String) : String :=
  String.ofList ('\x22' :: (text.toList.flatMap quotedChar ++ ['\x22']))

end Text

end RecordQuery
