import Logicless.Text.Printable

/-!
# Quoted texts

A text is shown between quotes so that it can be told apart from its surroundings. Single quotes
are used, unless the text holds a single quote and no double quote. A backslash and the quote in
use are escaped by a backslash, line feed, carriage return and tab have short escapes, and any
other character that is not printable is written by its code point in lower-case hexadecimal: two
digits after `\x`, four after `\u`, or eight after `\U`, the shortest that fits.

## Shape of the module

* `quoteMark` chooses the quote.
* `escaped` writes one character, `quoted` a whole text.
-/

namespace Logicless.Text

/-- The quote around a text: single, unless the text holds single quotes and no double ones. -/
def quoteMark (cs : List Char) : Char :=
  if cs.contains '\'' && !cs.contains '"' then '"' else '\''

/-- A lower-case hexadecimal digit; `digit` is below sixteen. -/
def hexDigit (digit : Nat) : Char :=
  if digit < 10 then Char.ofNat ('0'.toNat + digit) else Char.ofNat ('a'.toNat + (digit - 10))

/-- The lowest `width` hexadecimal digits of a number, most significant first. -/
def hexDigits : (width : Nat) → (number : Nat) → List Char
  | 0, _ => []
  | width + 1, number => hexDigits width (number / 16) ++ [hexDigit (number % 16)]

/-- The escape of a character by its code point, in the shortest of the three widths. -/
def codePointEscape (codePoint : Nat) : List Char :=
  if codePoint < 0x100 then '\\' :: 'x' :: hexDigits 2 codePoint
  else if codePoint < 0x10000 then '\\' :: 'u' :: hexDigits 4 codePoint
  else '\\' :: 'U' :: hexDigits 8 codePoint

/-- How a character is written between quotes `mark`. -/
def escaped (mark c : Char) : List Char :=
  if c = '\\' || c = mark then ['\\', c]
  else if c = '\n' then ['\\', 'n']
  else if c = '\r' then ['\\', 'r']
  else if c = '\t' then ['\\', 't']
  else if isPrintable c then [c]
  else codePointEscape c.toNat

/-- A text between quotes, with its special characters escaped. -/
def quotedChars (cs : List Char) : List Char :=
  let mark := quoteMark cs
  mark :: cs.flatMap (escaped mark) ++ [mark]

/-- `quotedChars` on strings. -/
def quoted (s : String) : String :=
  String.ofList (quotedChars s.toList)

end Logicless.Text
