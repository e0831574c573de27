/-!
# Blank characters

The characters that separate nothing and name nothing inside a tag: the code points with the
Unicode white space property together with the four information separators `U+001C`–`U+001F`.

## Shape of the module

* `isBlank` decides the class by a table of code point ranges.
* `trim` drops the blank characters at both ends of a text and keeps those inside.
-/

namespace Logicless.Text

/-- The ranges of blank code points, both ends included, in increasing order. -/
def blankRanges : List (Nat × Nat) :=
  [(0x09, 0x0D), (0x1C, 0x20), (0x85, 0x85), (0xA0, 0xA0), (0x1680, 0x1680), (0x2000, 0x200A),
   (0x2028, 0x2029), (0x202F, 0x202F), (0x205F, 0x205F), (0x3000, 0x3000)]

/-- Membership of a code point in a table of ranges, both ends of a range included. -/
def inRanges (ranges : List (Nat × Nat)) (codePoint : Nat) : Bool :=
  ranges.any fun range => range.1 ≤ codePoint && codePoint ≤ range.2

/-- A character is blank when its code point lies in one of `blankRanges`. -/
def isBlank (c : Char) : Bool :=
  inRanges blankRanges c.toNat

/-- The blank characters at the start of a text are dropped. -/
def trimStart (cs : List Char) : List Char :=
  cs.dropWhile isBlank

/-- The blank characters at the end of a text are dropped. -/
def trimEnd (cs : List Char) : List Char :=
  (cs.reverse.dropWhile isBlank).reverse

/-- The blank characters at both ends of a text are dropped; those inside stay. -/
def trim (cs : List Char) : List Char :=
  trimEnd (trimStart cs)

/-- `trim` on strings. -/
def trimmed (s : String) : String :=
  String.ofList (trim s.toList)

end Logicless.Text
