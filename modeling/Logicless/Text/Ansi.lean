/-!
# Terminal styles

A styled text stands between a sequence of select-graphic-rendition escapes and a reset. Styled
text can be stripped of all escape sequences again: two-character ones, and control sequences,
which are made of an introducer, parameter characters, intermediate characters and a final
character.

## Shape of the module

* `Style` names the styles; `paint` applies several at once.
* `escapeRest?` recognizes an escape sequence and returns the text behind it; `stripEscapes`
  removes all of them in one pass from left to right.
-/

namespace Logicless.Text

/-- The styles that diagnostics use. -/
inductive Style where
  | bold
  | dim
  | cyan
  | brightRed
  | brightBlue
deriving DecidableEq, Repr

/-- The escape character. -/
def escape : Char :=
  '\x1b'

/-- The select-graphic-rendition sequence with one parameter. -/
def selectRendition (parameter : String) : String :=
  String.singleton escape ++ "[" ++ parameter ++ "m"

/-- The sequence that turns a style on. -/
def Style.sequence : Style → String
  | bold => selectRendition "1"
  | dim => selectRendition "2"
  | cyan => selectRendition "36"
  | brightRed => selectRendition "91"
  | brightBlue => selectRendition "94"

/-- The names that styles are asked for by. -/
def Style.named? : String → Option Style
  | "bold" => some bold
  | "dim" => some dim
  | "cyan" => some cyan
  | "bright_red" => some brightRed
  | "bright_blue" => some brightBlue
  | _ => none

/-- The sequence that turns all styles off. -/
def resetSequence : String :=
  selectRendition "0"

/-- A text between the sequences of some styles and a reset. It is unchanged when colours are off
or no style is given. -/
def paint (colours : Bool) (styles : List Style) (text : String) : String :=
  if colours && !styles.isEmpty then
    String.join (styles.map Style.sequence) ++ text ++ resetSequence
  else text

/-! ## Removing escape sequences -/

/-- Membership of a character in a range of characters, both ends included. -/
def within (low high c : Char) : Bool :=
  low ≤ c && c ≤ high

/-- The characters that complete a two-character escape sequence: all from `@` to `_` but the
introducer of control sequences. -/
def isEscapeFinal (c : Char) : Bool :=
  within '@' '_' c && c ≠ '['

/-- The text behind a control sequence, from behind its introducer on: any parameter characters,
any intermediate characters, and one final character. -/
def controlRest? (cs : List Char) : Option (List Char) :=
  match (cs.dropWhile (within '0' '?')).dropWhile (within ' ' '/') with
  | c :: rest => if within '@' '~' c then some rest else none
  | [] => none

/-- The text behind an escape sequence, from behind the escape character on. -/
def escapeRest? : List Char → Option (List Char)
  | [] => none
  | c :: rest => if c = '[' then controlRest? rest else if isEscapeFinal c then some rest else none

/-- What stands behind a control sequence is shorter than the text with the sequence. -/
theorem length_controlRest?_lt {cs rest : List Char} (h : controlRest? cs = some rest) :
    rest.length < cs.length := by
  unfold controlRest? at h
  have intermediates :=
    (List.dropWhile_sublist (within ' ' '/') (l := cs.dropWhile (within '0' '?'))).length_le
  have parameters := (List.dropWhile_sublist (within '0' '?') (l := cs)).length_le
  split at h
  · rename_i c behind heq
    rw [heq, List.length_cons] at intermediates
    split at h
    · cases h
      omega
    · contradiction
  · contradiction

/-- What stands behind an escape sequence is shorter than the text with the sequence. -/
theorem length_escapeRest?_lt {cs rest : List Char} (h : escapeRest? cs = some rest) :
    rest.length < cs.length := by
  unfold escapeRest? at h
  split at h
  · contradiction
  · rename_i c behind
    split at h
    · exact Nat.lt_succ_of_lt (length_controlRest?_lt h)
    · split at h
      · cases h
        exact Nat.lt_succ_self _
      · contradiction

/-- A text without escape sequences, removed in one pass from left to right. An escape character
that starts no sequence stays. -/
def stripEscapesChars : List Char → List Char
  | [] => []
  | c :: cs =>
    if c = escape then
      match _h : escapeRest? cs with
      | some rest => stripEscapesChars rest
      | none => c :: stripEscapesChars cs
    else c :: stripEscapesChars cs
termination_by cs => cs.length
decreasing_by
  · exact Nat.lt_succ_of_lt (length_escapeRest?_lt _h)
  · exact Nat.lt_succ_self _
  · exact Nat.lt_succ_self _

/-- `stripEscapesChars` on strings. -/
def stripEscapes (text : String) : String :=
  String.ofList (stripEscapesChars text.toList)

end Logicless.Text
