/-!
# Resemblance of texts

How alike two texts are is measured by the characters they have in common in order: the longest
common run is found, then the longest common runs to its left and to its right, and so on. The
resemblance is twice the number of characters found over the number of characters of both texts.

A run is found through characters that are not too frequent in the second text. If that text has
two hundred characters or more, a character is too frequent when it makes up more than one in a
hundred of them, plus one; such characters only prolong a run.

## Shape of the module

* `longestRun` finds the first longest common run of two texts and `prolonged` extends it.
* `commonCharacters` counts the characters of all runs.
* `closest?` picks the candidate most alike to a word, if one is alike enough.
-/

namespace Logicless.Text

/-- A character of the second text, and whether runs may be found through it. -/
structure Anchor where
  /-- The character. -/
  char : Char
  /-- Runs are found through characters that are not too frequent. -/
  rare : Bool
deriving DecidableEq, Repr

/-- The characters of a text, each with its mark. Texts below two hundred characters have no
character that is too frequent. -/
def anchors (text : List Char) : List Anchor :=
  let size := text.length
  text.map fun c => ⟨c, size < 200 || text.count c ≤ size / 100 + 1⟩

/-- A common run of two texts: where it starts in either and how long it is. -/
structure Run where
  /-- Position in the first text. -/
  left : Nat
  /-- Position in the second text. -/
  right : Nat
  /-- Number of characters. -/
  size : Nat
deriving DecidableEq, Repr

/-- For each position of the second text, the length of the common run that ends there and at the
character `c` of the first text, given these lengths for the character in front of `c`. -/
def runLengths (c : Char) (lengths : List Nat) (second : List Anchor) : List Nat :=
  List.zipWith (fun diagonal anchor => if anchor.rare && anchor.char = c then diagonal + 1 else 0)
    (0 :: lengths) second

/-- The best of a run and those that end at the positions from `column` on of a row of
`runLengths`; only a longer run replaces the best. -/
def betterRun (row : Nat) (column : Nat) (best : Run) : List Nat → Run
  | [] => best
  | length :: lengths =>
    betterRun row (column + 1)
      (if best.size < length then ⟨row + 1 - length, column + 1 - length, length⟩ else best) lengths

/-- The first longest common run of the rest of the first text with the second, given the best run
and the run lengths up to that rest. -/
def longestRunFrom (row : Nat) (lengths : List Nat) (best : Run) :
    List Char → List Anchor → Run
  | [], _ => best
  | c :: cs, second =>
    let lengths := runLengths c lengths second
    longestRunFrom (row + 1) lengths (betterRun row 0 best lengths) cs second

/-- The number of characters that two texts have in common at their start. -/
def commonStart : List Char → List Char → Nat
  | c :: cs, d :: ds => if c = d then commonStart cs ds + 1 else 0
  | _, _ => 0

/-- The longest extension of a run to both sides. -/
def prolonged (first second : List Char) (run : Run) : Run :=
  let before := commonStart (first.take run.left).reverse (second.take run.right).reverse
  let after := commonStart (first.drop (run.left + run.size)) (second.drop (run.right + run.size))
  ⟨run.left - before, run.right - before, before + run.size + after⟩

/-- The first longest common run of two texts, prolonged through frequent characters. -/
def longestRun (first : List Char) (second : List Anchor) : Run :=
  prolonged first (second.map Anchor.char)
    (longestRunFrom 0 (second.map fun _ => 0) ⟨0, 0, 0⟩ first second)

/-- The number of characters in the longest common run and, recursively, in the runs to its left
and right. Each step needs one unit of `fuel`; the length of the first text is enough, as a run
that is not empty leaves shorter texts on both sides. -/
def commonCharactersWithin : (fuel : Nat) → List Char → List Anchor → Nat
  | 0, _, _ => 0
  | fuel + 1, first, second =>
    let run := longestRun first second
    if run.size = 0 then 0
    else
      commonCharactersWithin fuel (first.take run.left) (second.take run.right) + run.size +
        commonCharactersWithin fuel (first.drop (run.left + run.size))
          (second.drop (run.right + run.size))

/-- The number of characters that two texts have in common in order, by runs. -/
def commonCharacters (first second : List Char) : Nat :=
  commonCharactersWithin (first.length + 1) first (anchors second)

/-- A ratio of natural numbers; it is compared by cross multiplication. -/
structure Ratio where
  /-- The part. -/
  part : Nat
  /-- The whole. -/
  whole : Nat
deriving DecidableEq, Repr

/-- The order of ratios with positive wholes. -/
def Ratio.le (a b : Ratio) : Bool :=
  a.part * b.whole ≤ b.part * a.whole

/-- How alike a candidate is to a word; two empty texts are fully alike. -/
def resemblance (candidate word : String) : Ratio :=
  let total := candidate.length + word.length
  if total = 0 then ⟨1, 1⟩ else ⟨2 * commonCharacters candidate.toList word.toList, total⟩

/-- The resemblance from which on a candidate is suggested. -/
def suggestionThreshold : Ratio :=
  ⟨3, 5⟩

/-- The better of two candidates with their resemblances: the more alike one, and of two equally
alike ones the greater text. -/
def betterCandidate (a b : Ratio × String) : Ratio × String :=
  if a.1.le b.1 && (!b.1.le a.1 || a.2 < b.2) then b else a

/-- The candidate most alike to a word, among those that reach `suggestionThreshold`. -/
def closest? (word : String) (candidates : List String) : Option String :=
  let rated := candidates.map fun candidate => (resemblance candidate word, candidate)
  match rated.filter fun rating => suggestionThreshold.le rating.1 with
  | [] => none
  | best :: rest => some (rest.foldl betterCandidate best).2

end Logicless.Text
