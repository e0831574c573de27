/-!
# Template ids

A template is named by a path of segments separated by slashes, and known by an id: the path that
remains after empty segments and dots are dropped and double dots have gone up. A name with a
leading slash starts at the root; any other name starts at the directory of the including
template, if there is one.

## Shape of the module

* `segments` and `joinSegments` take a path apart at its slashes and put it together again.
* `walk` follows segments from a place in the tree; above the root there is only the root, while a
  relative path keeps the double dots that it cannot follow.
* `normalize` is the canonical spelling of a path and `directory` the path that its last segment
  lies in.
* `TemplateId.ofName` is the id of a name used inside a template.
-/

namespace Logicless

namespace TemplateId

/-- The texts between the slashes of a path: one more than it has slashes. -/
def segments : List Char → List (List Char)
  | [] => [[]]
  | c :: cs =>
    if c = '/' then [] :: segments cs
    else match segments cs with
      | [] => [[c]]
      | segment :: rest => (c :: segment) :: rest

/-- Segments with a slash between each two of them. -/
def joinSegments : List (List Char) → List Char
  | [] => []
  | [segment] => segment
  | segment :: rest => segment ++ '/' :: joinSegments rest

/-- A segment that stays where it is. -/
def isStay (segment : List Char) : Bool :=
  segment = [] || segment = ['.']

/-- The segment that goes up by one directory. -/
def up : List Char :=
  ['.', '.']

/-- One segment further from a place, which is given by the segments that lead to it, last one
first. Going up from the root stays there if `rooted`; going up from the start of a relative path
is kept as a segment. -/
def walkStep (rooted : Bool) (trail : List (List Char)) (segment : List Char) :
    List (List Char) :=
  if isStay segment then trail
  else if segment = up then
    match trail with
    | [] => if rooted then [] else [up]
    | last :: before => if last = up then up :: trail else before
  else segment :: trail

/-- The place that segments lead to, last segment first. -/
def walk (rooted : Bool) (trail : List (List Char)) (path : List (List Char)) :
    List (List Char) :=
  path.foldl (walkStep rooted) trail

/-- The slashes that a normalized path starts with: exactly two are kept, and more count as one. -/
def leadingSlashes (path : List Char) : List Char :=
  match (path.takeWhile (· = '/')).length with
  | 0 => []
  | 2 => ['/', '/']
  | _ => ['/']

/-- The canonical spelling of a path; a dot if nothing remains of it. -/
def normalize (path : List Char) : List Char :=
  let slashes := leadingSlashes path
  let spelled := slashes ++ joinSegments (walk (!slashes.isEmpty) [] (segments path)).reverse
  if spelled.isEmpty then ['.'] else spelled

/-- The part of a path in front of its last segment. The slash between the two is dropped, but a
part made of slashes alone stays. -/
def directory (path : List Char) : List Char :=
  let back := path.reverse.dropWhile (· ≠ '/')
  let bare := back.dropWhile (· = '/')
  (if bare.isEmpty then back else bare).reverse

/-- A relative path, appended to a directory. -/
def append (base path : List Char) : List Char :=
  if base.isEmpty || base.getLast? = some '/' then base ++ path else base ++ '/' :: path

/-- The id of the template `name`, used inside the template with the id `relativeTo` if any. -/
def ofNameChars (name : List Char) (relativeTo : Option (List Char)) : List Char :=
  if name.head? = some '/' then (normalize name).dropWhile (· = '/')
  else match relativeTo with
    | none => normalize name
    | some including => normalize (append (directory including) name)

end TemplateId

/-- The id of the template `name`, used inside the template with the id `relativeTo` if any. -/
def TemplateId.ofName (name : String) (relativeTo : Option String) : String :=
  String.ofList (TemplateId.ofNameChars name.toList (relativeTo.map String.toList))

end Logicless
