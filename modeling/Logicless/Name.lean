import Logicless.Text.Blank

/-!
# Names of templates and blocks

A partial, a layout or a block is named by the content of its tag, without the blank characters
around it. A name is a single word: `layouts/base` and `a.b` are names, `a b` is none.

## Shape of the module

* `NameRole` is what a name is for, which only the wording of errors depends on.
* `parseName` reads a name and `IsName` is the property of the texts it returns.
-/

namespace Logicless

/-- What a name is for. -/
inductive NameRole where
  /-- The name of a template to include. -/
  | template
  /-- The name of a block. -/
  | block
deriving DecidableEq, Repr

/-- The word for a role in the wording of errors. -/
def NameRole.label : NameRole → String
  | template => "template"
  | block => "inheritable section"

/-- Why a text is no name. -/
inductive NameError where
  /-- The text is blank. -/
  | missing (role : NameRole)
  /-- The text has several words. -/
  | invalid (role : NameRole)
deriving DecidableEq, Repr

/-- The wording of a name error. -/
def NameError.message : NameError → String
  | missing role => "Missing " ++ role.label ++ " name"
  | invalid role => "Invalid " ++ role.label ++ " name"

/-- A blank text, rather than one of several words, was met. -/
def NameError.isBlank : NameError → Bool
  | missing _ => true
  | invalid _ => false

/-- A text that can stand as a name: not empty, without blank characters. -/
def IsName (name : String) : Prop :=
  name.toList ≠ [] ∧ ∀ c ∈ name.toList, Text.isBlank c = false

/-- Reads a name: the content of a tag without the blank characters around it. -/
def parseName (role : NameRole) (content : String) : Except NameError String :=
  let word := Text.trim content.toList
  if word.isEmpty then .error (.missing role)
  else if word.any Text.isBlank then .error (.invalid role)
  else .ok (String.ofList word)

end Logicless
