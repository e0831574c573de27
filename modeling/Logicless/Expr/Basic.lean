import Logicless.Text.Blank

/-!
# Tag expressions

The content of a variable or section tag is a path into the values that surround the tag: a dot
for the current value, an identifier looked up outwards, an identifier looked up in the value of
another expression, or a filter applied to an argument.

## Shape of the module

* `Expr` is the type of expressions, compared structurally: a closing tag matches its opening tag
  when their expressions are equal.
* `Expr.print` is the concrete form of an expression.
* `isIdentifierChar` is the alphabet of identifiers and `Expr.WellFormed` the property that every
  identifier of an expression is a non-empty word over it.
-/

namespace Logicless

/-- A path into the values that surround a tag. -/
inductive Expr where
  /-- The current value, written as a single dot. -/
  | implicit
  /-- An identifier looked up from the innermost value outwards. -/
  | identifier (name : String)
  /-- An identifier looked up in the value of `base` alone. -/
  | member (base : Expr) (name : String)
  /-- The value of `function` applied to the value of `argument`. -/
  | filtered (function argument : Expr)
  /-- An expression of no known form. It has no concrete form and no value. -/
  | unknown
deriving DecidableEq, Repr, Inhabited

namespace Expr

/-- The four characters with a meaning of their own in expressions. -/
def isReserved (c : Char) : Bool :=
  c = '.' || c = '(' || c = ')' || c = ','

/-- Identifiers are made of all characters that are neither blank nor reserved. -/
def isIdentifierChar (c : Char) : Bool :=
  !Text.isBlank c && !isReserved c

/-- The concrete form of an expression. An identifier of the current value has one dot in front of
it and not two; an unknown expression shows its kind instead. -/
def print : Expr → String
  | implicit => "."
  | identifier name => name
  | member implicit name => "." ++ name
  | member base name => base.print ++ "." ++ name
  | filtered function argument => function.print ++ "(" ++ argument.print ++ ")"
  | unknown => "Expression()"

/-- A text that can stand as an identifier. -/
def IsIdentifier (name : String) : Prop :=
  name.toList ≠ [] ∧ ∀ c ∈ name.toList, isIdentifierChar c = true

/-- Every identifier in the expression can stand as one, and every part has a known form. -/
def WellFormed : Expr → Prop
  | implicit => True
  | identifier name => IsIdentifier name
  | member base name => base.WellFormed ∧ IsIdentifier name
  | filtered function argument => function.WellFormed ∧ argument.WellFormed
  | unknown => False

end Expr

end Logicless
