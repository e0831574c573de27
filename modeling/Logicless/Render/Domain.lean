/-!
# Domains of values

Templates are rendered with values that come from outside, and so do the filters among them. Rendering
asks a value whether it stands for absence, whether a section is rendered for it, for its items, for what
it knows of an identifier, for what it does to another value as a filter, and for its text. Any of these
but the first may fail in a way that is known outside alone.

## Shape of the module

* `Domain` is what rendering asks of values.
* `RenderFault` says why there is no value of an expression or no text of a template.
-/

namespace Logicless

/-- Values, as far as rendering is concerned. What is asked of them may fail with an `ε`. -/
structure Domain (ε : Type) where
  /-- The values. -/
  Carrier : Type
  /-- The value that stands for absence. -/
  null : Carrier
  /-- The value stands for absence. -/
  isNull : Carrier → Bool
  isNull_null : isNull null = true
  /-- Sections are rendered for the value. -/
  truthy : Carrier → Except ε Bool
  /-- The items of a value that a section is rendered for one by one. Getting the next one may fail. -/
  items? : Carrier → Option (List (Except ε Carrier))
  /-- What a value answers for an identifier. -/
  answer : Carrier → (identifier : String) → Except ε Carrier
  /-- What a value does to another one as a filter, if it is one. -/
  filter? : Carrier → Option (Carrier → Except ε Carrier)
  /-- The value as it is written into a text. -/
  display : Carrier → Except ε String

/-- Why an expression has no value or a template no text. -/
inductive RenderFault (ε : Type) where
  /-- A value or a filter failed. -/
  | raised (failure : ε)
  /-- An expression has no known form. -/
  | unknownExpression
  /-- Bodies and templates are nested deeper than the given depth. -/
  | tooDeep
deriving DecidableEq, Repr

end Logicless
